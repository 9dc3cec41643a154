/-
  The correlation ids that the proxy makes.

  `generate_request_id` writes a counter that wraps at 2^64 in sixteen hexadecimal digits.
  A request whose own id cannot be read gets the next number, and keeps it through its
  handlers (`numbered_outline`) and in its replies, so that such requests can be told apart
  as long as the counter has not come round (`generated_ids_distinct`).
-/
import FerrumProxy.Correlation
import FerrumProxy.Lib.Digits

namespace FerrumProxy

open Lib Sys

/-! ## Sixteen digits -/

/-- Different numbers are written differently. -/
theorem hex16_inj {n m : ℕ} (h : hex16 n = hex16 m) : n = m := by
  have hread : ∀ n, readHex 0 (hex16 n).toList = some n := fun n => by
    rw [hex16, String.toList_ofList, readHex_zeros, readHex_toDigits]
  have hn := hread n
  rw [h, hread m] at hn
  exact (Option.some.inj hn).symm

/-- Different texts are different header values. -/
theorem ofString_inj {a b : String} (h : HeaderValue.ofString a = HeaderValue.ofString b) :
    a = b := by
  have henc : a.toList.utf8Encode = b.toList.utf8Encode := congrArg List.toByteArray h
  rw [String.utf8Encode_toList, String.utf8Encode_toList] at henc
  exact String.toByteArray_inj.1 henc

/-! ## The next number -/

/-- The id that a request brings along: the first `X-Request-ID`, when it can be read. -/
def ownId (request : Request) : Option String :=
  (request.headers.get requestIdHeader).bind HeaderValue.toStr

/-- The number of requests that have got a generated id. -/
def generated (log : List (ℕ × Obs)) : ℕ :=
  log.countP fun e =>
    match e.2 with
    | .arrived _ request => (ownId request).isNone
    | _ => false

@[simp] theorem generated_append (log os : List (ℕ × Obs)) :
    generated (log ++ os) = generated log + generated os := List.countP_append ..

/-- The id of a request that arrives after `log`. -/
def idAfter (log : List (ℕ × Obs)) (request : Request) : String :=
  (ownId request).getD (hex16 ((generated log + 1) % 2 ^ 64))

theorem requestId_eq (s : Sys) (request : Request) : s.requestId request =
    match ownId request with
    | some value => (s, value)
    | none => ({ s with requestIdCounter := (s.requestIdCounter + 1) % 2 ^ 64 },
        hex16 s.requestIdCounter) := rfl

/-- The id of an arriving request and the counter after it. -/
theorem requestId_next {s : Sys} {n : ℕ} (h : s.requestIdCounter = (n + 1) % 2 ^ 64)
    (request : Request) :
    (s.requestId request).2 = (ownId request).getD (hex16 ((n + 1) % 2 ^ 64)) ∧
      (s.requestId request).1.requestIdCounter =
        (n + (if (ownId request).isNone then 1 else 0) + 1) % 2 ^ 64 := by
  rw [requestId_eq]
  cases hown : ownId request with
  | some value => exact ⟨rfl, h⟩
  | none => exact ⟨congrArg hex16 h, by simp [h, Nat.mod_add_mod]⟩

theorem selectBackend_counter (s : Sys) (id : ℕ) (route : RouteConfig) (attempted : List String) :
    (s.selectBackend id route attempted).1.requestIdCounter = s.requestIdCounter := by
  unfold Sys.selectBackend
  dsimp only
  split <;> rfl

/-! ## Through the handlers -/

/-- What a handler knows about the id of the request `id₀`. -/
def Point.HasId (id₀ : ℕ) (rid : String) : Point → Prop
  | .idle => True
  | .handling id _ rid' => id = id₀ → rid' = rid
  | .completed id _ rid' response => id = id₀ → rid' = rid ∧
    values response.headers requestIdHeader = [HeaderValue.ofString rid]

/-- What an entry says about the id of the request `id₀`, behind the entries of `log`. -/
def TellsId (id₀ : ℕ) (rid : String) (log : List (ℕ × Obs)) (e : ℕ × Obs) : Prop :=
  match e.2 with
  | .arrived id request => id = id₀ → rid = idAfter log request
  | .responded id response => id = id₀ →
    values response.headers requestIdHeader = [HeaderValue.ofString rid]
  | _ => True

/-- The counter has counted the generated ids, and the request `id₀`, if it has arrived, has the id
    `rid` that was next at its arrival. -/
structure Numbered (id₀ : ℕ) (rid : String) (p : Point) (s : Sys) : Prop where
  visible : rid.toList.all visible
  counter : s.requestIdCounter = (generated s.log + 1) % 2 ^ 64
  log : AtEach (TellsId id₀ rid) s.log
  tasks : ∀ task job, s.tasks.get? id₀ = some task → task.job? = some job → job.requestId = rid
  point : p.HasId id₀ rid

section
variable {id₀ : ℕ} {rid : String} {p p' : Point} {s s' : Sys}

/-- Effects that write entries other than arrivals. -/
theorem Numbered.next (h : Numbered id₀ rid p s) (os : List (ℕ × Obs))
    (hlog : s'.log = s.log ++ os) (hos : ∀ log, AtEach (fun l => TellsId id₀ rid (log ++ l)) os)
    (hnone : generated os = 0) (hcounter : s'.requestIdCounter = s.requestIdCounter)
    (htasks : s'.tasks = s.tasks) (hp : p'.HasId id₀ rid) : Numbered id₀ rid p' s' where
  visible := h.visible
  counter := by rw [hlog, generated_append, hnone, Nat.add_zero, hcounter, h.counter]
  log := by
    rw [hlog]
    exact atEach_append.2 ⟨h.log, hos s.log⟩
  tasks task job := by
    rw [htasks]
    exact h.tasks task job
  point := hp

end

/-- **The id of a request** is the next one at its arrival, through all handlers. -/
theorem numbered_outline (P : Setup) (id₀ : ℕ) :
    Outline P fun p s => ∃ rid, Numbered id₀ rid p s where
  clock := by
    rintro s t - ⟨rid, h⟩
    exact ⟨rid, h.next [] (by simp) (by simp) rfl rfl rfl h.point⟩
  permits := by
    rintro p s n ⟨rid, h⟩
    exact ⟨rid, h.next [] (by simp) (by simp) rfl rfl rfl h.point⟩
  check := by
    rintro s c ⟨rid, h⟩
    exact ⟨rid, h.next [_] rfl (by simp [TellsId]) rfl rfl rfl trivial⟩
  arrive := by
    rintro s id request hold hfresh ⟨rid, h⟩
    have hvisible := requestId_visible ((s.emit (.arrived id request)).record .request) request
    have hnext := requestId_next (s := (s.emit (.arrived id request)).record .request) h.counter
      request
    obtain ⟨s₁, new, he, heff⟩ := requestId_eff ((s.emit (.arrived id request)).record .request) request
    rw [he] at hvisible hnext ⊢
    obtain ⟨hnew, hcounter⟩ := hnext
    have hlog : s₁.log = s.log ++ [(s.now, .arrived id request)] := by
      rw [heff.log, List.append_nil]
      rfl
    have hgenerated : generated s₁.log =
        generated s.log + if (ownId request).isNone then 1 else 0 := by
      rw [hlog, generated_append]
      exact congrArg (generated s.log + ·) List.countP_singleton
    by_cases hid : id = id₀
    · -- this is the request: nothing has been written for it before
      subst hid
      refine ⟨new, hvisible, by rw [hcounter, hgenerated], ?_, ?_, fun _ => rfl⟩
      · rw [hlog]
        refine atEach_append.2 ⟨?_, atEach_cons.2 ⟨fun _ => ?_, atEach_nil⟩⟩
        rotate_left
        · rw [List.append_nil]
          exact hnew
        intro l₁ e l₂ hsplit
        have hother := List.filter_eq_nil_iff.1 hfresh e (by simp [hsplit])
        obtain ⟨t, o⟩ := e
        cases o with
        | arrived id' request' => exact fun hid => absurd (by simp [Obs.id?, hid]) hother
        | responded id' response => exact fun hid => absurd (by simp [Obs.id?, hid]) hother
        | _ => trivial
      · intro task job hold'
        rw [heff.tasks] at hold'
        simp [Sys.emit, Sys.record, hold] at hold'
    · refine ⟨rid, h.visible, by rw [hcounter, hgenerated], ?_, ?_, fun he => absurd he hid⟩
      · rw [hlog]
        exact atEach_append.2 ⟨h.log, by simp [TellsId, hid]⟩
      · intro task job
        rw [heff.tasks]
        exact h.tasks task job
  resume := by
    rintro s id task job hold hjob ⟨rid, h⟩
    refine ⟨rid, h.next [] (by simp) (by simp) rfl rfl rfl ?_⟩
    rintro rfl
    exact h.tasks task job hold hjob
  record := by
    rintro s id request rid' c - ⟨rid, h⟩
    exact ⟨rid, h.next [] (by simp [Sys.record]) (by simp) rfl rfl rfl h.point⟩
  health := by
    rintro s id request rid' c ⟨rid, h⟩
    exact ⟨rid, h.next [_] rfl (by simp [TellsId]) rfl rfl rfl h.point⟩
  select := by
    rintro s id request rid' route attempted - - ⟨rid, h⟩
    have hcounter := selectBackend_counter s id route attempted
    rcases selectBackend_cases s id route attempted with ⟨s', he, -, heff⟩ | ⟨s', b, he, -, heff⟩ <;>
      rw [he] at hcounter ⊢
    · exact ⟨rid, h.next _ heff.log (by simp [TellsId, lookEntry]) rfl hcounter heff.tasks h.point⟩
    · exact ⟨rid, h.next _ heff.log (by simp [TellsId, lookEntry]) rfl hcounter heff.tasks h.point⟩
  attempt := by
    rintro s id job b d elapsed ⟨rid, h⟩
    exact ⟨rid, h.next [_] rfl (by simp [TellsId]) rfl rfl rfl h.point⟩
  complete := by
    rintro s id request rid' response ⟨rid, h⟩
    refine ⟨rid, h.next [] (by simp [Sys.completeRequest, Sys.record]) (by simp) rfl rfl rfl ?_⟩
    intro hid
    have hrid : rid' = rid := h.point hid
    refine ⟨hrid, ?_⟩
    rw [hrid]
    exact (values_insertText _ _ _ h.visible).trans (if_pos rfl)
  respond := by
    rintro s id request rid' response ⟨rid, h⟩
    refine ⟨rid, h.next [_] rfl ?_ rfl rfl rfl fun hid => (h.point hid).1⟩
    intro log
    rw [atEach_cons]
    exact ⟨fun hid => (h.point hid).2, atEach_nil⟩
  pause := by
    rintro s id request rid' response n length left ⟨rid, h⟩
    exact ⟨rid, h.next [_] rfl (by simp [TellsId]) rfl rfl rfl fun hid => (h.point hid).1⟩
  setTask := by
    rintro s id request rid' task hjob ⟨rid, h⟩
    refine ⟨rid, h.visible, h.counter, h.log, ?_, trivial⟩
    intro task' job' hold' hjob'
    by_cases hid : id₀ = id
    · subst hid
      rw [Sys.setTask, Table.get?_insert_self, Option.some.injEq] at hold'
      subst hold'
      rw [(hjob job' hjob').2]
      exact h.point rfl
    · exact h.tasks task' job' (by rwa [Sys.setTask, Table.get?_insert_ne _ _ hid] at hold') hjob'

/-- The request `id` goes by the id `rid`: its handler does, and its responses have it. -/
structure HasId (s : Sys) (id : ℕ) (rid : String) : Prop where
  handler : ∀ task job, s.tasks.get? id = some task → task.job? = some job → job.requestId = rid
  responses : ∀ t response, (t, .responded id response) ∈ s.log →
    values response.headers "x-request-id" = [HeaderValue.ofString rid]

/-- A request goes by the id that was next at its arrival. -/
theorem Setup.Reachable.hasId {P : Setup} {s : Sys} (h : P.Reachable s) {id t : ℕ}
    {request : Request} {l₁ l₂ : List (ℕ × Obs)}
    (ha : s.log = l₁ ++ (t, .arrived id request) :: l₂) : HasId s id (idAfter l₁ request) := by
  obtain ⟨rid, hn⟩ := (numbered_outline P id).reachable
    ⟨"", rfl, rfl, by simp [Setup.initial], by simp [Setup.initial, Table.empty], trivial⟩ h
  have hrid : rid = idAfter l₁ request := hn.log _ _ _ ha rfl
  refine ⟨hrid ▸ hn.tasks, fun u response hr => ?_⟩
  obtain ⟨m₁, m₂, hsplit⟩ := List.append_of_mem hr
  rw [← hrid]
  exact hn.log _ _ _ hsplit rfl

/-- Of two arrivals without an id of their own, the later one has the larger number. -/
theorem generated_lt {log l₁ l₂ m₁ m₂ : List (ℕ × Obs)} {a b : ℕ × Obs}
    (ha : log = l₁ ++ a :: l₂) (hb : log = m₁ ++ b :: m₂) (hcount : generated [a] = 1)
    (hlt : l₁.length < m₁.length) : generated l₁ < generated m₁ := by
  obtain ⟨rest, rfl⟩ := concat_isPrefix_of_lt ha hb hlt
  rw [generated_append, generated_append, hcount]
  omega

/-- **Generated ids are distinct.** As long as no more than 2^64 requests have needed a generated
    id, any two of them have got different ids, by which they go in their handlers and responses. -/
theorem generated_ids_distinct (P : Setup) {s : Sys} (h : P.Reachable s)
    (hn : generated s.log ≤ 2 ^ 64) {id₁ id₂ t₁ t₂ : ℕ} {request₁ request₂ : Request}
    {l₁ l₂ m₁ m₂ : List (ℕ × Obs)} (hne : id₁ ≠ id₂)
    (hl : s.log = l₁ ++ (t₁, .arrived id₁ request₁) :: l₂)
    (hm : s.log = m₁ ++ (t₂, .arrived id₂ request₂) :: m₂)
    (hown₁ : ownId request₁ = none) (hown₂ : ownId request₂ = none) :
    idAfter l₁ request₁ ≠ idAfter m₁ request₂ ∧ HasId s id₁ (idAfter l₁ request₁) ∧
      HasId s id₂ (idAfter m₁ request₂) := by
  refine ⟨fun heq => ?_, h.hasId hl, h.hasId hm⟩
  have hcount₁ : generated [(t₁, .arrived id₁ request₁)] = 1 := by simp [generated, hown₁]
  have hcount₂ : generated [(t₂, .arrived id₂ request₂)] = 1 := by simp [generated, hown₂]
  have hmod : (generated l₁ + 1) % 2 ^ 64 = (generated m₁ + 1) % 2 ^ 64 := by
    rw [idAfter, idAfter, hown₁, hown₂] at heq
    exact hex16_inj heq
  have hbound : ∀ {k₁ k₂ : List (ℕ × Obs)} {a : ℕ × Obs}, s.log = k₁ ++ a :: k₂ →
      generated [a] = 1 → generated k₁ + 1 ≤ 2 ^ 64 := by
    intro k₁ k₂ a hk ha
    rw [hk, ← List.singleton_append, generated_append, generated_append, ha] at hn
    omega
  have hb₁ := hbound hl hcount₁
  have hb₂ := hbound hm hcount₂
  rcases Nat.lt_trichotomy l₁.length m₁.length with hlt | hlen | hlt
  · have := generated_lt hl hm hcount₁ hlt
    omega
  · -- the same entry of the log
    have hsame := hl.symm.trans hm
    obtain ⟨-, hcons⟩ := List.append_inj hsame hlen
    have hid := (List.cons.inj hcons).1
    simp only [Prod.mk.injEq, Obs.arrived.injEq] at hid
    exact hne hid.2.1
  · have := generated_lt hm hl hcount₂ hlt
    omega

/-- Two requests, the first of which has not been answered. -/
theorem generated_ids_distinct_two :
    let P := small ["http://127.0.0.1:3001"] 1 1 1
    let req : Request := ⟨.get, ⟨"/x", none⟩, [], none⟩
    ∃ s, exec (step P) P.initial [(0, .arrive 1 (smallRequest .get)), (0, .arrive 2 req)] = some s ∧
      hex16 1 ≠ hex16 2 ∧ HasId s 1 (hex16 1) ∧ HasId s 2 (hex16 2) := by
  intro P req
  let l₁ : List (ℕ × Obs) := [(0, .arrived 1 (smallRequest .get))]
  obtain ⟨s, hs, hp⟩ := exists_of_exec_any (step P) P.initial
    [(0, .arrive 1 (smallRequest .get)), (0, .arrive 2 req)]
    (fun s => decide (s.log.take 1 = l₁ ∧ s.log.drop 4 = (0, .arrived 2 req) :: s.log.drop 5 ∧
      generated (s.log.take 4) = 1 ∧ generated s.log = 2)) (by decide +kernel)
  obtain ⟨hfirst, hsecond, hmid, hn⟩ := of_decide_eq_true hp
  have hl : s.log = [] ++ (0, .arrived 1 (smallRequest .get)) :: s.log.drop 1 := by
    have := List.take_append_drop 1 s.log
    rw [hfirst] at this
    exact this.symm
  have hm : s.log = s.log.take 4 ++ (0, .arrived 2 req) :: s.log.drop 5 := by
    rw [← hsecond]
    exact (List.take_append_drop 4 s.log).symm
  obtain ⟨hne, h₁, h₂⟩ := generated_ids_distinct P (P.reachable_of_exec hs) (by rw [hn]; decide)
    (by decide) hl hm rfl rfl
  have hid₂ : idAfter (s.log.take 4) req = hex16 2 := by
    rw [idAfter, hmid]
    rfl
  rw [hid₂] at hne h₂
  exact ⟨s, hs, hne, h₁, h₂⟩

end FerrumProxy
