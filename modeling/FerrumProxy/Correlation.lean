/-
  One correlation id for each request.

  `handle_request` fixes the id when the request arrives: the first `X-Request-ID`
  of the client if it can be read, a fresh one otherwise.  `OneId` is carried
  through all handlers: the responses of the request have exactly this id, and so
  have the upstream requests, unless the client lists `x-request-id` in its
  `Connection` header.  Then the id is stripped as a hop-by-hop header.
-/
import FerrumProxy.Effects
import FerrumProxy.UpstreamHeaders

namespace FerrumProxy

open Lib Sys

/-! ## Correlation ids are visible -/

theorem toStr_visible {v : HeaderValue} {text : String} (h : HeaderValue.toStr v = some text) :
    text.toList.all visible := by
  unfold HeaderValue.toStr at h
  split_ifs at h with hv
  rw [← Option.some.inj h, String.toList_ofList, List.all_eq_true]
  intro c hc
  obtain ⟨b, hb, rfl⟩ := List.mem_map.1 hc
  have hb := List.all_eq_true.1 hv b hb
  simp only [HeaderValue.isVisible, Bool.or_eq_true, Bool.and_eq_true, decide_eq_true_eq,
    beq_iff_eq, UInt8.le_iff_toNat_le, UInt8.lt_iff_toNat_lt, ← UInt8.toNat_inj] at hb
  have hb : 32 ≤ b.toNat ∧ b.toNat < 127 ∨ b.toNat = 9 := hb
  have hnat : ∀ n < 127, (Char.ofNat n).toNat = n := by decide
  rw [visible_iff, hnat b.toNat (by omega)]
  exact hb

theorem hex16_visible (n : ℕ) : (hex16 n).toList.all visible := by
  unfold hex16
  rw [String.toList_ofList, List.all_append, toDigits_visible (by decide) (by decide)]
  simp [List.all_replicate, visible]

theorem requestId_visible (s : Sys) (req : Request) : (s.requestId req).2.toList.all visible := by
  unfold Sys.requestId
  split
  · rename_i value hvalue
    obtain ⟨v, -, hv⟩ := Option.bind_eq_some_iff.1 hvalue
    exact toStr_visible hv
  · exact hex16_visible _

/-! ## The id in upstream requests -/

/-- The first `Connection` line of the client names the correlation id. -/
def NominatesId (req : Request) : Prop :=
  ∃ v, (values req.headers "connection").head? = some v ∧ Nominates v requestIdHeader

theorem values_outgoingHeaders (job : Job) (d : Dispatch) {name : String}
    (hn : name ≠ "content-length") :
    values (outgoingHeaders job d) name = values job.request.headers name := by
  cases d with
  | retry attempted n body =>
    unfold outgoingHeaders
    rw [HeaderMap.values_insert, if_neg hn]
  | prebuffer body => rfl
  | stream upload => rfl

/-- An upstream request has the id of its request, unless the client has nominated it. -/
theorem prepareAttempt_requestId {P : Setup} {job : Job} {b : String} {d : Dispatch}
    {u : UpstreamRequest} {req : Request} {rid : String} (hrid : rid.toList.all visible)
    (hjob : job.request = req.withId rid) (hu : prepareAttempt P job b d = .ok u) :
    values u.headers requestIdHeader = [HeaderValue.ofString rid] ↔ ¬ NominatesId req := by
  have hid : values (outgoingHeaders job d) requestIdHeader = [HeaderValue.ofString rid] := by
    rw [values_outgoingHeaders job d (by decide), hjob]
    exact (values_insertText _ _ _ hrid).trans (if_pos rfl)
  have hconn : values (outgoingHeaders job d) "connection" = values req.headers "connection" := by
    rw [values_outgoingHeaders job d (by decide), hjob]
    exact (values_insertText _ _ _ hrid).trans (if_neg (by decide))
  have hkept : values u.headers requestIdHeader =
      values (sanitizeHopByHopHeaders (outgoingHeaders job d)) requestIdHeader :=
    values_prepare hu (by decide)
  have hmem : requestIdHeader ∈ hopByHopNames ++ connectionNames (outgoingHeaders job d) ↔
      NominatesId req := by
    rw [List.mem_append, mem_connectionNames (by decide), hconn]
    exact or_iff_right (by decide)
  rw [hkept, values_sanitize, hid, ← hmem]
  split_ifs with hn
  · exact iff_of_false (by simp) (not_not.2 hn)
  · exact iff_of_true rfl hn

/-! ## Through the handlers -/

/-- What an entry must say about the request `id₀`, which is `req` with the correlation id `rid`. -/
def CarriesId (id₀ : ℕ) (req : Request) (rid : String) : Obs → Prop
  | .arrived id request => id = id₀ → request = req
  | .attempt id _ _ upstream _ => id = id₀ → ∀ u, upstream = .ok u →
    (values u.headers requestIdHeader = [HeaderValue.ofString rid] ↔ ¬ NominatesId req)
  | .responded id response => id = id₀ →
    values response.headers requestIdHeader = [HeaderValue.ofString rid]
  | _ => True

/-- What a handler knows about the request `id₀`. -/
def Point.OfId (id₀ : ℕ) (req : Request) (rid : String) : Point → Prop
  | .idle => True
  | .handling id request rid' => id = id₀ → request = req.withId rid ∧ rid' = rid
  | .completed id request rid' response => id = id₀ → request = req.withId rid ∧ rid' = rid ∧
    values response.headers requestIdHeader = [HeaderValue.ofString rid]

/-- The request `id₀`, if it has arrived, is `req` and has the correlation id `rid`. -/
structure OneId (id₀ : ℕ) (req : Request) (rid : String) (p : Point) (s : Sys) : Prop where
  visible : rid.toList.all visible
  log : ∀ e ∈ s.log, CarriesId id₀ req rid e.2
  tasks : ∀ task job, s.tasks.get? id₀ = some task → task.job? = some job →
    job.request = req.withId rid ∧ job.requestId = rid
  point : p.OfId id₀ req rid

section
variable {id₀ : ℕ} {req : Request} {rid : String} {p p' : Point} {s s' : Sys}

theorem carriesId_of_other {e : ℕ × Obs} (h : ¬ decide (e.2.id? = some id₀)) :
    CarriesId id₀ req rid e.2 := by
  obtain ⟨t, o⟩ := e
  cases o with
  | arrived id request => exact fun hid => absurd (by simp [Obs.id?, hid]) h
  | attempt id b d upstream elapsed => exact fun hid => absurd (by simp [Obs.id?, hid]) h
  | responded id response => exact fun hid => absurd (by simp [Obs.id?, hid]) h
  | _ => trivial

/-- Effects that write consistent entries. -/
theorem OneId.next (h : OneId id₀ req rid p s) (os : List (ℕ × Obs)) (hlog : s'.log = s.log ++ os)
    (hos : ∀ e ∈ os, CarriesId id₀ req rid e.2) (htasks : s'.tasks = s.tasks)
    (hp : p'.OfId id₀ req rid) : OneId id₀ req rid p' s' where
  visible := h.visible
  log e he := by
    rw [hlog, List.mem_append] at he
    exact he.elim (h.log e) (hos e)
  tasks task job := by
    rw [htasks]
    exact h.tasks task job
  point := hp

end

/-- **The correlation id** of a request is carried through all handlers. -/
theorem oneId_outline (P : Setup) (id₀ : ℕ) :
    Outline P fun p s => ∃ req rid, OneId id₀ req rid p s where
  clock := by
    rintro s t - ⟨req, rid, h⟩
    exact ⟨req, rid, h.next [] (by simp) (by simp) rfl h.point⟩
  permits := by
    rintro p s n ⟨req, rid, h⟩
    exact ⟨req, rid, h.next [] (by simp) (by simp) rfl h.point⟩
  check := by
    rintro s c ⟨req, rid, h⟩
    exact ⟨req, rid, h.next [_] rfl (by simp [CarriesId]) rfl trivial⟩
  arrive := by
    rintro s id request hold hfresh ⟨req, rid, h⟩
    have hvisible := requestId_visible ((s.emit (.arrived id request)).record .request) request
    obtain ⟨s₁, new, he, heff⟩ := requestId_eff ((s.emit (.arrived id request)).record .request) request
    rw [he] at hvisible ⊢
    have hlog : s₁.log = s.log ++ [(s.now, .arrived id request)] := by
      rw [heff.log, List.append_nil]
      rfl
    by_cases hid : id = id₀
    · -- this is the request: nothing has been written for it before
      subst hid
      refine ⟨request, new, hvisible, ?_, ?_, fun _ => ⟨rfl, rfl⟩⟩
      · intro e he
        rw [hlog, List.mem_append, List.mem_singleton] at he
        rcases he with he | rfl
        · exact carriesId_of_other (List.filter_eq_nil_iff.1 hfresh e he)
        · exact fun _ => rfl
      · intro task job hold'
        rw [heff.tasks] at hold'
        simp [Sys.emit, Sys.record, hold] at hold'
    · exact ⟨req, rid, h.next [_] hlog (by simp [CarriesId, hid]) heff.tasks fun he => absurd he hid⟩
  resume := by
    rintro s id task job hold hjob ⟨req, rid, h⟩
    refine ⟨req, rid, h.next [] (by simp) (by simp) rfl ?_⟩
    rintro rfl
    exact h.tasks task job hold hjob
  record := by
    rintro s id request rid' c - ⟨req, rid, h⟩
    exact ⟨req, rid, h.next [] (by simp [Sys.record]) (by simp) rfl h.point⟩
  health := by
    rintro s id request rid' c ⟨req, rid, h⟩
    exact ⟨req, rid, h.next [_] rfl (by simp [CarriesId]) rfl h.point⟩
  select := by
    rintro s id request rid' route attempted - - ⟨req, rid, h⟩
    rcases selectBackend_cases s id route attempted with ⟨s', he, -, heff⟩ | ⟨s', b, he, -, heff⟩ <;>
      rw [he]
    · exact ⟨req, rid, h.next _ heff.log (by simp [CarriesId, lookEntry]) heff.tasks h.point⟩
    · exact ⟨req, rid, h.next _ heff.log (by simp [CarriesId, lookEntry]) heff.tasks h.point⟩
  attempt := by
    rintro s id job b d elapsed ⟨req, rid, h⟩
    refine ⟨req, rid, h.next [_] rfl ?_ rfl h.point⟩
    rw [List.forall_mem_singleton]
    intro hid u hu
    exact prepareAttempt_requestId h.visible (h.point hid).1 hu
  complete := by
    rintro s id request rid' response ⟨req, rid, h⟩
    refine ⟨req, rid, h.next [] (by simp [Sys.completeRequest, Sys.record]) (by simp) rfl ?_⟩
    intro hid
    obtain ⟨hreq, hrid⟩ := h.point hid
    refine ⟨hreq, hrid, ?_⟩
    rw [hrid]
    exact (values_insertText _ _ _ h.visible).trans (if_pos rfl)
  respond := by
    rintro s id request rid' response ⟨req, rid, h⟩
    refine ⟨req, rid, h.next [_] rfl ?_ rfl fun hid => ⟨(h.point hid).1, (h.point hid).2.1⟩⟩
    rw [List.forall_mem_singleton]
    exact fun hid => (h.point hid).2.2
  pause := by
    rintro s id request rid' response n length left ⟨req, rid, h⟩
    exact ⟨req, rid, h.next [_] rfl (by simp [CarriesId]) rfl
      fun hid => ⟨(h.point hid).1, (h.point hid).2.1⟩⟩
  setTask := by
    rintro s id request rid' task hjob ⟨req, rid, h⟩
    refine ⟨req, rid, h.visible, h.log, ?_, trivial⟩
    intro task' job' hold' hjob'
    by_cases hid : id₀ = id
    · subst hid
      rw [Sys.setTask, Table.get?_insert_self, Option.some.injEq] at hold'
      subst hold'
      obtain ⟨hreq, hrid⟩ := hjob job' hjob'
      rw [hreq, hrid]
      exact h.point rfl
    · exact h.tasks task' job' (by rwa [Sys.setTask, Table.get?_insert_ne _ _ hid] at hold') hjob'

/-- **One correlation id for each request.**  In every reachable state, all responses of a request
    have exactly one `x-request-id`, the same one, and an upstream request has exactly this one iff
    the first `Connection` line of the client does not name it. -/
theorem one_correlation_id_iff {P : Setup} {s : Sys} (h : P.Reachable s) {id t₀ : ℕ}
    {req : Request} (ha : (t₀, .arrived id req) ∈ s.log) :
    ∃ v : HeaderValue,
      (∀ t response, (t, .responded id response) ∈ s.log →
        values response.headers "x-request-id" = [v]) ∧
      (∀ t b d u elapsed, (t, .attempt id b d (.ok u) elapsed) ∈ s.log →
        (values u.headers "x-request-id" = [v] ↔ ¬ ∃ c,
          (values req.headers "connection").head? = some c ∧ Nominates c "x-request-id")) := by
  obtain ⟨req', rid, hid⟩ := (oneId_outline P id).reachable
    ⟨req, "", rfl, by simp [Setup.initial], by simp [Setup.initial, Table.empty], trivial⟩ h
  obtain rfl : req = req' := hid.log _ ha rfl
  refine ⟨HeaderValue.ofString rid, fun t response he => hid.log _ he rfl, ?_⟩
  intro t b d u elapsed he
  exact hid.log _ he rfl u rfl

/-- A `GET` without an id of its own: the backend gets the one that the proxy makes. -/
theorem fresh_id_reaches_backend :
    let P := small ["http://127.0.0.1:3001"] 1 1 1
    let u : UpstreamRequest := ⟨.get, ⟨"/api/x", none⟩,
      [("x-request-id", HeaderValue.ofString "0000000000000001"),
        ("host", HeaderValue.ofString "127.0.0.1:3001")]⟩
    ∃ s, exec (step P) P.initial [(1, .arrive 1 (smallRequest .get)),
        (2, .resolved 1 (.response 200 []))] = some s ∧
      (1, .attempt 1 "http://127.0.0.1:3001" (.stream (.running 0)) (.ok u) 0) ∈ s.log ∧
      ∃ v, values u.headers "x-request-id" = [v] ∧
        ∀ t response, (t, .responded 1 response) ∈ s.log →
          values response.headers "x-request-id" = [v] := by
  intro P u
  obtain ⟨s, hs, hp⟩ := exists_of_exec_any (step P) P.initial
    [(1, .arrive 1 (smallRequest .get)), (2, .resolved 1 (.response 200 []))]
    (fun s => (1, .arrived 1 (smallRequest .get)) ∈ s.log ∧
      (1, .attempt 1 "http://127.0.0.1:3001" (.stream (.running 0)) (.ok u) 0) ∈ s.log)
    (by decide +kernel)
  obtain ⟨harrived, hattempt⟩ := of_decide_eq_true hp
  obtain ⟨v, hresponses, hv⟩ := one_correlation_id_iff (P.reachable_of_exec hs) harrived
  exact ⟨s, hs, hattempt, v, (hv _ _ _ _ _ hattempt).2 (by simp [smallRequest]), hresponses⟩

/-- A `GET` whose `Connection` line names the id: the backend does not get it. -/
theorem nominated_id_stripped :
    let P := small ["http://127.0.0.1:3001"] 1 1 1
    let req : Request := { smallRequest .get with
      headers := [("connection", HeaderValue.ofString "X-Request-ID")] }
    ∃ s, exec (step P) P.initial
        [(1, .arrive 1 req), (2, .resolved 1 (.response 200 []))] = some s ∧
      ¬ ∃ v : HeaderValue, (∀ t response, (t, .responded 1 response) ∈ s.log →
          values response.headers "x-request-id" = [v]) ∧
        ∀ t b d u elapsed, (t, .attempt 1 b d (.ok u) elapsed) ∈ s.log →
          values u.headers "x-request-id" = [v] := by
  intro P req
  let u : UpstreamRequest := ⟨.get, ⟨"/api/x", none⟩,
    [("host", HeaderValue.ofString "127.0.0.1:3001")]⟩
  obtain ⟨s, hs, hp⟩ := exists_of_exec_any (step P) P.initial
    [(1, .arrive 1 req), (2, .resolved 1 (.response 200 []))]
    (fun s => (1, .attempt 1 "http://127.0.0.1:3001" (.stream (.running 0)) (.ok u) 0) ∈ s.log)
    (by decide +kernel)
  refine ⟨s, hs, ?_⟩
  rintro ⟨v, -, hall⟩
  have hnone : values u.headers "x-request-id" = [v] := hall _ _ _ _ _ (of_decide_eq_true hp)
  simp [u, values_cons] at hnone

end FerrumProxy
