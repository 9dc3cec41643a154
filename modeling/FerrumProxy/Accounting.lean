/-
  The counters of requests and responses.

  `complete_request` counts a status for every response it completes, also for one
  that the retry loop discards.  `Books` relates the counters to the log: a counter
  of a status is the number of replies with this status and of discarded responses
  with this status.  So the counters tell what the clients received exactly when no
  response was discarded.
-/
import FerrumProxy.Effects
import Mathlib.Data.List.Perm.Basic

namespace FerrumProxy

open Lib Sys

/-! ## Requests and replies in a log -/

/-- The requests that have arrived, in order. -/
def arrivals (log : List (ℕ × Obs)) : List ℕ :=
  log.filterMap fun e =>
    match e.2 with
    | .arrived id _ => some id
    | _ => none

/-- The requests that have been answered, each with the status that its client received. -/
def replies (log : List (ℕ × Obs)) : List (ℕ × ℕ) :=
  log.filterMap fun e =>
    match e.2 with
    | .responded id response => some (id, response.status)
    | _ => none

/-- The number of responses that were discarded for another attempt. -/
def discards (log : List (ℕ × Obs)) : ℕ :=
  log.countP fun e =>
    match e.2 with
    | .pause _ _ _ _ => true
    | _ => false

@[simp] theorem arrivals_append (log os : List (ℕ × Obs)) :
    arrivals (log ++ os) = arrivals log ++ arrivals os := List.filterMap_append ..

@[simp] theorem replies_append (log os : List (ℕ × Obs)) :
    replies (log ++ os) = replies log ++ replies os := List.filterMap_append ..

@[simp] theorem discards_append (log os : List (ℕ × Obs)) :
    discards (log ++ os) = discards log + discards os := List.countP_append ..

/-- The request has been answered or dropped. -/
def Task.settled : Option Task → Bool
  | some (.responding _ _ _) | some .done => true
  | _ => false

section
variable {P : Setup} {m : HealthManager} {t id : ℕ} {e : Event} {old : Option Task}
  {os : List (ℕ × Obs)} {new : Task}

theorem Head.arrivals_eq {job : Job} {attempted : List String} {n : ℕ} {body : Bytes}
    (h : Head P m t id job attempted n body os new) : arrivals os = [] := by
  cases h <;> rfl

theorem Head.replies_cases {job : Job} {attempted : List String} {n : ℕ} {body : Bytes}
    (h : Head P m t id job attempted n body os new) :
    replies os = [] ∨ Task.settled (some new) ∧ ∃ status, replies os = [(id, status)] := by
  cases h with
  | late _ => exact Or.inr ⟨rfl, _, rfl⟩
  | exhausted _ _ => exact Or.inr ⟨rfl, _, rfl⟩
  | attempt _ _ => exact Or.inl rfl

/-- A request arrives once, with its first transition. -/
theorem Trans.arrivals_eq (h : Trans P m t id e old os new) :
    arrivals os = if old = none then [id] else [] := by
  cases h with
  | answered _ hl => rcases hl with rfl | rfl <;> rfl
  | bufferedRetry hh => exact hh.arrivals_eq
  | again _ _ _ _ hh => exact hh.arrivals_eq
  | woken _ hh => exact hh.arrivals_eq
  | _ => rfl

/-- A request is answered at most once, by the transition that settles it. -/
theorem Trans.replies_cases (h : Trans P m t id e old os new) :
    replies os = [] ∧ (Task.settled old → Task.settled (some new)) ∨
      Task.settled old = false ∧ Task.settled (some new) ∧ ∃ status, replies os = [(id, status)] := by
  have hhead : ∀ {job attempted n body os}, Head P m t id job attempted n body os new →
      Task.settled old = false → replies os = [] ∧ (Task.settled old → Task.settled (some new)) ∨
        Task.settled old = false ∧ Task.settled (some new) ∧ ∃ status, replies os = [(id, status)] := by
    intro job attempted n body os hh hold
    rcases hh.replies_cases with hnone | ⟨hnew, hone⟩
    · exact Or.inl ⟨hnone, by simp [hold]⟩
    · exact Or.inr ⟨hold, hnew, hone⟩
  cases h with
  | answered _ hl => rcases hl with rfl | rfl <;> exact Or.inr ⟨rfl, rfl, _, rfl⟩
  | noPermit _ _ | noBackend _ _ _ | noPermitChosen _ _ _ _ | bufferFailed _ =>
    exact Or.inr ⟨rfl, rfl, _, rfl⟩
  | returned hnew _ =>
    refine Or.inr ⟨rfl, ?_, _, rfl⟩
    rcases hnew with rfl | rfl <;> rfl
  | bufferedRetry hh => exact hhead hh rfl
  | again _ _ _ _ hh =>
    rcases hh.replies_cases with hnone | ⟨hnew, hone⟩
    · exact Or.inl ⟨hnone, by simp [Task.settled]⟩
    · exact Or.inr ⟨rfl, hnew, hone⟩
  | woken _ hh => exact hhead hh rfl
  | _ => exact Or.inl ⟨rfl, by simp [Task.settled]⟩

end

/-- Every request arrives once and is answered at most once, after its arrival. -/
structure Single (s : Sys) : Prop where
  arrivesOnce : (arrivals s.log).Nodup
  known : ∀ id, id ∈ arrivals s.log ↔ s.tasks.get? id ≠ none
  repliesOnce : ((replies s.log).map (·.1)).Nodup
  settled : ∀ r ∈ replies s.log, Task.settled (s.tasks.get? r.1)

theorem Single.step {P : Setup} {s s' : Sys} {e : ℕ × Event} (h : Single s)
    (hs : Sys.step P s e = some s') : Single s' := by
  obtain ⟨-, ⟨c, hc⟩ | ⟨id, os, new, hk⟩⟩ := step_cases hs
  · have ha : arrivals [(e.1, Obs.health .check c)] = [] := rfl
    have hr : replies [(e.1, Obs.health .check c)] = [] := rfl
    refine ⟨?_, ?_, ?_, ?_⟩ <;>
      simp only [hc.log, hc.tasks, arrivals_append, replies_append, ha, hr, List.append_nil]
    · exact h.arrivesOnce
    · exact h.known
    · exact h.repliesOnce
    · exact h.settled
  · have ha := hk.trans.arrivals_eq
    have hget : ∀ id', s'.tasks.get? id' = if id' = id then some new else s.tasks.get? id' := by
      intro id'
      rw [hk.tasks]
      split_ifs with hid
      · rw [hid, Table.get?_insert_self]
      · exact Table.get?_insert_ne _ _ hid
    -- an arrival is new, and a reply comes from a request that was not settled
    refine ⟨?_, ?_, ?_, ?_⟩
    · rw [hk.log, arrivals_append, ha]
      split_ifs with hold
      · rw [← List.concat_eq_append, List.nodup_concat]
        exact ⟨fun hmem => (h.known id).1 hmem hold, h.arrivesOnce⟩
      · simpa using h.arrivesOnce
    · intro id'
      rw [hk.log, arrivals_append, ha, hget, List.mem_append, h.known]
      by_cases hid : id' = id
      · subst hid
        by_cases hold : s.tasks.get? id' = none <;> simp [hold]
      · by_cases hold : s.tasks.get? id = none <;> simp [hold, hid]
    · rw [hk.log, replies_append]
      rcases hk.trans.replies_cases with ⟨hnone, -⟩ | ⟨hold, -, status, hone⟩
      · simpa [hnone] using h.repliesOnce
      · rw [hone, List.map_append, List.map_singleton, ← List.concat_eq_append, List.nodup_concat]
        refine ⟨fun hmem => ?_, h.repliesOnce⟩
        obtain ⟨r, hr, hrid⟩ := List.mem_map.1 hmem
        have hset := h.settled r hr
        rw [hrid, hold] at hset
        cases hset
    · intro r hr
      rw [hk.log, replies_append, List.mem_append] at hr
      rw [hget]
      rcases hk.trans.replies_cases with ⟨hnone, hkeep⟩ | ⟨hold, hnew, status, hone⟩
      · rw [hnone] at hr
        have hset := h.settled r (hr.resolve_right (by simp))
        split_ifs with hid
        · exact hkeep (hid ▸ hset)
        · exact hset
      · rw [hone, List.mem_singleton] at hr
        split_ifs with hid
        · exact hnew
        · refine h.settled r (hr.resolve_right fun he => hid ?_)
          rw [he]

theorem Setup.Reachable.single {P : Setup} {s : Sys} (h : P.Reachable s) : Single s :=
  Runs.invariant h ⟨List.nodup_nil, by simp [Setup.initial, arrivals, Table.empty], List.nodup_nil,
    by simp [Setup.initial, replies]⟩ fun _ _ _ hI _ hs => hI.step hs

theorem Single.arrived {s : Sys} (h : Single s) {r : ℕ × ℕ} (hr : r ∈ replies s.log) :
    r.1 ∈ arrivals s.log := by
  rw [h.known]
  intro hnone
  have hset := h.settled r hr
  rw [hnone] at hset
  cases hset

/-- When all requests have been answered, there are as many replies as requests. -/
theorem Single.length_eq {s : Sys} (h : Single s)
    (hall : ∀ id ∈ arrivals s.log, ∃ status, (id, status) ∈ replies s.log) :
    (replies s.log).length = (arrivals s.log).length := by
  have hperm : ((replies s.log).map (·.1)).Perm (arrivals s.log) := by
    rw [List.perm_ext_iff_of_nodup h.repliesOnce h.arrivesOnce]
    intro id
    constructor
    · intro hid
      obtain ⟨r, hr, rfl⟩ := List.mem_map.1 hid
      exact h.arrived hr
    · intro hid
      obtain ⟨status, hr⟩ := hall id hid
      exact List.mem_map.2 ⟨_, hr, rfl⟩
  simpa using hperm.length_eq

/-- The replies with a status are the requests whose clients received it. -/
theorem Single.count_eq {s : Sys} (h : Single s) (status : ℕ) :
    (replies s.log).countP (·.2 = status) =
      (arrivals s.log).countP fun id => (id, status) ∈ replies s.log := by
  have hperm : (((replies s.log).filter (·.2 = status)).map (·.1)).Perm
      ((arrivals s.log).filter fun id => (id, status) ∈ replies s.log) := by
    rw [List.perm_ext_iff_of_nodup (h.repliesOnce.sublist (List.filter_sublist.map _))
      (h.arrivesOnce.filter _)]
    intro id
    simp only [List.mem_map, List.mem_filter, decide_eq_true_eq]
    constructor
    · rintro ⟨⟨id', status'⟩, ⟨hr, rfl⟩, rfl⟩
      exact ⟨h.arrived hr, hr⟩
    · rintro ⟨-, hr⟩
      exact ⟨(id, status), ⟨hr, rfl⟩, rfl⟩
  have hlen := hperm.length_eq
  rw [List.length_map] at hlen
  rw [List.countP_eq_length_filter, List.countP_eq_length_filter, hlen]

/-! ## The books -/

/-- Two telemetries with the same counters of requests and responses. -/
def SameCounters (T T' : Telemetry) : Prop :=
  T'.requestCount = T.requestCount ∧ T'.responseStatuses = T.responseStatuses

theorem sameCounters_apply {c : Telemetry.Call} (h : c.other) (T : Telemetry) :
    SameCounters T (T.apply c) := by
  cases c <;> first | exact ⟨rfl, rfl⟩ | simp [Telemetry.Call.other] at h

theorem sameCounters_foldl {cs : List Telemetry.Call} (h : ∀ c ∈ cs, c.other) (T : Telemetry) :
    SameCounters T (cs.foldl Telemetry.apply T) := by
  induction cs generalizing T with
  | nil => exact ⟨rfl, rfl⟩
  | cons c cs ih =>
    obtain ⟨hc, hcs⟩ := List.forall_mem_cons.1 h
    obtain ⟨h₁, h₂⟩ := sameCounters_apply hc T
    obtain ⟨h₃, h₄⟩ := ih hcs (T.apply c)
    exact ⟨h₃.trans h₁, h₄.trans h₂⟩

/-- The health manager counts neither requests nor responses. -/
theorem healthCalls_other (m : HealthManager) (now : ℕ) (e : HealthManager.Event) :
    ∀ c ∈ healthCalls m now e, c.other := by
  have htrans : ∀ b tr, ∀ c ∈ m.recordTransition b tr, c.other := by
    intro b tr c hc
    unfold HealthManager.recordTransition at hc
    split_ifs at hc
    · obtain ⟨_, -, rfl⟩ := List.mem_map.1 hc
      rfl
    · simp at hc
  cases e with
  | recordSuccess b =>
    intro c hc
    simp only [healthCalls, HealthManager.recordSuccess] at hc
    split at hc
    · simp at hc
    · exact htrans _ _ c hc
  | recordFailure b =>
    intro c hc
    simp only [healthCalls, HealthManager.recordFailure] at hc
    split at hc
    · simp at hc
    · rcases List.mem_append.1 hc with hc | hc
      · split_ifs at hc
        · obtain rfl := List.mem_singleton.1 hc
          rfl
        · simp at hc
      · exact htrans _ _ c hc
  | healthyBackends r => simp [healthCalls]
  | backendStatuses => simp [healthCalls]

/-- The counters agree with the log.  `due` is the status of a response that has been completed and
    is neither sent nor discarded yet. -/
structure Books (due : Option ℕ) (s : Sys) : Prop where
  requests : s.telemetry.requestCount = (arrivals s.log).length
  total : s.telemetry.responseStatuses.total =
    (replies s.log).length + discards s.log + due.toList.length
  each : ∃ discarded : List ℕ, discarded.length = discards s.log ∧ ∀ status,
    (s.telemetry.responseStatuses.get? status).getD 0 =
      (replies s.log).countP (·.2 = status) + discarded.count status + due.toList.count status

/-- What is due at a point of a handler. -/
def Point.due : Point → Option ℕ
  | .completed _ _ _ response => some response.status
  | _ => none

theorem selectBackend_telemetry (s : Sys) (id : ℕ) (route : RouteConfig) (attempted : List String) :
    (s.selectBackend id route attempted).1.telemetry = s.telemetry := by
  unfold Sys.selectBackend
  rcases s.balancer.selectBackend route (s.candidates route attempted) with ⟨L, _ | b⟩ <;> rfl

/-- One more response with a status. -/
theorem getD_bump (T : Table ℕ ℕ) (key status : ℕ) :
    ((Telemetry.bump T key).get? status).getD 0 = (T.get? status).getD 0 + [key].count status := by
  unfold Telemetry.bump
  by_cases hs : status = key
  · subst hs
    simp
  · rw [Table.get?_insert_ne _ _ hs, List.count_singleton]
    simp [Ne.symm hs]

theorem total_bump (T : Table ℕ ℕ) (key : ℕ) : (Telemetry.bump T key).total = T.total + 1 := by
  have := T.total_insert key ((T.get? key).getD 0 + 1)
  unfold Telemetry.bump
  omega

/-- Effects that count nothing. -/
theorem Books.next {due : Option ℕ} {s s' : Sys} (h : Books due s)
    (hT : SameCounters s.telemetry s'.telemetry) (os : List (ℕ × Obs)) (hlog : s'.log = s.log ++ os)
    (ha : arrivals os = []) (hr : replies os = []) (hd : discards os = 0) : Books due s' := by
  obtain ⟨hreq, hstat⟩ := hT
  refine ⟨?_, ?_, ?_⟩ <;>
    simp only [hreq, hstat, hlog, arrivals_append, replies_append, discards_append, ha, hr, hd,
      List.append_nil, Nat.add_zero]
  · exact h.requests
  · exact h.total
  · exact h.each

/-- **The books** are kept by all handlers. -/
theorem books_outline (P : Setup) : Outline P fun p s => Books p.due s where
  clock s t _ h := h.next ⟨rfl, rfl⟩ [] (by simp) rfl rfl rfl
  permits p s n h := h.next ⟨rfl, rfl⟩ [] (by simp) rfl rfl rfl
  check s c h := h.next (sameCounters_foldl (healthCalls_other _ _ _) _) [_] rfl rfl rfl rfl
  arrive s id request _ _ h := by
    obtain ⟨n, hn⟩ := requestId_fst ((s.emit (.arrived id request)).record .request) request
    have ha : arrivals [(s.now, Obs.arrived id request)] = [id] := rfl
    have hr : replies [(s.now, Obs.arrived id request)] = [] := rfl
    have hd : discards [(s.now, Obs.arrived id request)] = 0 := rfl
    rw [hn]
    refine ⟨?_, ?_, ?_⟩
    · show s.telemetry.requestCount + 1 = (arrivals (s.log ++ [(s.now, .arrived id request)])).length
      rw [arrivals_append, ha, List.length_append, h.requests]
      rfl
    · show s.telemetry.responseStatuses.total =
        (replies (s.log ++ [(s.now, .arrived id request)])).length +
          discards (s.log ++ [(s.now, .arrived id request)]) + 0
      rw [replies_append, hr, discards_append, hd, List.append_nil]
      exact h.total
    · obtain ⟨discarded, hlen, heach⟩ := h.each
      refine ⟨discarded, ?_, fun status => ?_⟩
      · show _ = discards (s.log ++ [(s.now, .arrived id request)])
        rw [discards_append, hd]
        exact hlen
      · show _ = (replies (s.log ++ [(s.now, .arrived id request)])).countP _ + _ + _
        rw [replies_append, hr, List.append_nil]
        exact heach status
  resume s id task job _ _ h := h
  record s id request rid c hc h :=
    h.next (sameCounters_apply hc _) [] (by simp [Sys.record]) rfl rfl rfl
  health s id request rid c h :=
    h.next (sameCounters_foldl (healthCalls_other _ _ _) _) [_] rfl rfl rfl rfl
  select s id request rid route attempted _ _ h := by
    have hT : SameCounters s.telemetry (s.selectBackend id route attempted).1.telemetry := by
      rw [selectBackend_telemetry]
      exact ⟨rfl, rfl⟩
    rcases selectBackend_cases s id route attempted with ⟨s', he, -, heff⟩ | ⟨s', b, he, -, heff⟩ <;>
      rw [he] at hT ⊢
    · exact h.next hT _ heff.log rfl rfl rfl
    · exact h.next hT _ heff.log rfl rfl rfl
  attempt s id job b d elapsed h := h.next ⟨rfl, rfl⟩ [_] rfl rfl rfl rfl
  complete s id request rid response h := by
    obtain ⟨discarded, hlen, heach⟩ := h.each
    refine ⟨h.requests, ?_, discarded, hlen, fun status => ?_⟩
    · exact (total_bump _ response.status).trans (congrArg (· + 1) h.total)
    · exact (getD_bump _ response.status status).trans (congrArg (· + _) (heach status))
  respond s id request rid response h := by
    have ha : arrivals [(s.now, Obs.responded id response)] = [] := rfl
    have hr : replies [(s.now, Obs.responded id response)] = [(id, response.status)] := rfl
    have hd : discards [(s.now, Obs.responded id response)] = 0 := rfl
    obtain ⟨discarded, hlen, heach⟩ := h.each
    refine ⟨?_, ?_, discarded, ?_, fun status => ?_⟩ <;>
      simp only [Sys.emit, arrivals_append, replies_append, discards_append, ha, hr, hd,
        List.append_nil, Nat.add_zero]
    · exact h.requests
    · have := h.total
      simp [Point.due] at this ⊢
      omega
    · exact hlen
    · have := heach status
      simp [Point.due, List.count_singleton, List.countP_append] at this ⊢
      omega
  pause s id request rid response n length left h := by
    have ha : arrivals [(s.now, Obs.pause id n length left)] = [] := rfl
    have hr : replies [(s.now, Obs.pause id n length left)] = [] := rfl
    have hd : discards [(s.now, Obs.pause id n length left)] = 1 := rfl
    obtain ⟨discarded, hlen, heach⟩ := h.each
    refine ⟨?_, ?_, response.status :: discarded, ?_, fun status => ?_⟩ <;>
      simp only [Sys.emit, arrivals_append, replies_append, discards_append, ha, hr, hd,
        List.append_nil]
    · exact h.requests
    · have := h.total
      simp [Point.due] at this ⊢
      omega
    · simp [hlen]
    · have := heach status
      simp [Point.due, List.count_cons] at this ⊢
      omega
  setTask s id request rid task _ h := h.next ⟨rfl, rfl⟩ [] (by simp [Sys.setTask]) rfl rfl rfl

theorem Setup.Reachable.books {P : Setup} {s : Sys} (h : P.Reachable s) : Books none s :=
  (books_outline P).reachable ⟨rfl, rfl, [], rfl, fun _ => rfl⟩ h

/-- The sum of the rendered counters. -/
theorem sum_sorted (T : Table ℕ ℕ) : ((Telemetry.sorted T).map (·.2)).sum = T.total := by
  unfold Telemetry.sorted Table.total
  exact ((List.perm_insertionSort _ _).map _).sum_nat

/-- The counters of responses that `render_prometheus` writes add up to the counter of requests, and
    the counter of each status is the number of requests whose client received this status. -/
def CountsReplies (s : Sys) : Prop :=
  ((Telemetry.sorted s.telemetry.responseStatuses).map (·.2)).sum = s.telemetry.requestCount ∧
  ∀ status, (s.telemetry.responseStatuses.get? status).getD 0 =
    (arrivals s.log).countP fun id => (id, status) ∈ replies s.log

/-- **Responses are counted once iff none is discarded.**  In every reachable state in which all
    requests that arrived have been answered, the counters tell what the clients received iff the
    retry loop has discarded no response. -/
theorem countsReplies_iff {P : Setup} {s : Sys} (h : P.Reachable s)
    (hall : ∀ id ∈ arrivals s.log, ∃ status, (id, status) ∈ replies s.log) :
    CountsReplies s ↔ discards s.log = 0 := by
  have hsingle := h.single
  have hbooks := h.books
  have hlen := hsingle.length_eq hall
  have htotal : s.telemetry.responseStatuses.total =
      (replies s.log).length + discards s.log := hbooks.total
  unfold CountsReplies
  rw [sum_sorted, hbooks.requests, htotal]
  constructor
  · rintro ⟨hsum, -⟩
    omega
  · intro hnone
    refine ⟨by omega, fun status => ?_⟩
    obtain ⟨discarded, hd, heach⟩ := hbooks.each
    obtain rfl : discarded = [] := List.length_eq_zero_iff.1 (hd.trans hnone)
    rw [heach status, ← hsingle.count_eq status]
    simp

/-- Two `GET`s, one answered 200 and the other 503 without a retry. -/
theorem two_gets_counted_once :
    let P := small ["http://127.0.0.1:3001"] 3 1 1
    ∃ s, exec (step P) P.initial [(1, .arrive 1 (smallRequest .get)),
        (2, .arrive 2 (smallRequest .get)), (3, .resolved 2 (.response 200 [])),
        (4, .resolved 1 (.response 503 []))] = some s ∧
      arrivals s.log = [1, 2] ∧ CountsReplies s := by
  intro P
  obtain ⟨s, hs, hp⟩ := exists_of_exec_any (step P) P.initial
    [(1, .arrive 1 (smallRequest .get)), (2, .arrive 2 (smallRequest .get)),
      (3, .resolved 2 (.response 200 [])), (4, .resolved 1 (.response 503 []))]
    (fun s => arrivals s.log = [1, 2] ∧ replies s.log = [(2, 200), (1, 503)] ∧ discards s.log = 0)
    (by decide +kernel)
  obtain ⟨ha, hr, hd⟩ := of_decide_eq_true hp
  refine ⟨s, hs, ha, (countsReplies_iff (P.reachable_of_exec hs) ?_).2 hd⟩
  rw [ha, hr]
  simp

/-- A `GET` whose first backend answers 503 and whose second one answers 200: one request, two
    responses in the counters. -/
theorem retried_get_counted_twice :
    let P := small ["http://127.0.0.1:3001", "http://127.0.0.1:3002"] 3 2 1
    ∃ s, exec (step P) P.initial [(1, .arrive 1 (smallRequest .get)), (2, .body 1 none),
        (3, .resolved 1 (.response 503 [])), (50000003, .wake 1),
        (50000004, .resolved 1 (.response 200 []))] = some s ∧
      arrivals s.log = [1] ∧ replies s.log = [(1, 200)] ∧ ¬ CountsReplies s := by
  intro P
  obtain ⟨s, hs, hp⟩ := exists_of_exec_any (step P) P.initial
    [(1, .arrive 1 (smallRequest .get)), (2, .body 1 none), (3, .resolved 1 (.response 503 [])),
      (50000003, .wake 1), (50000004, .resolved 1 (.response 200 []))]
    (fun s => arrivals s.log = [1] ∧ replies s.log = [(1, 200)] ∧
      (s.telemetry.responseStatuses.get? 503).getD 0 = 1)
    (by decide +kernel)
  obtain ⟨ha, hr, hcount⟩ := of_decide_eq_true hp
  refine ⟨s, hs, ha, hr, ?_⟩
  rintro ⟨-, heach⟩
  have h503 := heach 503
  rw [hcount, ha, hr] at h503
  simp at h503

end FerrumProxy
