/-
  Failing requests and the counter of consecutive failures.

  A request can call the health manager twice for one backend: when the head of
  the response arrives, and again when the body breaks.  Only the first of these
  calls can be a success (`Calls`), and it resets the counter.  So a backend whose
  responses break late is ejected only when failures of another kind come together
  in a streak.
-/
import FerrumProxy.Attempts
import FerrumProxy.Reports

namespace FerrumProxy

open Lib Sys

/-! ## The calls of one request -/

theorem callsOf_mute {os : List (ℕ × Obs)} (h : ∀ o ∈ os, o.2.mute) (b : String) :
    callsOf b os = [] := by
  rw [callsOf, outcomesOf_mute h]
  rfl

/-- The backend that a request is attempting or that is answering it. -/
def Task.backend? : Task → Option String
  | .forwarding _ b _ => some b
  | .responding _ b _ => some b
  | _ => none

/-- Of the calls of a request for one backend, only the first can be a success. -/
structure Calls (task : Task) (log : List (ℕ × Obs)) : Prop where
  tails : ∀ b, ∀ v ∈ (callsOf b log).tail, v = true
  fresh : ∀ b, b ∉ attemptsOf log → callsOf b log = []
  attempted : ∀ b, task.backend? = some b → b ∈ attemptsOf log
  /-- nothing has been recorded about a backend that is being attempted -/
  current : ∀ job b d, task = .forwarding job b d → callsOf b log = []

section
variable {P : Setup} {m : HealthManager} {t id t₀ : ℕ} {req : Request} {e : Event} {old new : Task}
  {log os : List (ℕ × Obs)} {job : Job} {b : String}

/-- Entries that record nothing. -/
theorem Calls.mute (h : Calls old log) (hm : ∀ o ∈ os, o.2.mute)
    (ha : ∀ b, new.backend? = some b → b ∈ attemptsOf (log ++ os))
    (hc : ∀ job b d, new = .forwarding job b d → callsOf b log = []) : Calls new (log ++ os) where
  tails b := by simpa [callsOf_mute hm] using h.tails b
  fresh b hb := by
    rw [callsOf_append, callsOf_mute hm, List.append_nil]
    exact h.fresh b fun ha => hb (by simp [ha])
  attempted := ha
  current job b d hn := by
    rw [callsOf_append, callsOf_mute hm, List.append_nil]
    exact hc job b d hn

/-- A call for the backend `b`: a first one, or a failure. -/
theorem Calls.call (h : Calls old log) {src : Source} {c : HealthManager.Event}
    (hb : old.backend? = some b) (hcall : c = .recordFailure b ∨
      c = .recordSuccess b ∧ ∃ job d, old = .forwarding job b d)
    (hnew : new = .done ∨ (∃ job attempted n body till, new = .sleeping job attempted n body till) ∨
      ∃ job seen, new = .responding job b seen) :
    Calls new (log ++ [(t, .health src c)]) where
  tails b' := by
    rw [callsOf_append]
    by_cases hbb : b' = b
    · subst hbb
      rcases hcall with rfl | ⟨rfl, job, d, rfl⟩
      · have h1 : callsOf b' [(t, .health src (.recordFailure b'))] = [true] := by
          simp [callsOf, outcomesOf, HealthManager.Event.verdict]
        rw [h1]
        have ht := h.tails b'
        cases hcs : callsOf b' log with
        | nil => simp
        | cons v vs =>
          rw [hcs] at ht
          intro v' hv'
          rcases List.mem_append.1 hv' with hv' | hv'
          · exact ht v' hv'
          · exact List.mem_singleton.1 hv'
      · rw [h.current job b' d rfl]
        simp [callsOf, outcomesOf, HealthManager.Event.verdict]
    · have h0 : callsOf b' [(t, .health src c)] = [] := by
        rcases hcall with rfl | ⟨rfl, -⟩ <;>
          simp [callsOf, outcomesOf, HealthManager.Event.verdict, Ne.symm hbb]
      rw [h0, List.append_nil]
      exact h.tails b'
  fresh b' hb' := by
    have hnb : b' ∉ attemptsOf log := fun ha => hb' (by simp [ha])
    have hbb : b ≠ b' := fun he => hnb (he ▸ h.attempted b hb)
    have h0 : callsOf b' [(t, .health src c)] = [] := by
      rcases hcall with rfl | ⟨rfl, -⟩ <;>
        simp [callsOf, outcomesOf, HealthManager.Event.verdict, hbb]
    rw [callsOf_append, h0, h.fresh b' hnb]
    rfl
  attempted b' hb' := by
    rw [attemptsOf_append]
    rcases hnew with rfl | ⟨_, _, _, _, _, rfl⟩ | ⟨job, seen, rfl⟩
    · simp [Task.backend?] at hb'
    · simp [Task.backend?] at hb'
    · obtain rfl : b = b' := by simpa [Task.backend?] using hb'
      exact List.mem_append_left _ (h.attempted b hb)
  current job b d hn := by
    rcases hnew with rfl | ⟨_, _, _, _, _, rfl⟩ | ⟨_, _, rfl⟩ <;> cases hn

/-- From the head of the retry loop to the next await. -/
theorem Calls.head {attempted : List String} {n : ℕ} {body : Bytes} (h : Calls old log)
    (ha : attemptsOf log = attempted) (hh : Head P m t id job attempted n body os new) :
    Calls new (log ++ os) := by
  cases hh with
  | late _ => exact h.mute (by simp [Obs.mute]) (by simp [Task.backend?]) (by simp)
  | exhausted _ _ =>
    exact h.mute (by simp [Obs.mute, lookEntry]) (by simp [Task.backend?]) (by simp)
  | attempt _ hb =>
    refine h.mute (by simp [Obs.mute, lookEntry]) ?_ ?_
    · rintro b' hb'
      obtain rfl := Option.some.inj hb'
      simp [attemptsOf, lookEntry]
    · rintro job' b' d' ⟨⟩
      exact h.fresh _ (ha ▸ (mem_candidatesAt hb).2)

/-- The arrival records nothing. -/
theorem Trans.calls (ht : Trans P m t id e none os new) : Calls new os := by
  have h₀ : Calls .done [] := ⟨by simp [callsOf, outcomesOf], by simp [callsOf, outcomesOf],
    by simp [Task.backend?], by simp⟩
  cases ht with
  | answered _ hl =>
    refine h₀.mute ?_ (by simp [Task.backend?]) (by simp)
    rcases hl with rfl | rfl <;> simp [Obs.mute]
  | startStream _ _ _ _ =>
    refine h₀.mute (by simp [Obs.mute, lookEntry]) ?_ fun _ _ _ _ => rfl
    rintro b' hb'
    obtain rfl := Option.some.inj hb'
    simp [attemptsOf, lookEntry]
  | _ => exact h₀.mute (by simp [Obs.mute, lookEntry]) (by simp [Task.backend?]) (by simp)

theorem outcome_cases (m : HealthManager) (route : RouteConfig) (b : String)
    (result : Except UpstreamError Response) :
    outcome m route b result = .recordFailure b ∨ outcome m route b result = .recordSuccess b := by
  unfold outcome
  split
  · split_ifs
    · exact Or.inl rfl
    · exact Or.inr rfl
  · exact Or.inl rfl

/-- The outcome of an attempt. -/
theorem Calls.outcome {d : Dispatch} {r : Resolution} (h : Calls (.forwarding job b d) log)
    (hnew : new = .done ∨ (∃ job attempted n body till, new = .sleeping job attempted n body till) ∨
      ∃ job seen, new = .responding job b seen) :
    Calls new (log ++ [outcomeEntry P m t id job b d r]) := by
  refine h.call rfl ?_ hnew
  rcases outcome_cases m job.route b (forwardResult P job b d r) with heq | heq
  · exact Or.inl heq
  · exact Or.inr ⟨heq, job, d, rfl⟩

/-- Every transition after the arrival keeps the invariant. -/
theorem Calls.next (h : Calls old log) (hc : Course P id t₀ req old log)
    (ht : Trans P m t id e (some old) os new) : Calls new (log ++ os) := by
  have hidle : ∀ task os, (∀ o ∈ os, o.2.mute) → task.backend? = none → Calls task (log ++ os) :=
    fun task os hm hb => h.mute hm (by simp [hb]) fun job b d hn => by simp [hn, Task.backend?] at hb
  have hstay : ∀ task, task.backend? = old.backend? →
      (∀ job b d, task = .forwarding job b d → ∃ job d, old = .forwarding job b d) →
      Calls task (log ++ []) := by
    intro task hb hf
    refine h.mute (by simp) (fun b hb' => ?_) fun job b d hn => ?_
    · simpa using h.attempted b (hb ▸ hb')
    · obtain ⟨job', d', rfl⟩ := hf job b d hn
      exact h.current job' b d' rfl
  cases ht with
  | chunk _ => exact hidle _ _ (by simp) rfl
  | bufferFailed _ => exact hidle _ _ (by simp [Obs.mute]) rfl
  | bufferedRetry hh => exact h.head hc.told.2.2 hh
  | bufferedPrebuffer =>
    refine h.mute (by simp [Obs.mute]) ?_ ?_
    · rintro b' hb'
      obtain rfl := Option.some.inj hb'
      simp [attemptsOf]
    · rintro _ _ _ ⟨⟩
      exact h.fresh _ (by simp [hc.told.2.2.1])
  | upload _ | uploadFailed _ | uploadEnded =>
    exact hstay _ rfl (by rintro _ _ _ ⟨⟩; exact ⟨_, _, rfl⟩)
  | @returned job b d r new hnew _ =>
    rw [← List.singleton_append, ← List.append_assoc]
    rcases hnew with rfl | rfl
    · have h' : Calls (.responding job b 0) (log ++ [outcomeEntry P m t id job b d r]) :=
        h.outcome (Or.inr (Or.inr ⟨job, 0, rfl⟩))
      exact h'.mute (by simp [Obs.mute]) (fun b' hb' => by simpa [attemptsOf] using h'.attempted b' hb')
        (by simp)
    · exact (h.outcome (Or.inl rfl)).mute (by simp [Obs.mute]) (by simp [Task.backend?]) (by simp)
  | backoff _ _ _ =>
    rw [← List.singleton_append, ← List.append_assoc]
    exact (h.outcome (Or.inl rfl)).mute (by simp [Obs.mute]) (by simp [Task.backend?]) (by simp)
  | @again job b attempted n body r os new _ _ _ _ hh =>
    have h' : Calls .done (log ++ [outcomeEntry P m t id job b (.retry attempted n body) r] ++
        [(t, .pause id n 0 (P.totalTimeout - (t - job.started)))]) :=
      (h.outcome (Or.inl rfl)).mute (by simp [Obs.mute]) (by simp [Task.backend?]) (by simp)
    have hnext := h'.head (by simpa [attemptsOf, outcomeEntry] using hc.told.2.2.1) hh
    simpa using hnext
  | woken _ hh => exact h.head hc.told.2.2.1 hh
  | download => exact hstay _ rfl (by simp)
  | downloadFailed _ => exact h.call rfl (Or.inl rfl) (Or.inl rfl)
  | downloaded | dropped _ => exact hidle _ _ (by simp) rfl

end

/-- **The calls of a request.** In every story, only the first call for a backend can be a
    success. -/
theorem Story.calls {P : Setup} {id : ℕ} {ok : Option Task → Event → Prop} {task : Task}
    {log : List (ℕ × Obs)} (h : Story P id ok (some task) log) : Calls task log := by
  refine h.rule ?_ ?_
  · intro m t e os new ht
    exact ht.calls
  · intro m t e old log os new hstory hI _ ht
    obtain ⟨t₀, req, hc⟩ := hstory.course
    exact hI.next hc ht

theorem Setup.Reachable.calls_tail {P : Setup} {s : Sys} (h : P.Reachable s) (id : ℕ) (b : String) :
    ∀ v ∈ (callsOf b (entriesOf id s.log)).tail, v = true := by
  have hstory := h.story id
  generalize s.tasks.get? id = old at hstory
  cases old with
  | none => simp [hstory.eq_nil, callsOf, outcomesOf]
  | some task => exact hstory.calls.tails b

/-! ## Requests that fail in turn -/

/-- The reports of a backend are those of `k` requests one after the other, each of which ends with a
    failure. -/
structure FailInTurn (k : ℕ) (ids : List ℕ) (reports : List (Source × Bool)) : Prop where
  count : ids.length = k
  only : reports = ids.flatMap fun id => (reportsOf id reports).map (Source.request id, ·)
  failing : ∀ id ∈ ids, (reportsOf id reports).getLast? = some true

namespace FailInTurn

variable {k c : ℕ} {ids : List ℕ} {reports : List (Source × Bool)}

theorem flatten (h : FailInTurn k ids reports) :
    reports.map (·.2) = (ids.map (reportsOf · reports)).flatten := by
  conv_lhs => rw [h.only]
  rw [List.map_flatMap, List.flatMap_def]
  simp [Function.comp_def]

/-- The failures are a streak if no request but the first can fail late. -/
theorem streak (h : FailInTurn k ids reports)
    (hlate : ∀ id ∈ ids.tail, resets (reportsOf id reports) = false) :
    Streak k c (ids.map (reportsOf · reports)) := by
  refine streak_of_length (by rw [List.length_map, h.count]) ?_ ?_
  · simp only [List.mem_map, forall_exists_index, and_imp, forall_apply_eq_imp_iff₂]
    exact fun id hid => List.mem_of_getLast? (h.failing id hid)
  · rw [← List.map_tail]
    simp only [List.mem_map, forall_exists_index, and_imp, forall_apply_eq_imp_iff₂]
    exact hlate

end FailInTurn

/-- **Late failures.**  From a state in which `b` is healthy, not half-open and without a pending
    ejection, let `k` requests to `b` fail in turn, where `k` is the failure threshold, and let
    nothing else be reported about `b`.  Then `b` is ejected meanwhile iff enough of the failures
    come in a streak, which is broken whenever the head of a response is acceptable, also if its
    body fails later. -/
theorem ejected_iff_streak {P : Setup} (hk : 1 ≤ P.config.healthCheck.failureThreshold)
    (hD : 1 ≤ P.config.healthCheck.ejectionDurationMs) {s s' : Sys} (h : P.Reachable s)
    {es : List (ℕ × Event)} (hes : exec (step P) s es = some s') {b : String} {st : BackendHealth}
    (hst : s.health.backendHealth.get? b = some st) (hh : st.healthy) (hp : st.probing = false)
    (hu : st.ejectedUntil = none) {ids : List ℕ}
    (hfail : FailInTurn P.config.healthCheck.failureThreshold ids (P.reports b s es)) :
    EjectedDuring P s es b ↔
      Streak P.config.healthCheck.failureThreshold st.consecutiveFailures
        (ids.map (reportsOf · (P.reports b s es))) := by
  have hrun := Runs.of_exec .refl hes
  obtain ⟨log, hlog⟩ := log_grows hrun
  have hsame : s.health.failureThreshold = P.config.healthCheck.failureThreshold := by
    rw [h.replays.health]
    exact (HealthManager.run_same _ _).failureThreshold
  have hbelow : st.consecutiveFailures < P.config.healthCheck.failureThreshold := by
    rw [h.replays.health] at hst
    exact P.fresh.below hk hst hh
  have hreports : outcomesOf b log = P.reports b s es := by
    have := outcomesOf_exec h hes b
    rw [hlog, outcomesOf_append] at this
    exact List.append_cancel_left this
  have hcalls : callsOf b log = (ids.map (reportsOf · (P.reports b s es))).flatten := by
    rw [callsOf, hreports, hfail.flatten]
  rw [ejectedDuring_iff hD h hes hst hu hlog, HealthManager.ejections_ne_nil_iff hst hh hp hu,
    hsame, ← callsOf_eq_verdicts, hcalls]
  refine hits_flatten_iff hbelow ?_
  simp only [List.mem_map, forall_exists_index, and_imp, forall_apply_eq_imp_iff₂]
  intro id _ v hv
  rw [← hreports, ← callsOf_entriesOf] at hv
  -- the calls of the request in `log` are the last ones of all its calls
  refine Setup.Reachable.calls_tail (h.trans hrun) id b v ?_
  rw [hlog, entriesOf_append, callsOf_append]
  cases hcs : callsOf b (entriesOf id s.log) with
  | nil => exact hv
  | cons c cs => exact List.mem_append_right _ (List.mem_of_mem_tail hv)

/-- The first response breaks late, the second request is answered with 503: two failures in a row,
    and the backend is ejected. -/
theorem late_failure_then_503 :
    let P := small ["http://127.0.0.1:3001"] 2 1 100
    let es : List (ℕ × Event) := [(1, .arrive 1 (smallRequest .get)),
      (2, .resolved 1 (.response 200 [])), (3, .download 1 (some (.readError "reset"))),
      (4, .arrive 2 (smallRequest .get)), (5, .resolved 2 (.response 503 []))]
    P.reports "http://127.0.0.1:3001" P.initial es =
        [(.request 1, false), (.request 1, true), (.request 2, true)] ∧
      EjectedDuring P P.initial es "http://127.0.0.1:3001" := by
  intro P es
  have hreports : P.reports "http://127.0.0.1:3001" P.initial es =
      [(.request 1, false), (.request 1, true), (.request 2, true)] := by decide +kernel
  have hst : P.initial.health.backendHealth.get? "http://127.0.0.1:3001" =
      some BackendHealth.initial := by decide +kernel
  obtain ⟨s, hs, -⟩ := exists_of_exec_any (step P) P.initial es (fun _ => true) (by decide +kernel)
  have hfail : FailInTurn P.config.healthCheck.failureThreshold [1, 2]
      (P.reports "http://127.0.0.1:3001" P.initial es) := by
    rw [hreports]
    exact ⟨rfl, by decide, by decide⟩
  refine ⟨hreports, (ejected_iff_streak (by decide) (by decide) .refl hs hst rfl rfl rfl hfail).2
    (hfail.streak ?_)⟩
  rw [hreports]
  decide

/-- Two responses in a row break late, under a threshold of two: the acceptable head of the second
    resets the counter, and the backend is never ejected. -/
theorem two_late_failures :
    let P := small ["http://127.0.0.1:3001"] 2 1 100
    let es : List (ℕ × Event) := [(1, .arrive 1 (smallRequest .get)),
      (2, .resolved 1 (.response 200 [])), (3, .download 1 (some (.readError "reset"))),
      (4, .arrive 2 (smallRequest .get)), (5, .resolved 2 (.response 200 [])),
      (6, .download 2 (some (.readError "reset")))]
    P.initial.health.backendHealth.get? "http://127.0.0.1:3001" = some .initial ∧
      FailInTurn 2 [1, 2] (P.reports "http://127.0.0.1:3001" P.initial es) ∧
      (∃ s, exec (step P) P.initial es = some s ∧
        s.health.backendHealth.get? "http://127.0.0.1:3001" = some ⟨true, 1, 0, none, false⟩) ∧
      ¬ EjectedDuring P P.initial es "http://127.0.0.1:3001" := by
  intro P es
  have hreports : P.reports "http://127.0.0.1:3001" P.initial es =
      [(.request 1, false), (.request 1, true), (.request 2, false), (.request 2, true)] := by
    decide +kernel
  have hst : P.initial.health.backendHealth.get? "http://127.0.0.1:3001" = some .initial := by
    decide +kernel
  obtain ⟨s, hs, hp⟩ := exists_of_exec_any (step P) P.initial es
    (fun s => s.health.backendHealth.get? "http://127.0.0.1:3001" =
        some ⟨true, 1, 0, none, false⟩ ∧
      P.initial.health.ejections "http://127.0.0.1:3001" (healthHistory s.log) = [])
    (by decide +kernel)
  obtain ⟨hst', hno⟩ := of_decide_eq_true hp
  refine ⟨hst, ?_, ⟨s, hs, hst'⟩, ?_⟩
  · rw [hreports]
    exact ⟨rfl, by decide, by decide⟩
  · have hlog : s.log = P.initial.log ++ s.log := rfl
    rw [ejectedDuring_iff (by decide) .refl hs hst rfl hlog]
    simpa using hno

end FerrumProxy
