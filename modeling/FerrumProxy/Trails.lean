/-
  The trail of health transitions.

  The health manager reports its transitions to the telemetry, under names for the
  state before and the state after.  `Breaker` says what the names mean: a backend is
  healthy or not, and its breaker is open or closed; each transition has a guard and
  an effect.  In every reachable state the transitions reported for a backend are a
  run of its breaker that ends in the state of the backend, the total counts them all,
  the telemetry keeps the last `MAX_TRANSITIONS` of them, and the failure counters
  count the failures recorded (`Setup.Reachable.trails`).
-/
import FerrumProxy.Frames

namespace FerrumProxy

open Lib Sys

/-! ## The breaker of a backend -/

/-- What the transitions of a backend are about: its flag, and whether its breaker is open, that is,
    an ejection has not been followed by a successful probe. -/
structure Breaker where
  healthy : Bool
  opened : Bool
deriving DecidableEq, Repr

namespace Breaker

/-- A new backend. -/
def initial : Breaker := ⟨true, false⟩

/-- The guard and the effect of a transition. -/
def step (k : Breaker) (tr : Transition) : Option Breaker :=
  if tr = ⟨"healthy", "unhealthy", "failure_threshold"⟩ then
    if k.healthy then some ⟨false, true⟩ else none
  else if tr = ⟨"unhealthy", "healthy", "success_threshold"⟩ then
    if k.healthy then none else some { k with healthy := true }
  else if tr = ⟨"probing", "ejected", "probe_failed"⟩ then
    if k.opened then some k else none
  else if tr = ⟨"probing", "healthy", "probe_succeeded"⟩ then
    if k.opened then some ⟨true, false⟩ else none
  else none

end Breaker

/-- The breaker of a backend in a state of the health manager. -/
def BackendHealth.breaker (st : BackendHealth) : Breaker :=
  ⟨st.healthy, st.ejectedUntil.isSome || st.probing⟩

/-- A look keeps the breaker open. -/
@[simp] theorem BackendHealth.breaker_look (st : BackendHealth) (t : ℕ) :
    (st.look t).breaker = st.breaker := by
  rcases BackendHealth.look_cases t st with he | ⟨till, hu, -, he⟩
  · rw [he]
  · rw [he]
    simp [breaker, hu]

section
variable {D now t : ℕ} {ws : List ℕ} {st : BackendHealth}

/-- What `record_success` reports is what it does to the breaker. -/
theorem Tracks.breaker_recordSuccess (h : Tracks D ws now st) (recovery : ℕ) :
    exec Breaker.step st.breaker (st.recordSuccess recovery).2.toList =
      some (st.recordSuccess recovery).1.breaker := by
  have hhalf := h.halfOpen
  obtain ⟨healthy, failures, successes, till, probing⟩ := st
  cases probing with
  | true =>
    obtain rfl : till = none := hhalf rfl
    simp [BackendHealth.recordSuccess, BackendHealth.breaker, exec, Breaker.step]
  | false =>
    by_cases hr : healthy = false ∧ recovery ≤ successes + 1
    · simp [BackendHealth.recordSuccess, BackendHealth.breaker, exec, Breaker.step, hr]
    · simp [BackendHealth.recordSuccess, BackendHealth.breaker, exec, hr]

/-- What `record_failure` reports is what it does to the breaker. -/
theorem breaker_recordFailure (st : BackendHealth) (threshold : ℕ) :
    exec Breaker.step st.breaker (st.recordFailure threshold D now).2.toList =
      some (st.recordFailure threshold D now).1.breaker := by
  obtain ⟨healthy, failures, successes, till, probing⟩ := st
  cases probing with
  | true =>
    simp [BackendHealth.recordFailure, BackendHealth.breaker, BackendHealth.eject, exec,
      Breaker.step]
  | false =>
    by_cases hr : healthy = true ∧ threshold ≤ failures + 1
    · simp [BackendHealth.recordFailure, BackendHealth.breaker, BackendHealth.eject, exec,
        Breaker.step, hr]
    · simp [BackendHealth.recordFailure, BackendHealth.breaker, exec, hr]

end

/-! ## What the manager reports -/

/-- The transition that a telemetry call reports. -/
def Telemetry.Call.transition? : Telemetry.Call → Option (String × Transition)
  | .healthTransition b tr => some (b, tr)
  | _ => none

/-- The failure that a telemetry call counts. -/
def Telemetry.Call.failure? : Telemetry.Call → Option String
  | .backendFailure b => some b
  | _ => none

namespace HealthManager

/-- The telemetry calls of a history. -/
def reports (m : HealthManager) : History → List Telemetry.Call
  | [] => []
  | e :: h => healthCalls m e.1 e.2 ++ (m.step e).reports h

theorem reports_append (m : HealthManager) (h h' : History) :
    m.reports (h ++ h') = m.reports h ++ (m.run h).reports h' := by
  induction h generalizing m with
  | nil => rfl
  | cons e h ih => rw [List.cons_append, reports, ih, reports, List.append_assoc, run_cons]

/-- The transitions reported in a history. -/
def trail (m : HealthManager) (h : History) : List (String × Transition) :=
  (m.reports h).filterMap Telemetry.Call.transition?

/-- The transitions of one backend. -/
def trailOf (m : HealthManager) (b : String) (h : History) : List Transition :=
  (m.trail h).filterMap fun e => if e.1 = b then some e.2 else none

theorem trailOf_cons (m : HealthManager) (b : String) (e : ℕ × Event) (h : History) :
    m.trailOf b (e :: h) = m.trailOf b [e] ++ (m.step e).trailOf b h := by
  simp [trailOf, trail, reports]

theorem recordTransition_of (m : HealthManager) (hm : m.telemetry = true) (b b' : String)
    (tr : Option Transition) :
    ((m.recordTransition b tr).filterMap Telemetry.Call.transition?).filterMap
      (fun e => if e.1 = b' then some e.2 else none) = if b = b' then tr.toList else [] := by
  cases tr with
  | none => simp [recordTransition, hm]
  | some tr =>
    by_cases hb : b = b' <;> simp [recordTransition, hm, Telemetry.Call.transition?, hb]

/-- One call. -/
theorem trailOf_step {m : HealthManager} (hm : m.telemetry = true) {b : String}
    {st : BackendHealth} {ws : List ℕ} {now : ℕ} {e : ℕ × Event}
    (hst : m.backendHealth.get? b = some st) (h : Tracks m.ejectionDuration ws now st) :
    exec Breaker.step st.breaker (m.trailOf b [e]) = some (m.stepOne b st e).breaker := by
  obtain ⟨t, e⟩ := e
  cases e with
  | recordSuccess b' =>
    by_cases hb : b' = b
    · subst hb
      have hone := m.recordTransition_of hm b' b' (st.recordSuccess m.recoveryThreshold).2
      rw [if_pos rfl] at hone
      simpa [trailOf, trail, reports, healthCalls, recordSuccess, hst, stepOne, hone] using
        h.breaker_recordSuccess m.recoveryThreshold
    · rw [show m.stepOne b st (t, .recordSuccess b') = st from if_neg (Ne.symm hb)]
      simp only [trailOf, trail, reports, healthCalls, recordSuccess, List.append_nil]
      split
      · rfl
      · rw [recordTransition_of m hm, if_neg hb]
        rfl
  | recordFailure b' =>
    by_cases hb : b' = b
    · subst hb
      have hone := m.recordTransition_of hm b' b'
        (st.recordFailure m.failureThreshold m.ejectionDuration t).2
      rw [if_pos rfl] at hone
      simpa [trailOf, trail, reports, healthCalls, recordFailure, hst, hm, stepOne, hone,
        Telemetry.Call.transition?, List.filterMap_cons] using
        breaker_recordFailure st m.failureThreshold
    · rw [show m.stepOne b st (t, .recordFailure b') = st from if_neg (Ne.symm hb)]
      simp only [trailOf, trail, reports, healthCalls, recordFailure, List.append_nil]
      split
      · rfl
      · simp only [hm, if_true, List.filterMap_append, recordTransition_of m hm, if_neg hb]
        rfl
  | healthyBackends r =>
    simp only [trailOf, trail, reports, healthCalls, stepOne]
    split_ifs <;> simp [exec]
  | backendStatuses => simp [trailOf, trail, reports, healthCalls, stepOne, exec]

/-- **A trail is a run of the breaker.** -/
theorem trailOf_run {m : HealthManager} (hm : m.telemetry = true) {b : String}
    {st : BackendHealth} {ws : List ℕ} {now : ℕ} {h : History}
    (hst : m.backendHealth.get? b = some st) (hT : Tracks m.ejectionDuration ws now st)
    (hc : Chronological h) (hn : ∀ e ∈ h, now ≤ e.1) :
    exec Breaker.step st.breaker (m.trailOf b h) = some (m.runOne b st h).breaker := by
  induction h generalizing m st ws now with
  | nil => rfl
  | cons e h ih =>
    obtain ⟨hc₁, hc₂⟩ := List.pairwise_cons.1 hc
    have hsame := m.step_same e
    have hst' : (m.step e).backendHealth.get? b = some (m.stepOne b st e) := by
      rw [get?_step, hst, Option.map_some]
    have hT' := tracks_stepOne hst hT (hn e (List.mem_cons_self ..))
    rw [← hsame.ejectionDuration] at hT'
    have hm' : (m.step e).telemetry = true := by
      rw [hsame]
      exact hm
    rw [trailOf_cons, exec_append, trailOf_step hm hst hT, Option.bind_some, ih hm' hst' hT' hc₂ hc₁,
      hsame.runOne]
    rfl

/-- The failures of `b` in a history are counted one by one. -/
theorem failures_run {m : HealthManager} (hm : m.telemetry = true) {b : String}
    (hb : (m.backendHealth.get? b).isSome) (h : History) :
    (m.reports h).countP (·.failure? = some b) = h.countP (·.2 = .recordFailure b) := by
  induction h generalizing m with
  | nil => rfl
  | cons e h ih =>
    have hm' : (m.step e).telemetry = true := by
      rw [m.step_same e]
      exact hm
    have hb' : ((m.step e).backendHealth.get? b).isSome := by simpa [get?_step] using hb
    rw [reports, List.countP_append, ih hm' hb', List.countP_cons, Nat.add_comm]
    congr 1
    obtain ⟨t, e⟩ := e
    have hnone : ∀ b' tr, (m.recordTransition b' tr).countP (·.failure? = some b) = 0 := by
      intro b' tr
      cases tr <;> simp [recordTransition, hm, Telemetry.Call.failure?]
    cases e with
    | recordSuccess b' =>
      simp only [healthCalls, recordSuccess]
      split
      · rfl
      · rw [hnone]
        rfl
    | recordFailure b' =>
      simp only [healthCalls, recordFailure]
      split
      · rename_i hnot
        have hne : b' ≠ b := by
          rintro rfl
          simp [hnot] at hb
        simp [hne]
      · simp only [hm, if_true, List.countP_append, hnone, Nat.add_zero, List.countP_singleton]
        simp [Telemetry.Call.failure?]
    | healthyBackends r => rfl
    | backendStatuses => rfl

end HealthManager

/-! ## The health part of the telemetry -/

/-- A call that says nothing about the backends. -/
def Telemetry.Call.silent : Telemetry.Call → Bool
  | .backendFailure _ | .healthTransition _ _ => false
  | _ => true

theorem Telemetry.Call.ofHandler.silent {c : Telemetry.Call} (h : c.ofHandler) : c.silent := by
  cases c <;> first | rfl | cases h

/-- What the telemetry `T` says about the backends follows from the calls `cs`, from `T₀` on. -/
structure Telemetry.Told (T₀ : Telemetry) (cs : List Telemetry.Call) (T : Telemetry) : Prop where
  total : T.healthTransitionsTotal = (cs.filterMap (·.transition?)).length
  kept : T.healthTransitions = (cs.filterMap (·.transition?)).drop
    ((cs.filterMap (·.transition?)).length - maxTransitions)
  failures : ∀ b, T.backendFailures.get? b =
    (T₀.backendFailures.get? b).map (· + cs.countP (·.failure? = some b))

/-- Keeping the last entries of a growing list, one by one. -/
theorem drop_concat_last {α : Type} (l : List α) (x : α) {n : ℕ} (hn : 0 < n) :
    (l ++ [x]).drop ((l ++ [x]).length - n) =
      (if n ≤ (l.drop (l.length - n)).length then (l.drop (l.length - n)).tail
        else l.drop (l.length - n)) ++ [x] := by
  have hlen : (l.drop (l.length - n)).length = min n l.length := by
    rw [List.length_drop]
    omega
  rw [hlen, List.length_append, List.length_singleton]
  split_ifs with h
  · rw [List.tail_drop, List.drop_append_of_le_length (by omega)]
    congr 2
    omega
  · rw [List.drop_append_of_le_length (by omega)]
    congr 2
    omega

namespace Telemetry.Told

variable {T₀ T : Telemetry} {cs : List Telemetry.Call}

theorem silent (h : Told T₀ cs T) {c : Telemetry.Call} (hc : c.silent) :
    Told T₀ cs (T.apply c) := by
  cases c with
  | backendFailure | healthTransition => cases hc
  | _ => exact ⟨h.total, h.kept, h.failures⟩

theorem mute (h : Told T₀ cs T) {c : Telemetry.Call} (hc : c.silent) : Told T₀ (cs ++ [c]) T := by
  have htr : [c].filterMap (·.transition?) = [] := by
    cases c <;> first | rfl | cases hc
  have hfail : ∀ b, [c].countP (·.failure? = some b) = 0 := by
    intro b
    cases c <;> first | rfl | cases hc
  refine ⟨?_, ?_, fun b => ?_⟩
  · rw [List.filterMap_append, htr, List.append_nil]
    exact h.total
  · rw [List.filterMap_append, htr, List.append_nil]
    exact h.kept
  · rw [List.countP_append, hfail, Nat.add_zero]
    exact h.failures b

theorem apply (h : Told T₀ cs T) (c : Telemetry.Call) : Told T₀ (cs ++ [c]) (T.apply c) := by
  cases c with
  | healthTransition b tr =>
    refine ⟨?_, ?_, fun b' => ?_⟩
    · simp [Telemetry.apply, recordHealthTransition, h.total, Call.transition?]
    · rw [List.filterMap_append, show [Call.healthTransition b tr].filterMap (·.transition?) =
        [(b, tr)] from rfl, drop_concat_last _ _ (by decide), ← h.kept]
      rfl
    · simpa [Telemetry.apply, recordHealthTransition, Call.failure?] using h.failures b'
  | backendFailure b =>
    refine ⟨?_, ?_, fun b' => ?_⟩
    · simp [Telemetry.apply, recordBackendFailure, h.total, Call.transition?]
    · simpa [Telemetry.apply, recordBackendFailure, Call.transition?] using h.kept
    · simp only [Telemetry.apply, recordBackendFailure, Table.get?_modify, h.failures]
      rw [List.countP_append, List.countP_singleton]
      by_cases hb : b' = b
      · subst hb
        cases T₀.backendFailures.get? b' <;> simp [Call.failure?, Nat.add_assoc]
      · simp [Call.failure?, hb, Ne.symm hb]
  | _ => exact (h.silent rfl).mute rfl

theorem foldl (h : Told T₀ cs T) (cs' : List Telemetry.Call) :
    Told T₀ (cs ++ cs') (cs'.foldl Telemetry.apply T) := by
  induction cs' generalizing cs T with
  | nil => simpa using h
  | cons c cs' ih => simpa using ih (h.apply c)

end Telemetry.Told

/-- The telemetry and the health state follow from the calls of the health manager in the log. -/
def Reported (P : Setup) (s : Sys) : Prop :=
  s.health = P.initial.health.run (healthHistory s.log) ∧
    Telemetry.Told P.initial.telemetry (P.initial.health.reports (healthHistory s.log)) s.telemetry

theorem reported_frame (P : Setup) : Frame (fun _ => True) (Reported P) where
  env _ _ _ _ _ _ hs := hs
  emit s o ho _ hs := by
    have hlog : healthHistory (s.emit o).log = healthHistory s.log := by
      rw [Sys.emit, healthHistory_append, healthHistory_plain ho, healthHistory_nil, List.append_nil]
    rw [Reported, hlog]
    exact hs
  record _ _ hc hs := ⟨hs.1, hs.2.silent (Telemetry.Call.ofHandler.silent hc)⟩
  callHealth s source c _ hs := by
    have hlog : healthHistory (s.callHealth source c).log = healthHistory s.log ++ [(s.now, c)] :=
      healthHistory_append ..
    rw [Reported, hlog, HealthManager.run_append, HealthManager.reports_append, ← hs.1]
    rw [show s.health.reports [(s.now, c)] = healthCalls s.health s.now c from List.append_nil _]
    exact ⟨rfl, hs.2.foldl (healthCalls s.health s.now c)⟩

theorem Setup.Reachable.reported {P : Setup} {s : Sys} (h : P.Reachable s) : Reported P s := by
  refine (reported_frame P).reachable ⟨rfl, rfl, rfl, fun b => ?_⟩ h
  cases P.initial.telemetry.backendFailures.get? b <;> rfl

/-- The backends with a failure counter are those of the routes. -/
theorem initial_backendFailures (P : Setup) (b : String) :
    P.initial.telemetry.backendFailures.get? b =
      if ∃ r ∈ P.config.routes, b ∈ r.backends then some 0 else none := by
  simp [Setup.initial, Telemetry.new, Table.get?_ofKeys]

/-- A failure counter is the number of failures recorded. -/
theorem Setup.Reachable.backendFailures {P : Setup} {s : Sys} (h : P.Reachable s) (b : String) :
    s.telemetry.backendFailures.get? b =
      if ∃ r ∈ P.config.routes, b ∈ r.backends then
        some ((healthHistory s.log).countP (·.2 = .recordFailure b)) else none := by
  obtain ⟨-, htold⟩ := h.reported
  rw [htold.failures b, initial_backendFailures]
  split_ifs with hb
  · have hknown : (P.initial.health.backendHealth.get? b).isSome := (P.fresh.isSome_iff [] b).2 hb
    rw [Option.map_some, Nat.zero_add, HealthManager.failures_run rfl hknown]
  · rfl

/-- **Trails.** In every reachable state the telemetry counts every transition reported so far and
    keeps the last `MAX_TRANSITIONS`; the transitions reported for a backend are a run of its
    breaker, from a new backend to its present state; and its failure counter is the number of
    failures recorded for it.  The calls of the health manager are taken as a whole here, one
    after the other. -/
theorem trails_exact (P : Setup) {s : Sys} (h : P.Reachable s) :
    s.telemetry.healthTransitionsTotal = (P.initial.health.trail (healthHistory s.log)).length ∧
    s.telemetry.healthTransitions = (P.initial.health.trail (healthHistory s.log)).drop
      (s.telemetry.healthTransitionsTotal - maxTransitions) ∧
    ∀ r ∈ P.config.routes, ∀ b ∈ r.backends,
      s.telemetry.backendFailures.get? b =
        some ((healthHistory s.log).countP (·.2 = .recordFailure b)) ∧
      ∃ st, s.health.backendHealth.get? b = some st ∧
        exec Breaker.step .initial (P.initial.health.trailOf b (healthHistory s.log)) =
          some st.breaker := by
  obtain ⟨hhealth, htold⟩ := h.reported
  have hreplays := h.replays
  refine ⟨htold.total, htold.total ▸ htold.kept, fun r hr b hb => ⟨?_, ?_⟩⟩
  · rw [h.backendFailures b, if_pos ⟨r, hr, hb⟩]
  · have hst : P.initial.health.backendHealth.get? b = some .initial := by
      have hmem : b ∈ P.config.routes.flatMap (·.backends) := List.mem_flatMap.2 ⟨r, hr, hb⟩
      simp [Setup.initial, HealthManager.withTelemetry, Table.get?_ofKeys, hmem]
    refine ⟨_, by rw [hhealth, HealthManager.get?_run, hst, Option.map_some], ?_⟩
    exact HealthManager.trailOf_run rfl hst (.initial _ 0)
      (chronological_healthHistory hreplays.ordered) fun _ _ => Nat.zero_le _

/-- A backend that fails one check under a threshold of one and then passes two. -/
theorem trails_exact_three_checks :
    let P := small ["http://127.0.0.1:3001"] 1 1 1
    ∃ s, P.Reachable s ∧ s.telemetry.healthTransitionsTotal = 2 ∧
      s.telemetry.backendFailures.get? "http://127.0.0.1:3001" = some 1 ∧
      ∃ st, s.health.backendHealth.get? "http://127.0.0.1:3001" = some st ∧
        st.breaker = ⟨true, true⟩ := by
  intro P
  obtain ⟨s, hs, hp⟩ := exists_of_exec_any (Sys.step P) P.initial
    [(0, .checked "http://127.0.0.1:3001" 500), (1, .checked "http://127.0.0.1:3001" 200),
      (2, .checked "http://127.0.0.1:3001" 200)]
    (fun s => decide (healthHistory s.log = [(0, .recordFailure "http://127.0.0.1:3001"),
      (1, .recordSuccess "http://127.0.0.1:3001"), (2, .recordSuccess "http://127.0.0.1:3001")]))
    (by decide +kernel)
  have hlog := of_decide_eq_true hp
  have hr : P.Reachable s := P.reachable_of_exec hs
  obtain ⟨htotal, -, hbackends⟩ := trails_exact P hr
  obtain ⟨hcount, st, hst, hrun⟩ := hbackends _ (List.mem_singleton_self _) _
    (List.mem_singleton_self "http://127.0.0.1:3001")
  rw [hlog] at htotal hcount hrun
  refine ⟨s, hr, htotal.trans (by decide +kernel), hcount, st, hst, ?_⟩
  have hend : exec Breaker.step .initial (P.initial.health.trailOf "http://127.0.0.1:3001"
      [(0, .recordFailure "http://127.0.0.1:3001"), (1, .recordSuccess "http://127.0.0.1:3001"),
        (2, .recordSuccess "http://127.0.0.1:3001")]) = some ⟨true, true⟩ := by decide +kernel
  exact Option.some.inj (hrun.symm.trans hend)

end FerrumProxy
