/-
  The evidence on which the health manager ejects a backend and takes it back.

  The outcomes recorded for a backend are its verdicts.  `Fresh.rule` is the
  induction over histories for one backend: a relation between its verdicts and
  its state that looks, successes and failures keep holds in every state.  By it
  the counter of failures never exceeds the failures at the end of the verdicts,
  and while the backend is unhealthy the counter of successes is the number of
  successes at their end.
-/
import FerrumProxy.Eligibility
import FerrumProxy.Lib.Streaks
import Mathlib.Data.List.DropRight
import Mathlib.Data.List.Induction

namespace FerrumProxy

open Lib

namespace HealthManager

/-! ## Verdicts -/

/-- What a call says about `b`: `true` is a failure. -/
def Event.verdict (b : String) : Event → Option Bool
  | recordSuccess b' => if b' = b then some false else none
  | recordFailure b' => if b' = b then some true else none
  | _ => none

/-- What a history says about `b`. -/
def verdicts (b : String) (h : History) : List Bool := h.filterMap (·.2.verdict b)

theorem verdicts_append (b : String) (h h' : History) :
    verdicts b (h ++ h') = verdicts b h ++ verdicts b h' := List.filterMap_append ..

theorem verdicts_cons (b : String) (e : ℕ × Event) (h : History) :
    verdicts b (e :: h) = (e.2.verdict b).toList ++ verdicts b h := by
  unfold verdicts
  rw [List.filterMap_cons]
  cases e.2.verdict b <;> rfl

theorem verdicts_concat (b : String) (h : History) (e : ℕ × Event) :
    verdicts b (h ++ [e]) = verdicts b h ++ (e.2.verdict b).toList := by
  rw [verdicts_append, verdicts_cons]
  simp [verdicts]

theorem Event.verdict_eq_false {b : String} {e : Event} (h : e.verdict b = some false) :
    e = .recordSuccess b := by
  cases e <;> simp_all [Event.verdict]

theorem Event.verdict_eq_true {b : String} {e : Event} (h : e.verdict b = some true) :
    e = .recordFailure b := by
  cases e <;> simp_all [Event.verdict]

/-- A call without a verdict on `b` is at most a look at it. -/
theorem stepOne_of_none {m : HealthManager} {b : String} {e : ℕ × Event}
    (h : e.2.verdict b = none) (st : BackendHealth) :
    m.stepOne b st e = st ∨ m.stepOne b st e = st.look e.1 := by
  obtain ⟨t, e⟩ := e
  cases e with
  | recordSuccess b' =>
    have hb : b' ≠ b := by simpa [Event.verdict] using h
    exact Or.inl (if_neg hb.symm)
  | recordFailure b' =>
    have hb : b' ≠ b := by simpa [Event.verdict] using h
    exact Or.inl (if_neg hb.symm)
  | healthyBackends r =>
    by_cases hb : b ∈ r.backends
    · exact Or.inr (if_pos hb)
    · exact Or.inl (if_neg hb)
  | backendStatuses => exact Or.inr rfl

/-! ## Induction over histories -/

section
variable {m : HealthManager} {routes : List RouteConfig} (hm : m.Fresh routes)
include hm

/-- **Induction for one backend.** What holds of a new backend and is kept by looks and by recorded
    outcomes relates the verdicts and the state of every backend after every history. -/
theorem Fresh.rule {I : List Bool → BackendHealth → Prop} (h₀ : I [] .initial)
    (hlook : ∀ vs st t, I vs st → I vs (st.look t))
    (hsuccess : ∀ vs st, I vs st → I (vs ++ [false]) (st.recordSuccess m.recoveryThreshold).1)
    (hfailure : ∀ vs st t, I vs st →
      I (vs ++ [true]) (st.recordFailure m.failureThreshold m.ejectionDuration t).1)
    {h : History} {b : String} {st : BackendHealth}
    (hst : (m.run h).backendHealth.get? b = some st) : I (verdicts b h) st := by
  induction h using List.reverseRecOn generalizing st with
  | nil =>
    rw [run_nil, hm, Table.get?_ofKeys] at hst
    split_ifs at hst
    obtain rfl := Option.some.inj hst
    exact h₀
  | append_singleton h e ih =>
    rw [run_append, run_cons, run_nil, get?_step] at hst
    obtain ⟨old, hold, rfl⟩ := Option.map_eq_some_iff.1 hst
    have ih := ih hold
    rw [(m.run_same h).stepOne, verdicts_concat]
    cases hv : e.2.verdict b with
    | none =>
      rw [Option.toList_none, List.append_nil]
      rcases stepOne_of_none (m := m) hv old with heq | heq <;> rw [heq]
      · exact ih
      · exact hlook _ _ _ ih
    | some v =>
      obtain ⟨t, e⟩ := e
      cases v with
      | false =>
        obtain rfl := Event.verdict_eq_false hv
        simpa [stepOne] using hsuccess _ _ ih
      | true =>
        obtain rfl := Event.verdict_eq_true hv
        simpa [stepOne] using hfailure _ _ t ih

/-- The counter of a healthy backend is below the threshold. -/
theorem Fresh.below (hk : 1 ≤ m.failureThreshold) {h : History} {b : String} {st : BackendHealth}
    (hst : (m.run h).backendHealth.get? b = some st) (hh : st.healthy) :
    st.consecutiveFailures < m.failureThreshold := by
  refine hm.rule (I := fun _ st => st.healthy → st.consecutiveFailures < m.failureThreshold)
    (fun _ => hk) ?_ ?_ ?_ hst hh
  · intro _ st t h
    rcases st.look_cases t with heq | ⟨_, -, -, heq⟩ <;> rw [heq] <;> exact h
  · intro _ st h _
    rcases st.recordSuccess_cases m.recoveryThreshold with ⟨-, heq⟩ | ⟨-, -, heq⟩ <;> rw [heq] <;>
      exact hk
  · intro _ st t h
    rcases st.recordFailure_cases m.failureThreshold m.ejectionDuration t with
      ⟨-, -, heq⟩ | ⟨-, -, -, -, heq⟩ | ⟨-, -, hlt, heq⟩
    · rw [heq]; exact h
    · rw [heq]; simp
    · rw [heq]
      exact fun hh => hlt.resolve_left (by simpa using hh)

/-- The counter of failures never exceeds the failures at the end of the verdicts. -/
theorem Fresh.failures_suffix {h : History} {b : String} {st : BackendHealth}
    (hst : (m.run h).backendHealth.get? b = some st) :
    List.replicate st.consecutiveFailures true <:+ verdicts b h := by
  refine hm.rule (I := fun vs st => List.replicate st.consecutiveFailures true <:+ vs)
    (List.nil_suffix) ?_ ?_ ?_ hst
  · intro vs st t h
    rcases st.look_cases t with heq | ⟨_, -, -, heq⟩ <;> rw [heq] <;> exact h
  · intro vs st _
    rcases st.recordSuccess_cases m.recoveryThreshold with ⟨-, heq⟩ | ⟨-, -, heq⟩ <;> rw [heq] <;>
      exact List.nil_suffix
  · intro vs st t h
    have hgrow : List.replicate (st.consecutiveFailures + 1) true <:+ vs ++ [true] := by
      rw [List.replicate_succ']
      obtain ⟨before, rfl⟩ := h
      exact ⟨before, (List.append_assoc ..).symm⟩
    rcases st.recordFailure_cases m.failureThreshold m.ejectionDuration t with
      ⟨-, -, heq⟩ | ⟨-, -, -, -, heq⟩ | ⟨-, -, -, heq⟩
    · rw [heq]
      -- a failed probe leaves the counter as it is
      exact (List.suffix_cons true _).trans (by simpa [List.replicate_succ] using hgrow)
    · rw [heq]; exact List.nil_suffix
    · rw [heq]; exact hgrow

/-- A half-open backend has no window pending. -/
theorem Fresh.halfOpen {h : History} {b : String} {st : BackendHealth}
    (hst : (m.run h).backendHealth.get? b = some st) (hp : st.probing) :
    st.ejectedUntil = none := by
  refine hm.rule (I := fun _ st => st.probing → st.ejectedUntil = none) (fun _ => rfl) ?_ ?_ ?_
    hst hp
  · intro _ st t h
    rcases st.look_cases t with heq | ⟨_, -, -, heq⟩ <;> rw [heq]
    · exact h
    · exact fun _ => rfl
  · intro _ st h
    rcases st.recordSuccess_cases m.recoveryThreshold with ⟨-, heq⟩ | ⟨-, -, heq⟩ <;> rw [heq]
    · intro hp
      simp at hp
    · exact h
  · intro _ st t h
    rcases st.recordFailure_cases m.failureThreshold m.ejectionDuration t with
      ⟨-, -, heq⟩ | ⟨-, -, -, -, heq⟩ | ⟨-, -, -, heq⟩ <;> rw [heq]
    · intro hp
      simp at hp
    · intro hp
      simp at hp
    · exact h

/-- While a backend is unhealthy, the counter of successes is below the threshold and is the number
    of successes since the last failure. -/
theorem Fresh.successes (hr : 1 ≤ m.recoveryThreshold) {h : History} {b : String}
    {st : BackendHealth} (hst : (m.run h).backendHealth.get? b = some st)
    (hh : st.healthy = false) : st.consecutiveSuccesses < m.recoveryThreshold ∧
      st.consecutiveSuccesses = ((verdicts b h).rtakeWhile (!·)).length := by
  refine hm.rule (I := fun vs st => st.healthy = false →
    st.consecutiveSuccesses < m.recoveryThreshold ∧
      st.consecutiveSuccesses = (vs.rtakeWhile (!·)).length) ?_ ?_ ?_ ?_ hst hh
  · intro h
    simp [BackendHealth.initial] at h
  · intro vs st t h
    rcases st.look_cases t with heq | ⟨_, -, -, heq⟩ <;> rw [heq] <;> exact h
  · intro vs st h
    rcases st.recordSuccess_cases m.recoveryThreshold with ⟨-, heq⟩ | ⟨-, hlt, heq⟩ <;> rw [heq]
    · intro hh
      simp at hh
    · intro hh
      obtain ⟨-, hcount⟩ := h hh
      refine ⟨hlt.resolve_left (by simpa using hh), ?_⟩
      rw [List.rtakeWhile_concat_pos _ _ _ rfl, List.length_append, ← hcount]
      rfl
  · intro vs st t _
    rw [List.rtakeWhile_concat_neg _ _ _ (by simp)]
    rcases st.recordFailure_cases m.failureThreshold m.ejectionDuration t with
      ⟨-, -, heq⟩ | ⟨-, -, -, -, heq⟩ | ⟨-, -, -, heq⟩ <;> rw [heq] <;> exact fun _ => ⟨hr, rfl⟩

end

/-! ## Ejection -/

/-- From a healthy state without a pending window, a history ejects `b` iff the counter reaches the
    threshold. -/
theorem ejections_ne_nil_iff {m : HealthManager} {b : String} {st : BackendHealth} {h : History}
    (hst : m.backendHealth.get? b = some st) (hh : st.healthy) (hp : st.probing = false)
    (hu : st.ejectedUntil = none) : m.ejections b h ≠ [] ↔
      hits m.failureThreshold st.consecutiveFailures (verdicts b h) := by
  induction h generalizing m st with
  | nil => simp [ejections, verdicts, hits]
  | cons e h ih =>
    have hth := (m.step_same e).failureThreshold
    have hst' : (m.step e).backendHealth.get? b = some (m.stepOne b st e) := by
      rw [get?_step, hst]; rfl
    rw [ejections, verdicts_cons]
    cases hv : e.2.verdict b with
    | none =>
      -- a call that says nothing about `b` changes nothing
      have hsame : m.stepOne b st e = st := by
        rcases stepOne_of_none (m := m) hv st with heq | heq
        · exact heq
        · rw [heq, BackendHealth.look_of_none hu]
      have hne : e.2 ≠ .recordFailure b := fun he => by simp [he, Event.verdict] at hv
      rw [if_neg fun he => hne he.1, ← hth]
      exact ih (by rw [hst', hsame]) hh hp hu
    | some v =>
      obtain ⟨t, e⟩ := e
      cases v with
      | false =>
        obtain rfl := Event.verdict_eq_false hv
        rw [if_neg (by simp), List.nil_append, ← hth]
        simp only [stepOne, if_true] at hst'
        rcases st.recordSuccess_cases m.recoveryThreshold with ⟨hr, -⟩ | ⟨-, -, heq⟩
        · simp [hp, hh] at hr
        · rw [heq] at hst'
          simpa [hits] using ih hst' hh hp hu
      | true =>
        obtain rfl := Event.verdict_eq_true hv
        simp only [stepOne, if_true] at hst'
        rcases st.recordFailure_cases m.failureThreshold m.ejectionDuration t with
          ⟨-, hpr, -⟩ | ⟨hej, -, -, hle, -⟩ | ⟨hej, -, hlt, heq⟩
        · simp [hp] at hpr
        · simp [wouldEject, hst, hej, hle, hits]
        · have hlt := hlt.resolve_left (by simp [hh])
          rw [heq] at hst'
          rw [if_neg (by simp [wouldEject, hst, hej]), List.nil_append]
          simpa [not_le.2 hlt, hth, hits] using ih hst' hh hp hu

/-- The state of `b` after a failure. -/
theorem get?_failure {m : HealthManager} {b : String} {st : BackendHealth}
    (hst : m.backendHealth.get? b = some st) (t : ℕ) :
    (m.step (t, .recordFailure b)).backendHealth.get? b =
      some (st.recordFailure m.failureThreshold m.ejectionDuration t).1 := by
  rw [get?_step, hst]
  simp [stepOne]

/-- Without an ejection no window becomes pending. -/
theorem unejected_run {m : HealthManager} {b : String} {st : BackendHealth} {h : History}
    (hst : m.backendHealth.get? b = some st) (hu : st.ejectedUntil = none)
    (hno : m.ejections b h = []) :
    ∃ st', (m.run h).backendHealth.get? b = some st' ∧ st'.ejectedUntil = none := by
  induction h generalizing m st with
  | nil => exact ⟨st, hst, hu⟩
  | cons e h ih =>
    rw [ejections, List.append_eq_nil_iff] at hno
    obtain ⟨hfirst, hrest⟩ := hno
    have hst' : (m.step e).backendHealth.get? b = some (m.stepOne b st e) := by
      rw [get?_step, hst]; rfl
    refine ih hst' ?_ hrest
    cases hv : e.2.verdict b with
    | none =>
      rcases stepOne_of_none (m := m) hv st with heq | heq <;> rw [heq]
      · exact hu
      · rw [BackendHealth.look_of_none hu, hu]
    | some v =>
      obtain ⟨t, e⟩ := e
      cases v with
      | false =>
        obtain rfl := Event.verdict_eq_false hv
        simp only [stepOne, if_true]
        rcases st.recordSuccess_cases m.recoveryThreshold with ⟨-, heq⟩ | ⟨-, -, heq⟩ <;> rw [heq] <;>
          exact hu
      | true =>
        obtain rfl := Event.verdict_eq_true hv
        have hej : st.ejects m.failureThreshold = false := by
          by_contra hej
          simp [wouldEject, hst, Bool.eq_true_of_not_eq_false hej] at hfirst
        simp only [stepOne, if_true]
        rw [(BackendHealth.recordFailure_of_not_ejects hej _ _).1, hu]

/-- An ejection is a failure that opens a window at its instant. -/
theorem exists_of_mem_ejections {m : HealthManager} {b : String} {h : History} {w : ℕ}
    (hw : w ∈ m.ejections b h) : ∃ h₁ h₂ st, h = h₁ ++ (w, .recordFailure b) :: h₂ ∧
      (m.run (h₁ ++ [(w, .recordFailure b)])).backendHealth.get? b = some st ∧
      st.ejectedUntil = some (w + m.ejectionDuration) := by
  induction h generalizing m with
  | nil => simp [ejections] at hw
  | cons e h ih =>
    rw [ejections, List.mem_append] at hw
    rcases hw with hw | hw
    · split_ifs at hw with hej
      · obtain ⟨t, e⟩ := e
        obtain ⟨rfl, hwould⟩ := hej
        obtain rfl := List.mem_singleton.1 hw
        obtain ⟨st, hst, hejects⟩ := (Option.any_eq_true _ _).1 hwould
        exact ⟨[], h, _, rfl, get?_failure hst w, BackendHealth.recordFailure_of_ejects hejects _ _⟩
      · cases hw
    · obtain ⟨h₁, h₂, st, rfl, hst, htill⟩ := ih hw
      rw [(m.step_same e).ejectionDuration] at htill
      exact ⟨e :: h₁, h₂, st, rfl, hst, htill⟩

/-- A failure that takes the threshold branch ends a stretch of failures. -/
theorem Fresh.failures_of_threshold {m : HealthManager} {routes : List RouteConfig}
    (hm : m.Fresh routes) {h : History} {b : String} {st : BackendHealth}
    (hst : (m.run h).backendHealth.get? b = some st) {threshold : ℕ}
    (hle : threshold ≤ st.consecutiveFailures + 1) (t : ℕ) :
    List.replicate threshold true <:+ verdicts b (h ++ [(t, .recordFailure b)]) := by
  obtain ⟨before, hbefore⟩ := hm.failures_suffix hst
  have hsuffix : List.replicate (st.consecutiveFailures + 1) true <:+
      verdicts b (h ++ [(t, .recordFailure b)]) := by
    refine ⟨before, ?_⟩
    rw [verdicts_concat, ← hbefore, List.replicate_succ', List.append_assoc]
    simp [Event.verdict]
  refine List.IsSuffix.trans ⟨List.replicate (st.consecutiveFailures + 1 - threshold) true, ?_⟩
    hsuffix
  rw [List.replicate_append_replicate, Nat.sub_add_cancel hle]

/-- **Ejection happens exactly on the configured evidence.**  After any history: a failure changes
    the window of `b` or makes it unhealthy only if `b` is half-open or the last `failureThreshold`
    outcomes of `b`, this one included, are failures; from a healthy state that is not half-open and
    has no window pending, one of `failureThreshold` failures without a success in between opens a
    window, whatever else is called meanwhile; and a failure opens one at once for a half-open
    `b`. -/
theorem ejects_on_evidence (routes : List RouteConfig)
    (failureThreshold recoveryThreshold ejectionDuration : ℕ)
    (activeSuccessStatusMin activeSuccessStatusMax : ℕ)
    (passiveFailureStatusMin passiveFailureStatusMax : ℕ) (telemetry : Bool)
    (hk : 1 ≤ failureThreshold) (h : History) (b : String) (st : BackendHealth) :
    let m := withTelemetry routes failureThreshold recoveryThreshold ejectionDuration
      activeSuccessStatusMin activeSuccessStatusMax passiveFailureStatusMin passiveFailureStatusMax
      telemetry
    (m.run h).backendHealth.get? b = some st →
    (∀ t st', (m.run (h ++ [(t, .recordFailure b)])).backendHealth.get? b = some st' →
      st'.ejectedUntil ≠ st.ejectedUntil ∨ st'.healthy ≠ st.healthy → st.probing ∨
        List.replicate failureThreshold true <:+ verdicts b (h ++ [(t, .recordFailure b)])) ∧
    (st.healthy → st.probing = false → st.ejectedUntil = none → ∀ h',
      verdicts b h' = List.replicate failureThreshold true →
      ∃ h₁ t h₂ st', h' = h₁ ++ (t, .recordFailure b) :: h₂ ∧
        (m.run (h ++ h₁ ++ [(t, .recordFailure b)])).backendHealth.get? b = some st' ∧
        st'.ejectedUntil = some (t + ejectionDuration)) ∧
    (st.probing → ∀ t, ∃ st',
      (m.run (h ++ [(t, .recordFailure b)])).backendHealth.get? b = some st' ∧
        st'.ejectedUntil = some (t + ejectionDuration)) := by
  intro m hst
  have hm : m.Fresh routes := rfl
  have hth : (m.run h).failureThreshold = failureThreshold := (m.run_same h).failureThreshold
  have hD : (m.run h).ejectionDuration = ejectionDuration := (m.run_same h).ejectionDuration
  have hnext : ∀ t, (m.run (h ++ [(t, .recordFailure b)])).backendHealth.get? b =
      some (st.recordFailure failureThreshold ejectionDuration t).1 := by
    intro t
    rw [run_append, run_cons, run_nil, get?_failure hst, hth, hD]
  refine ⟨fun t st' hst' hchange => ?_, fun hh hp hu h' hv => ?_, fun hp t => ?_⟩
  · obtain rfl := Option.some.inj ((hnext t).symm.trans hst')
    have hej : st.ejects failureThreshold := by
      by_contra hn
      obtain ⟨htill, hhealthy⟩ := BackendHealth.recordFailure_of_not_ejects (Bool.eq_false_iff.2 hn)
        ejectionDuration t
      exact hchange.elim (absurd htill) (absurd hhealthy)
    simp only [BackendHealth.ejects, Bool.or_eq_true, Bool.and_eq_true, decide_eq_true_eq] at hej
    rcases hej with hp | ⟨-, hle⟩
    · exact Or.inl hp
    · exact Or.inr (hm.failures_of_threshold hst hle t)
  · have hlt : st.consecutiveFailures < failureThreshold := hm.below hk hst hh
    have hne : (m.run h).ejections b h' ≠ [] := by
      rw [ejections_ne_nil_iff hst hh hp hu, hv, hth, ← List.append_nil (List.replicate _ _),
        hits_failures hlt (by simp)]
      exact Or.inl (by simp)
    obtain ⟨w, hw⟩ := List.exists_mem_of_ne_nil _ hne
    obtain ⟨h₁, h₂, st', heq, hst', htill⟩ := exists_of_mem_ejections hw
    rw [hD] at htill
    rw [← run_append, ← List.append_assoc] at hst'
    exact ⟨h₁, w, h₂, st', heq, hst', htill⟩
  · have hej : st.ejects failureThreshold := by simp [BackendHealth.ejects, hp]
    exact ⟨_, hnext t, BackendHealth.recordFailure_of_ejects hej _ _⟩

/-- Under a threshold of two, the second of two failures ejects a backend, with a query between
    them. -/
theorem second_failure_ejects :
    let b := "http://127.0.0.1:3001"
    let m := withTelemetry [{ pathPrefix := "/api", backends := [b] }] 2 2 30 200 399 500 599 false
    let h := [(5, Event.recordFailure b), (6, .backendStatuses), (7, .recordFailure b)]
    (m.run h).backendHealth.get? b = some ⟨false, 0, 0, some 37, false⟩ ∧
      List.replicate 2 true <:+ verdicts b h ∧
      ∃ h₁ t h₂ st, h = h₁ ++ (t, .recordFailure b) :: h₂ ∧
        (m.run ([] ++ h₁ ++ [(t, .recordFailure b)])).backendHealth.get? b = some st ∧
        st.ejectedUntil = some (t + 30) := by
  intro b m h
  have hst : (m.run h).backendHealth.get? b = some ⟨false, 0, 0, some 37, false⟩ := by decide
  refine ⟨hst, ?_, ?_⟩
  · have hev := ejects_on_evidence [{ pathPrefix := "/api", backends := [b] }] 2 2 30 200 399 500
      599 false (by decide) [(5, .recordFailure b), (6, .backendStatuses)] b
      ⟨true, 1, 0, none, false⟩ (by decide)
    exact (hev.1 7 _ hst (Or.inl (by simp))).resolve_left (by simp)
  · have hev := ejects_on_evidence [{ pathPrefix := "/api", backends := [b] }] 2 2 30 200 399 500
      599 false (by decide) [] b .initial (by decide)
    exact hev.2.1 rfl rfl rfl h (by decide)

/-! ## Recovery -/

/-- The number of successes recorded for `b` since its last failure. -/
def successesSince (b : String) (h : History) : ℕ := ((verdicts b h).rtakeWhile (!·)).length

/-- One more success. -/
theorem Fresh.successesSince_concat {m : HealthManager} {routes : List RouteConfig}
    (hm : m.Fresh routes) {h : History} {b : String} {st : BackendHealth}
    (hr : 1 ≤ m.recoveryThreshold) (hst : (m.run h).backendHealth.get? b = some st)
    (hh : st.healthy = false) (t : ℕ) :
    successesSince b (h ++ [(t, .recordSuccess b)]) = st.consecutiveSuccesses + 1 := by
  obtain ⟨-, hcount⟩ := hm.successes hr hst hh
  have hv : (Event.recordSuccess b).verdict b = some false := by simp [Event.verdict]
  unfold successesSince
  rw [verdicts_concat, hv, Option.toList_some, List.rtakeWhile_concat_pos _ _ _ rfl,
    List.length_append, ← hcount]
  rfl

/-- **Recovery happens exactly on the configured evidence.**  After any history: the next
    outcome of an unhealthy `b` makes it healthy iff it is a success and `b` is half-open or
    exactly `recoveryThreshold` successes, this one included, have been recorded since the last
    failure; no other call changes the flag; and a success makes a half-open `b` healthy, not
    half-open, and without a pending window. -/
theorem recovers_on_evidence (routes : List RouteConfig)
    (failureThreshold recoveryThreshold ejectionDuration : ℕ)
    (activeSuccessStatusMin activeSuccessStatusMax : ℕ)
    (passiveFailureStatusMin passiveFailureStatusMax : ℕ) (telemetry : Bool)
    (hr : 1 ≤ recoveryThreshold) (h : History) {b : String}
    (hb : ∃ r ∈ routes, b ∈ r.backends) :
    let m := withTelemetry routes failureThreshold recoveryThreshold ejectionDuration
      activeSuccessStatusMin activeSuccessStatusMax passiveFailureStatusMin passiveFailureStatusMax
      telemetry
    (∀ t e, e.verdict b ≠ none → (m.run h).isBackendHealthy b = false →
      ((m.run (h ++ [(t, e)])).isBackendHealthy b ↔ e = .recordSuccess b ∧
        ((m.run h).isBackendProbing b ∨
          successesSince b (h ++ [(t, e)]) = recoveryThreshold))) ∧
    (∀ t e, e.verdict b = none →
      (m.run (h ++ [(t, e)])).isBackendHealthy b = (m.run h).isBackendHealthy b) ∧
    ((m.run h).isBackendProbing b → ∀ t,
      ∃ st, (m.run (h ++ [(t, .recordSuccess b)])).backendHealth.get? b = some st ∧
        st.healthy ∧ st.probing = false ∧ st.ejectedUntil = none) := by
  intro m
  have hm : m.Fresh routes := rfl
  obtain ⟨st, hst⟩ := Option.isSome_iff_exists.1 ((hm.isSome_iff h b).2 hb)
  have hnext : ∀ e, (m.run (h ++ [e])).backendHealth.get? b = some (m.stepOne b st e) := by
    intro e
    rw [run_append, run_cons, run_nil, get?_step, hst, (m.run_same h).stepOne]
    rfl
  simp only [isBackendHealthy, isBackendProbing, hst, hnext, Option.any_some]
  refine ⟨fun t e hv hh => ?_, fun t e hv => ?_, fun hp t => ⟨_, rfl, ?_⟩⟩
  · obtain ⟨v, hv⟩ := Option.ne_none_iff_exists'.1 hv
    cases v with
    | true =>
      obtain rfl := Event.verdict_eq_true hv
      simp [stepOne, BackendHealth.recordFailure_healthy hh]
    | false =>
      obtain rfl := Event.verdict_eq_false hv
      rw [hm.successesSince_concat hr hst hh t]
      simp only [stepOne, if_true, true_and]
      exact BackendHealth.recordSuccess_healthy_iff hh (hm.successes hr hst hh).1
  · rcases stepOne_of_none (m := m) (e := (t, e)) hv st with heq | heq <;> rw [heq]
    exact BackendHealth.look_healthy ..
  · have hu := hm.halfOpen hst hp
    rcases st.recordSuccess_cases m.recoveryThreshold with ⟨-, heq⟩ | ⟨hn, -, -⟩
    · simp only [stepOne, if_true, heq]
      exact ⟨trivial, trivial, hu⟩
    · simp [hp] at hn

/-- Under thresholds of one and two, a backend that has failed is healthy again at the second
    success, and at the first one when its window was found to be over. -/
theorem second_success_recovers :
    let b := "http://127.0.0.1:3001"
    let m := withTelemetry [{ pathPrefix := "/api", backends := [b] }] 1 2 30 200 399 500 599 false
    (m.run [(5, .recordFailure b), (6, .recordSuccess b)]).isBackendHealthy b = false ∧
      (m.run [(5, .recordFailure b), (6, .recordSuccess b),
        (7, .recordSuccess b)]).isBackendHealthy b ∧
      (m.run [(5, .recordFailure b), (40, .backendStatuses),
        (41, .recordSuccess b)]).isBackendHealthy b := by
  intro b m
  have hb : ∃ r ∈ [({ pathPrefix := "/api", backends := [b] } : RouteConfig)], b ∈ r.backends := by
    simp
  have hsecond := recovers_on_evidence _ 1 2 30 200 399 500 599 false (by decide)
    [(5, .recordFailure b), (6, .recordSuccess b)] hb
  have hprobe := recovers_on_evidence _ 1 2 30 200 399 500 599 false (by decide)
    [(5, .recordFailure b), (40, .backendStatuses)] hb
  refine ⟨by decide, ?_, ?_⟩
  · exact (hsecond.1 7 (.recordSuccess b) (by decide) (by decide)).2 ⟨rfl, Or.inr (by decide)⟩
  · exact (hprobe.1 41 (.recordSuccess b) (by decide) (by decide)).2 ⟨rfl, Or.inl (by decide)⟩

end HealthManager

end FerrumProxy
