/-
  Eligibility is being outside every ejection window.

  `Tracks D ws now st` relates the state of a backend to the instants `ws` at
  which it was ejected so far: it is the joint invariant of the five fields that
  every operation keeps (`Tracks.stepOne`), whatever the order of the calls.
  Under it the lazy bookkeeping of the code decides exactly whether some window
  is still open (`Tracks.eligible_iff`).
-/
import FerrumProxy.HealthHistory
import FerrumProxy.Lib.Windows

namespace FerrumProxy

open Lib

/-- The state of a backend at `now` agrees with the instants `ws` of its ejections. -/
structure Tracks (D : ℕ) (ws : List ℕ) (now : ℕ) (st : BackendHealth) : Prop where
  /-- no ejection lies in the future -/
  started : ∀ s ∈ ws, s ≤ now
  /-- half-open means that no window is pending -/
  halfOpen : st.probing → st.ejectedUntil = none
  /-- an unhealthy backend has a pending window or is half-open -/
  unhealthy : st.healthy = false → st.probing ∨ st.ejectedUntil.isSome
  /-- a pending window is the one that closes last -/
  pending : ∀ till, st.ejectedUntil = some till → ∀ t, Covered D ws t ↔ t < till
  /-- without a pending window all are over -/
  closed : st.ejectedUntil = none → ¬ Covered D ws now

namespace Tracks

variable {D now t : ℕ} {ws : List ℕ} {st : BackendHealth}

theorem initial (D now : ℕ) : Tracks D [] now .initial where
  started := by simp
  halfOpen _ := rfl
  unhealthy h := by simp [BackendHealth.initial] at h
  pending till h := by simp [BackendHealth.initial] at h
  closed _ := by simp

/-- Time passes. -/
theorem later (h : Tracks D ws now st) (ht : now ≤ t) : Tracks D ws t st :=
  { h with
    started := fun s hs => (h.started s hs).trans ht
    closed := fun hn hc => h.closed hn (hc.anti ht) }

/-- **Eligibility.** A backend is eligible iff no window is open. -/
theorem eligible_iff (h : Tracks D ws now st) (ht : now ≤ t) :
    st.eligible t ↔ ¬ Covered D ws t := by
  have h := h.later ht
  rcases hu : st.ejectedUntil with _ | till
  · -- nothing pending: the flags allow the backend, and all windows are over
    have hflag : st.healthy ∨ st.probing := by
      rcases hh : st.healthy with _ | _
      · exact Or.inr ((h.unhealthy hh).resolve_right (by simp [hu]))
      · exact Or.inl rfl
    refine iff_of_true ?_ (h.closed hu)
    rw [BackendHealth.eligible, BackendHealth.look_of_none hu]
    simpa [BackendHealth.ejected, hu] using hflag
  · rw [h.pending till hu t]
    by_cases hlt : t < till
    · simp [BackendHealth.eligible, BackendHealth.ejected, hu, hlt]
    · rw [BackendHealth.eligible, BackendHealth.look_of_over hu hlt]
      simp [BackendHealth.ejected, hu, hlt]

/-! ## Every operation keeps the invariant -/

theorem look (h : Tracks D ws now st) : Tracks D ws now (st.look now) := by
  rcases BackendHealth.look_cases now st with he | ⟨till, hu, ht, he⟩
  · rwa [he]
  · rw [he]
    exact ⟨h.started, fun _ => rfl, fun _ => Or.inl rfl, fun _ hn => (by simp at hn),
      fun _ hc => absurd ((h.pending till hu now).1 hc) (not_lt.2 ht)⟩

theorem recordSuccess (h : Tracks D ws now st) (recovery : ℕ) :
    Tracks D ws now (st.recordSuccess recovery).1 := by
  rcases st.recordSuccess_cases recovery with ⟨-, he⟩ | ⟨-, -, he⟩
  · rw [he]
    exact ⟨h.started, fun hp => (by simp at hp), fun hh => (by simp at hh), h.pending, h.closed⟩
  · rw [he]
    exact ⟨h.started, h.halfOpen, h.unhealthy, h.pending, h.closed⟩

/-- A new window, opened now. -/
theorem ejected (h : Tracks D ws now st) {st' : BackendHealth}
    (hu : st'.ejectedUntil = some (now + D)) (hp : st'.probing = false) :
    Tracks D (ws ++ [now]) now st' where
  started s hs := by
    rcases List.mem_append.1 hs with hs | hs
    · exact h.started s hs
    · exact (List.mem_singleton.1 hs).le
  halfOpen hp' := by simp [hp] at hp'
  unhealthy _ := Or.inr (by simp [hu])
  pending till ht t := by
    rw [hu, Option.some.injEq] at ht
    subst ht
    exact covered_concat_iff h.started
  closed hn := by simp [hu] at hn

theorem recordFailure (h : Tracks D ws now st) (threshold : ℕ) :
    Tracks D (ws ++ if st.ejects threshold then [now] else []) now
      (st.recordFailure threshold D now).1 := by
  rcases st.recordFailure_cases threshold D now with
    ⟨hej, -, he⟩ | ⟨hej, -, -, -, he⟩ | ⟨hej, hp, -, he⟩
  · rw [he, if_pos hej]
    exact h.ejected rfl rfl
  · rw [he, if_pos hej]
    exact h.ejected rfl rfl
  · rw [he, hej]
    simp only [Bool.false_eq_true, if_false, List.append_nil]
    exact ⟨h.started, h.halfOpen, h.unhealthy, h.pending, h.closed⟩

end Tracks

namespace HealthManager

/-- The ejection of `b` by one call. -/
theorem ejections_single (m : HealthManager) (b : String) (e : ℕ × Event) :
    m.ejections b [e] = if e.2 = .recordFailure b ∧ m.wouldEject b then [e.1] else [] := by
  simp [ejections]

/-- One call keeps `Tracks`. -/
theorem tracks_stepOne {m : HealthManager} {b : String} {st : BackendHealth} {ws : List ℕ}
    {now : ℕ} {e : ℕ × Event} (hst : m.backendHealth.get? b = some st)
    (h : Tracks m.ejectionDuration ws now st) (ht : now ≤ e.1) :
    Tracks m.ejectionDuration (ws ++ m.ejections b [e]) e.1 (m.stepOne b st e) := by
  obtain ⟨t, e⟩ := e
  have h := h.later ht
  rw [ejections_single]
  cases e with
  | recordSuccess b' =>
    simp only [stepOne, reduceCtorEq, false_and, if_false, List.append_nil]
    split_ifs
    · exact h.recordSuccess _
    · exact h
  | recordFailure b' =>
    by_cases hb : b = b'
    · subst hb
      simpa [stepOne, wouldEject, hst] using h.recordFailure m.failureThreshold
    · simpa [stepOne, hb, Ne.symm hb] using h
  | healthyBackends r =>
    simp only [stepOne, reduceCtorEq, false_and, if_false, List.append_nil]
    split_ifs
    · exact h.look
    · exact h
  | backendStatuses =>
    simpa only [stepOne, reduceCtorEq, false_and, if_false, List.append_nil] using h.look

/-- **Every chronological history keeps `Tracks`.** -/
theorem tracks_run {m : HealthManager} {b : String} {st : BackendHealth} {ws : List ℕ}
    {now t : ℕ} {h : History} (hst : m.backendHealth.get? b = some st)
    (hT : Tracks m.ejectionDuration ws now st) (hc : Chronological h)
    (hn : ∀ e ∈ h, now ≤ e.1) (ht : ∀ e ∈ h, e.1 ≤ t) (hnt : now ≤ t) :
    ∃ st', (m.run h).backendHealth.get? b = some st' ∧
      Tracks m.ejectionDuration (ws ++ m.ejections b h) t st' := by
  induction h generalizing m st ws now with
  | nil => exact ⟨st, hst, by simpa [ejections] using hT.later hnt⟩
  | cons e h ih =>
    obtain ⟨hc₁, hc₂⟩ := List.pairwise_cons.1 hc
    have hst' : (m.step e).backendHealth.get? b = some (m.stepOne b st e) := by
      rw [get?_step, hst]; rfl
    have hD := (m.step_same e).ejectionDuration
    have hT' := tracks_stepOne hst hT (hn e (by simp))
    rw [← hD] at hT'
    obtain ⟨st', h₁, h₂⟩ := ih hst' hT' hc₂ hc₁ (fun e' he' => ht e' (by simp [he']))
      (ht e (by simp))
    refine ⟨st', h₁, ?_⟩
    rw [← hD, show m.ejections b (e :: h) = m.ejections b [e] ++ (m.step e).ejections b h from
      ejections_append m b [e] h, ← List.append_assoc]
    exact h₂

/-- A manager as `with_telemetry` builds it for `routes`, whatever its settings. -/
def Fresh (m : HealthManager) (routes : List RouteConfig) : Prop :=
  m.backendHealth = .ofKeys (routes.flatMap (·.backends)) fun _ => .initial

section
variable {m : HealthManager} {routes : List RouteConfig} (hm : m.Fresh routes)
include hm

theorem Fresh.isSome_iff (h : History) (b : String) :
    ((m.run h).backendHealth.get? b).isSome ↔ ∃ r ∈ routes, b ∈ r.backends := by
  rw [isSome_run, hm]
  simp [Table.get?_ofKeys]

/-- A backend of the configuration, after a history from the start. -/
theorem Fresh.tracks {h : History} {t : ℕ} (hc : Chronological h) (ht : ∀ e ∈ h, e.1 ≤ t)
    {b : String} (hb : ∃ r ∈ routes, b ∈ r.backends) :
    ∃ st, (m.run h).backendHealth.get? b = some st ∧
      Tracks m.ejectionDuration (m.ejections b h) t st := by
  have hst : m.backendHealth.get? b = some .initial := by
    rw [hm]; simpa [Table.get?_ofKeys] using hb
  exact tracks_run hst (.initial m.ejectionDuration 0) hc (fun _ _ => Nat.zero_le _) ht
    (Nat.zero_le _)

/-- The state of any known backend, read as its open windows. -/
theorem Fresh.eligible_iff {h : History} {t : ℕ} (hc : Chronological h) (ht : ∀ e ∈ h, e.1 ≤ t)
    {b : String} {st : BackendHealth} (hst : (m.run h).backendHealth.get? b = some st) :
    st.eligible t ↔ ¬ Covered m.ejectionDuration (m.ejections b h) t := by
  have hb := (hm.isSome_iff h b).1 (Option.isSome_iff_exists.2 ⟨st, hst⟩)
  obtain ⟨st', hst', hT⟩ := hm.tracks hc ht hb
  obtain rfl : st = st' := Option.some.inj (hst.symm.trans hst')
  exact hT.eligible_iff le_rfl

end

/-- **Eligibility is being outside every ejection window.**  After any chronological history and at
    any instant `t` not before its end, `healthy_backends` keeps of a configured route exactly the
    backends none of whose ejections is less than `ejection_duration` old (in order and with
    multiplicity), and `backend_statuses` reports exactly the other ones as not healthy. -/
theorem healthyBackends_eq_outside_windows (routes : List RouteConfig)
    (failureThreshold recoveryThreshold ejectionDuration : ℕ)
    (activeSuccessStatusMin activeSuccessStatusMax : ℕ)
    (passiveFailureStatusMin passiveFailureStatusMax : ℕ) (telemetry : Bool)
    {h : History} {t : ℕ} (hc : Chronological h) (ht : ∀ e ∈ h, e.1 ≤ t) :
    let m := withTelemetry routes failureThreshold recoveryThreshold ejectionDuration
      activeSuccessStatusMin activeSuccessStatusMax passiveFailureStatusMin passiveFailureStatusMax
      telemetry
    (∀ r ∈ routes, ((m.run h).healthyBackends t r).2 =
      r.backends.filter fun b => ¬ Covered ejectionDuration (m.ejections b h) t) ∧
    (∀ b, (b, false) ∈ ((m.run h).backendStatuses t).2 ↔
      (∃ r ∈ routes, b ∈ r.backends) ∧ Covered ejectionDuration (m.ejections b h) t) ∧
    (∀ b, (b, true) ∈ ((m.run h).backendStatuses t).2 ↔
      (∃ r ∈ routes, b ∈ r.backends) ∧ ¬ Covered ejectionDuration (m.ejections b h) t) := by
  intro m
  have hm : m.Fresh routes := rfl
  have known : ∀ b, (∃ r ∈ routes, b ∈ r.backends) →
      ∃ st, (m.run h).backendHealth.get? b = some st := fun b hb =>
    Option.isSome_iff_exists.1 ((hm.isSome_iff h b).2 hb)
  have configured : ∀ b st, (m.run h).backendHealth.get? b = some st →
      ∃ r ∈ routes, b ∈ r.backends := fun b st hst =>
    (hm.isSome_iff h b).1 (Option.isSome_iff_exists.2 ⟨st, hst⟩)
  refine ⟨fun r hr => ?_, fun b => ?_, fun b => ?_⟩
  · rw [healthyBackends_eq]
    refine List.filter_congr fun b hb => ?_
    obtain ⟨st, hst⟩ := known b ⟨r, hr, hb⟩
    rw [hst, Option.any_some, Bool.eq_iff_iff, hm.eligible_iff hc ht hst, decide_eq_true_iff]
    rfl
  · rw [mem_backendStatuses]
    constructor
    · rintro ⟨st, hst, he⟩
      refine ⟨configured b st hst, by_contra fun hn => ?_⟩
      rw [(hm.eligible_iff hc ht hst).2 hn] at he
      simp at he
    · rintro ⟨hb, hcov⟩
      obtain ⟨st, hst⟩ := known b hb
      exact ⟨st, hst, Bool.eq_false_iff.2 fun he => (hm.eligible_iff hc ht hst).1 he hcov⟩
  · rw [mem_backendStatuses]
    constructor
    · rintro ⟨st, hst, he⟩
      exact ⟨configured b st hst, (hm.eligible_iff hc ht hst).1 he⟩
    · rintro ⟨hb, hcov⟩
      obtain ⟨st, hst⟩ := known b hb
      exact ⟨st, hst, (hm.eligible_iff hc ht hst).2 hcov⟩

/-- Two backends, the first of which fails once under a threshold of one: it is left out for the
    length of the window and is back when the window is over. -/
theorem ejected_at_ten_back_at_forty :
    let r : RouteConfig :=
      { pathPrefix := "/api", backends := ["http://127.0.0.1:3001", "http://127.0.0.1:3002"] }
    let m := (withTelemetry [r] 1 2 30 200 399 500 599 false).run
      [(5, .recordFailure "http://127.0.0.1:3001"), (7, .recordSuccess "http://127.0.0.1:3001")]
    (m.healthyBackends 10 r).2 = ["http://127.0.0.1:3002"] ∧
      (m.healthyBackends 40 r).2 = r.backends := by
  intro r m
  have hc : Chronological
      [(5, .recordFailure "http://127.0.0.1:3001"), (7, .recordSuccess "http://127.0.0.1:3001")] := by
    simp [Chronological]
  constructor
  · rw [(healthyBackends_eq_outside_windows [r] 1 2 30 200 399 500 599 false hc
      (t := 10) (by simp)).1 r (by simp)]
    decide
  · rw [(healthyBackends_eq_outside_windows [r] 1 2 30 200 399 500 599 false hc
      (t := 40) (by simp)).1 r (by simp)]
    decide

end HealthManager

end FerrumProxy
