/-
  Monitoring and routing: `backend_statuses` goes through the same lazy expiry as
  the selection of a backend, so a scrape of the metrics can open the half-open
  state of a backend that no request has looked at.

  A scrape leaves every later answer of `healthy_backends` as it is iff no backend
  has a window that is over and has not been noticed (`Stale`).  Without such a
  backend the scrape changes nothing (`step_backendStatuses_of_not_stale`); with
  one, some continuation tells the two runs apart (`exists_telling`).
-/
import FerrumProxy.Eligibility

namespace FerrumProxy

open Lib

namespace HealthManager

/-- The answers of the `healthy_backends` calls of a history. -/
def answers (m : HealthManager) : History → List (List String)
  | [] => []
  | e :: h =>
    (match e.2 with
      | .healthyBackends r => [(m.healthyBackends e.1 r).2]
      | _ => []) ++ (m.step e).answers h

theorem answers_append (m : HealthManager) (h h' : History) :
    m.answers (h ++ h') = m.answers h ++ (m.run h).answers h' := by
  induction h generalizing m with
  | nil => rfl
  | cons e h ih => simp [answers, ih]

/-- The calls made on behalf of requests and checks, as opposed to monitoring. -/
def Routing (routes : List RouteConfig) : Event → Prop
  | .recordSuccess _ | .recordFailure _ => True
  | .healthyBackends r => r ∈ routes
  | .backendStatuses => False

/-- The window of `b` is over at `t`, and nothing has looked at `b` since it closed. -/
def Stale (m : HealthManager) (t : ℕ) (b : String) : Prop :=
  ∃ st till, m.backendHealth.get? b = some st ∧ st.ejectedUntil = some till ∧ till ≤ t

/-- A scrape is a look at every known backend. -/
theorem get?_step_backendStatuses (m : HealthManager) (t : ℕ) (b : String) :
    (m.step (t, .backendStatuses)).backendHealth.get? b =
      (m.backendHealth.get? b).map (·.look t) :=
  get?_step ..

theorem keys_lookAll (now : ℕ) (bs : List String) (m : HealthManager) :
    (m.lookAll now bs).backendHealth.keys = m.backendHealth.keys := by
  induction bs generalizing m with
  | nil => rfl
  | cons a bs ih => exact (ih (m.update a (·.look now))).trans rfl

/-- Without a stale window a scrape changes nothing. -/
theorem step_backendStatuses_of_not_stale {m : HealthManager} {t : ℕ} (h : ∀ b, ¬ m.Stale t b) :
    m.step (t, .backendStatuses) = m := by
  have hsame := m.step_same (t, .backendStatuses)
  unfold SameSettings at hsame
  rw [hsame]
  suffices (m.step (t, .backendStatuses)).backendHealth = m.backendHealth by rw [this]
  refine Table.ext ?_ fun b => ?_
  · simp only [step, backendStatuses_fst]; exact keys_lookAll ..
  · rw [get?_step_backendStatuses]
    cases hst : m.backendHealth.get? b with
    | none => rfl
    | some st =>
      rcases BackendHealth.look_cases t st with he | ⟨till, hu, ht, -⟩
      · simp [he]
      · exact absurd ⟨st, till, hst, hu, ht⟩ (h b)

/-! ## Telling two states apart -/

/-- Two states of one manager whose decisions about `b` differ after the same calls give different
    answers. -/
theorem answers_ne {m m' : HealthManager} (hs : m.SameSettings m') {b : String}
    {st st' : BackendHealth} (hst : m.backendHealth.get? b = some st)
    (hst' : m'.backendHealth.get? b = some st') {r : RouteConfig} (hb : b ∈ r.backends)
    {q : History} {t : ℕ} (hne : (m.runOne b st q).eligible t ≠ (m.runOne b st' q).eligible t) :
    m.answers (q ++ [(t, .healthyBackends r)]) ≠ m'.answers (q ++ [(t, .healthyBackends r)]) := by
  intro he
  rw [answers_append, answers_append] at he
  have hlast := congrArg List.getLast? he
  simp only [answers, healthyBackends_eq, List.append_nil, List.getLast?_append,
    List.getLast?_singleton, Option.some_or, Option.some.injEq] at hlast
  have hmem := Iff.of_eq (congrArg (b ∈ ·) hlast)
  simp only [List.mem_filter, hb, true_and, get?_run, hst, hst', hs.runOne, Option.map_some,
    Option.any_some] at hmem
  exact hne (Bool.eq_iff_iff.2 hmem)

/-- A state with a stale window and the state a look makes of it are told apart by some calls: one
    failure if the backend is unhealthy, and otherwise, depending on the threshold, two failures or
    a success and a failure. -/
theorem exists_telling {m : HealthManager} (hk : 1 ≤ m.failureThreshold)
    (hD : 0 < m.ejectionDuration) {b : String} {r : RouteConfig} (hb : b ∈ r.backends)
    {st : BackendHealth} {t till : ℕ} (hu : st.ejectedUntil = some till) (ht : till ≤ t)
    (hp : st.probing = false) :
    ∃ (q : History) (t' : ℕ), Chronological (q ++ [(t', .healthyBackends r)]) ∧
      (∀ e ∈ q ++ [(t', .healthyBackends r)], t ≤ e.1) ∧
      (∀ e ∈ q, e.2 = .recordSuccess b ∨ e.2 = .recordFailure b ∨ e.2 = .healthyBackends r) ∧
      (m.runOne b st q).eligible t' ≠ (m.runOne b (st.look t) q).eligible t' := by
  rw [BackendHealth.look_of_over hu (not_lt.2 ht)]
  obtain ⟨healthy, failures, successes, ejectedUntil, probing⟩ := st
  obtain rfl : ejectedUntil = some till := hu
  obtain rfl : probing = false := hp
  cases healthy with
  | false =>
    refine ⟨[(t, .recordFailure b)], t, by simp [Chronological], by simp, by simp, ?_⟩
    simp [runOne, stepOne, BackendHealth.recordFailure, BackendHealth.eject,
      BackendHealth.eligible, BackendHealth.ejected, BackendHealth.look, not_lt.2 ht, hD]
  | true =>
    by_cases h1 : m.failureThreshold = 1
    · refine ⟨[(t, .recordFailure b), (t + 1, .recordFailure b)], t + m.ejectionDuration,
        by simp [Chronological]; omega, by simp, by simp, ?_⟩
      simp [runOne, stepOne, BackendHealth.recordFailure, BackendHealth.eject,
        BackendHealth.eligible, BackendHealth.ejected, BackendHealth.look, h1]
    · have h2 : ¬ m.failureThreshold ≤ 1 := by omega
      refine ⟨[(t, .recordSuccess b), (t, .healthyBackends r), (t, .recordFailure b)], t,
        by simp [Chronological], by simp, by simp, ?_⟩
      simp [runOne, stepOne, hb, BackendHealth.recordSuccess, BackendHealth.recordFailure,
        BackendHealth.eject, BackendHealth.eligible, BackendHealth.ejected, BackendHealth.look,
        not_lt.2 ht, hD, h2]

/-- In a state reached from the start, a stale window makes a scrape visible. -/
theorem Fresh.scrape_visible {m : HealthManager} {routes : List RouteConfig}
    (hm : m.Fresh routes) (hk : 1 ≤ m.failureThreshold) (hD : 0 < m.ejectionDuration)
    {h : History} {t : ℕ} (hc : Chronological h) (ht : ∀ e ∈ h, e.1 ≤ t) {b : String}
    (hs : (m.run h).Stale t b) :
    ∃ post : History, Chronological post ∧ (∀ e ∈ post, t ≤ e.1 ∧ Routing routes e.2) ∧
      (m.run h).answers post ≠ ((m.run h).step (t, .backendStatuses)).answers post := by
  obtain ⟨st, till, hst, hu, hle⟩ := hs
  obtain ⟨r, hr, hb⟩ : ∃ r ∈ routes, b ∈ r.backends :=
    (hm.isSome_iff h b).1 (by rw [hst]; rfl)
  obtain ⟨st', hst', hT⟩ := hm.tracks hc ht ⟨r, hr, hb⟩
  obtain rfl := Option.some.inj (hst.symm.trans hst')
  -- a pending window excludes the half-open state
  have hp : st.probing = false := by
    by_contra hp
    have hn := hT.halfOpen (by simpa using hp)
    rw [hu] at hn; cases hn
  have hset := run_same m h
  obtain ⟨q, t', hqc, hqt, hq, hne⟩ := exists_telling (m := m.run h)
    (by rw [hset.failureThreshold]; exact hk) (by rw [hset.ejectionDuration]; exact hD)
    hb hu hle hp
  refine ⟨_, hqc, fun e he => ⟨hqt e he, ?_⟩, answers_ne ((m.run h).step_same _) hst
    (by rw [get?_step_backendStatuses, hst]; rfl) hb hne⟩
  rcases List.mem_append.1 he with he | he
  · rcases hq e he with h | h | h
    · rw [h]; trivial
    · rw [h]; trivial
    · rw [h]; exact hr
  · rw [List.mem_singleton.1 he]; exact hr

/-- **When monitoring does not influence routing.**  In any state reached from the start, at any
    point of a sequence of routing calls (after the calls `pre` and at the instant `t`), inserting
    a `backend_statuses` call leaves the answers of every continuation as they are iff no backend
    has a stale window there. -/
theorem scrape_invisible_iff (routes : List RouteConfig)
    (failureThreshold recoveryThreshold ejectionDuration : ℕ)
    (activeSuccessStatusMin activeSuccessStatusMax : ℕ)
    (passiveFailureStatusMin passiveFailureStatusMax : ℕ) (telemetry : Bool)
    (hk : 1 ≤ failureThreshold) (hD : 0 < ejectionDuration)
    {h pre : History} {t : ℕ} (hc : Chronological (h ++ pre)) (ht : ∀ e ∈ h ++ pre, e.1 ≤ t) :
    let m := (withTelemetry routes failureThreshold recoveryThreshold ejectionDuration
      activeSuccessStatusMin activeSuccessStatusMax passiveFailureStatusMin passiveFailureStatusMax
      telemetry).run h
    (∀ post : History, Chronological post → (∀ e ∈ post, t ≤ e.1 ∧ Routing routes e.2) →
      m.answers (pre ++ post) = m.answers (pre ++ (t, .backendStatuses) :: post)) ↔
    ∀ b, ¬ (m.run pre).Stale t b := by
  intro m
  have hscrape : ∀ post : History, m.answers (pre ++ (t, .backendStatuses) :: post) =
      m.answers pre ++ ((m.run pre).step (t, .backendStatuses)).answers post :=
    fun post => answers_append m pre _
  simp only [hscrape, answers_append m pre]
  constructor
  · intro hsame b hs
    have hm : (withTelemetry routes failureThreshold recoveryThreshold ejectionDuration
        activeSuccessStatusMin activeSuccessStatusMax passiveFailureStatusMin
        passiveFailureStatusMax telemetry).Fresh routes := rfl
    rw [← run_append] at hs
    obtain ⟨post, hpc, hpr, hne⟩ := hm.scrape_visible hk hD hc ht hs
    rw [run_append] at hne
    exact hne (List.append_cancel_left (hsame post hpc hpr))
  · intro hstale post _ _
    rw [step_backendStatuses_of_not_stale hstale]

/-- A scrape after the window of the only backend is over: without it a failure that arrives late
    is ignored and the backend is handed out again, with it the same failure ejects the backend. -/
theorem scrape_changes_answer :
    let r : RouteConfig := { pathPrefix := "/api", backends := ["http://127.0.0.1:3001"] }
    let m := (withTelemetry [r] 1 2 10 200 399 500 599 false).run
      [(0, .recordFailure "http://127.0.0.1:3001")]
    let seq : History := [(20, .recordFailure "http://127.0.0.1:3001"), (21, .healthyBackends r)]
    m.answers seq = [["http://127.0.0.1:3001"]] ∧
      m.answers ((20, .backendStatuses) :: seq) = [[]] := by
  decide

/-- The same state before its window is over: the scrape is invisible. -/
theorem scrape_invisible_at_five :
    let r : RouteConfig := { pathPrefix := "/api", backends := ["http://127.0.0.1:3001"] }
    let m := (withTelemetry [r] 1 2 10 200 399 500 599 false).run
      [(0, .recordFailure "http://127.0.0.1:3001")]
    m.answers [(5, .healthyBackends r)] =
      m.answers [(5, .backendStatuses), (5, .healthyBackends r)] := by
  intro r m
  have hc : Chronological ([(0, .recordFailure "http://127.0.0.1:3001")] ++ []) := by
    simp [Chronological]
  refine (scrape_invisible_iff [r] 1 2 10 200 399 500 599 false le_rfl (by decide) hc
    (t := 5) (by simp)).2 ?_ [(5, .healthyBackends r)] (by simp [Chronological])
    (by simp [Routing, r])
  rintro b ⟨st, till, hst, hu, hle⟩
  by_cases hb : b = "http://127.0.0.1:3001"
  · subst hb
    obtain rfl : st = ⟨false, 0, 0, some 10, false⟩ := (Option.some.inj hst).symm
    cases hu
    omega
  · rw [run_nil, get?_run] at hst
    simp [withTelemetry, Table.get?_ofKeys, r, hb] at hst

end HealthManager

end FerrumProxy
