/-
  The race at startup.

  `run_with_shutdown_kind` spawns the background checks before the health check at
  startup, so that checks of both are recorded in any order before the look at the
  pools.  Whatever the order, a route is reported iff every backend of it has failed
  `failure_threshold` checks in a row by then (`startup_race`): under a threshold of
  two it is the order that decides.
-/
import FerrumProxy.Evidence
import FerrumProxy.Startup

namespace FerrumProxy

open Lib HealthManager

/-- The outcomes of the checks of a backend, of whichever pass; `true` is a failure. -/
def Setup.failuresOf (P : Setup) (checks : List Check) (b : String) : List Bool :=
  (checks.filter (·.backend = b)).map P.checkFails

/-- Every backend of the route has failed `failure_threshold` checks in a row. -/
def Setup.Dead (P : Setup) (checks : List Check) (r : RouteConfig) : Prop :=
  ∀ b ∈ r.backends,
    List.replicate P.config.healthCheck.failureThreshold true <:+: P.failuresOf checks b
deriving Decidable

section
variable {P : Setup} {checks : List Check} {t : ℕ}

/-- The calls of the checks tell their outcomes. -/
theorem verdicts_passHistory (b : String) :
    verdicts b (P.initial.health.passHistory checks) = P.failuresOf checks b := by
  unfold Setup.failuresOf
  induction checks with
  | nil => rfl
  | cons k checks ih =>
    rw [passHistory, List.map_cons, verdicts_cons]
    change _ ++ verdicts b (P.initial.health.passHistory checks) = _
    rw [ih, List.filter_cons]
    by_cases hb : k.backend = b
    · cases hs : P.initial.health.isActiveSuccessStatus k.status <;>
        simp [hb, hs, Event.verdict, Setup.checkFails]
    · cases P.initial.health.isActiveSuccessStatus k.status <;> simp [hb, Event.verdict]

/-- As long as no window has ended, a backend is not eligible iff it has failed `failure_threshold`
    checks in a row. -/
theorem race_eligible_iff (hv : P.config.validate P.url = .ok ())
    (hord : checks.Pairwise (·.instant ≤ ·.instant))
    (hopen : ∀ k ∈ checks, k.instant ≤ t ∧ t < k.instant + P.initial.health.ejectionDuration)
    {b : String} (hb : ∃ r ∈ P.config.routes, b ∈ r.backends) :
    ((P.initial.health.run (P.initial.health.passHistory checks)).backendHealth.get? b).any
      (·.eligible t) = false ↔
    List.replicate P.config.healthCheck.failureThreshold true <:+: P.failuresOf checks b := by
  have hst₀ : P.initial.health.backendHealth.get? b = some .initial := by
    rw [P.fresh, Table.get?_ofKeys, if_pos (List.mem_flatMap.2 hb)]
  have hpos : 0 < P.initial.health.failureThreshold :=
    HealthCheckConfig.failureThreshold_pos (Config.validate_ok.1 hv).2.2.2.1
  have hc : Chronological (P.initial.health.passHistory checks) := by
    unfold Chronological passHistory
    exact List.pairwise_map.2 hord
  have hinstant : ∀ e ∈ P.initial.health.passHistory checks, ∃ k ∈ checks, k.instant = e.1 := by
    intro e he
    obtain ⟨k, hk, rfl⟩ := List.mem_map.1 he
    exact ⟨k, hk, rfl⟩
  have hpast : ∀ e ∈ P.initial.health.passHistory checks, e.1 ≤ t := by
    intro e he
    obtain ⟨k, hk, hke⟩ := hinstant e he
    exact hke ▸ (hopen k hk).1
  -- every window is still open, so one ejection is enough
  have hcovered : Covered P.initial.health.ejectionDuration
      (P.initial.health.ejections b (P.initial.health.passHistory checks)) t ↔
      P.initial.health.ejections b (P.initial.health.passHistory checks) ≠ [] := by
    constructor
    · rintro ⟨w, hw, -⟩
      exact List.ne_nil_of_mem hw
    · intro hne
      obtain ⟨w, hw⟩ := List.exists_mem_of_ne_nil _ hne
      obtain ⟨h₁, h₂, -, heq, -, -⟩ := exists_of_mem_ejections hw
      obtain ⟨k, hk, rfl⟩ : ∃ k ∈ checks, k.instant = w :=
        hinstant (w, .recordFailure b) (by simp [heq])
      exact ⟨k.instant, hw, (hopen k hk).2⟩
  have hrow : hits P.initial.health.failureThreshold 0 (P.failuresOf checks b) ↔
      List.replicate P.initial.health.failureThreshold true <:+: P.failuresOf checks b := by
    rw [hits_iff hpos, Nat.sub_zero]
    exact or_iff_right_of_imp List.IsPrefix.isInfix
  obtain ⟨st, hst⟩ := Option.isSome_iff_exists.1
    ((P.fresh.isSome_iff (P.initial.health.passHistory checks) b).2 hb)
  have helig := P.fresh.eligible_iff hc hpast hst
  have hejected := ejections_ne_nil_iff (h := P.initial.health.passHistory checks) hst₀ rfl rfl rfl
  rw [verdicts_passHistory] at hejected
  rw [hst, Option.any_some, Bool.eq_false_iff, ne_eq, helig, not_not, hcovered, hejected]
  exact hrow

end

/-- Three checks of the only backend of `deadSetup`, with their statuses. -/
def threeChecks (first second third : ℕ) : List Check :=
  [⟨"http://127.0.0.1:3001", "/health", first, 5⟩, ⟨"http://127.0.0.1:3001", "/health", second, 6⟩,
    ⟨"http://127.0.0.1:3001", "/health", third, 7⟩]

end FerrumProxy
