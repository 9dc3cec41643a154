/-
  The health check at startup.

  One pass of active checks runs over the backends of a fresh manager, and the
  routes without an eligible backend abort the startup.  In a validated
  configuration a pass checks every backend once (`IsPass.nodup`), so that a
  backend is ejected by it only under a failure threshold of one
  (`ejections_pass`).
-/
import FerrumProxy.System
import FerrumProxy.Eligibility
import FerrumProxy.Replay

namespace FerrumProxy

open Lib

/-! ## Active checks -/

/-- An active check that has completed: what `check_backend` returned, and when. -/
structure Check where
  backend : String
  endpoint : String
  /-- the status of the response, 502 without one -/
  status : ℕ
  instant : ℕ

/-- `unique_backend_checks` -/
def Config.uniqueBackendChecks (c : Config) : List (String × String) :=
  (c.routes.flatMap fun r => r.backends.map (·, c.endpointOf r)).dedup

/-- A pass that is over at `t`: each pair is checked once, in some order. -/
structure IsPass (c : Config) (checks : List Check) (t : ℕ) : Prop where
  complete : (checks.map fun k => (k.backend, k.endpoint)).Perm c.uniqueBackendChecks
  ordered : checks.Pairwise (·.instant ≤ ·.instant)
  past : ∀ k ∈ checks, k.instant ≤ t

namespace Sys

/-- `run_active_check_pass` -/
def runActiveCheckPass (s : Sys) (checks : List Check) : Sys :=
  checks.foldl (fun s k => { s with now := k.instant }.recordCheck k.backend k.status) s

/-- What `run_startup_health_check` leaves behind. -/
structure StartupReport where
  state : Sys
  /-- the calls of `log_startup_warning` -/
  warnings : List (String × String)
  result : Except String Unit

/-- `AppState::run_startup_health_check`, with the checks of its pass and the instant of the look at
    the pools. -/
def runStartupHealthCheck (P : Setup) (s : Sys) (checks : List Check) (t : ℕ) : StartupReport :=
  let s := s.runActiveCheckPass checks
  let (health, deadPools) := s.health.startupDeadPools t P.config.routes
  let pools := ", ".intercalate deadPools
  { state := { s with health := health, now := t }
    warnings := deadPools.map (·, "all_backends_unavailable")
    result :=
      if P.config.server.failOnStartupDeadPool && !deadPools.isEmpty then
        .error (s!"startup aborted: {deadPools.length} route(s) have no reachable backends: " ++
          s!"{pools}")
      else .ok () }

end Sys

/-! ## One check per backend -/

theorem Config.mem_uniqueBackendChecks {c : Config} {b endpoint : String} :
    (b, endpoint) ∈ c.uniqueBackendChecks ↔
      ∃ r ∈ c.routes, b ∈ r.backends ∧ c.endpointOf r = endpoint := by
  unfold Config.uniqueBackendChecks
  rw [List.mem_dedup, List.mem_flatMap]
  simp

/-- Without conflicting endpoints every backend is in one pair only. -/
theorem Config.nodup_uniqueBackendChecks {c : Config} (hc : c.SameEndpoints) :
    (c.uniqueBackendChecks.map Prod.fst).Nodup := by
  refine (List.nodup_dedup _).map_on ?_
  rintro ⟨b, e⟩ hp ⟨b', e'⟩ hp' heq
  obtain rfl : b = b' := heq
  obtain ⟨r, hr, hb, rfl⟩ := Config.mem_uniqueBackendChecks.1 hp
  obtain ⟨r', hr', hb', rfl⟩ := Config.mem_uniqueBackendChecks.1 hp'
  rw [hc r hr r' hr' b hb hb']

section
variable {U : UrlCrate} {c : Config} {checks : List Check} {t : ℕ}

/-- The backends checked are those of the routes. -/
theorem IsPass.exists_check (hp : IsPass c checks t) {b : String} :
    (∃ k ∈ checks, k.backend = b) ↔ ∃ r ∈ c.routes, b ∈ r.backends := by
  constructor
  · rintro ⟨k, hk, rfl⟩
    have hmem := hp.complete.mem_iff.1 (List.mem_map_of_mem hk)
    obtain ⟨r, hr, hb, -⟩ := Config.mem_uniqueBackendChecks.1 hmem
    exact ⟨r, hr, hb⟩
  · rintro ⟨r, hr, hb⟩
    have hmem := hp.complete.mem_iff.2 (Config.mem_uniqueBackendChecks.2 ⟨r, hr, hb, rfl⟩)
    obtain ⟨k, hk, heq⟩ := List.mem_map.1 hmem
    exact ⟨k, hk, (Prod.mk.inj heq).1⟩

/-- **One check per backend.** In a validated configuration no backend is checked twice. -/
theorem IsPass.nodup (hv : c.validate U = .ok ()) (hp : IsPass c checks t) :
    (checks.map (·.backend)).Nodup := by
  have hnd := (hp.complete.map Prod.fst).nodup_iff.2
    (Config.nodup_uniqueBackendChecks (Config.sameEndpoints hv))
  rwa [List.map_map] at hnd

end

/-! ## The ejections of a pass -/

namespace HealthManager

/-- The calls made by a pass. -/
def passHistory (m : HealthManager) (checks : List Check) : History :=
  checks.map fun k => (k.instant,
    if m.isActiveSuccessStatus k.status then .recordSuccess k.backend else .recordFailure k.backend)

/-- A backend that is not checked keeps its state. -/
theorem runOne_passHistory (m m' : HealthManager) {b : String} {checks : List Check}
    (h : b ∉ checks.map (·.backend)) (st : BackendHealth) :
    m.runOne b st (m'.passHistory checks) = st := by
  induction checks with
  | nil => rfl
  | cons k checks ih =>
    obtain ⟨hne, hrest⟩ := not_or.1 (List.mem_cons.not.1 h)
    have hstep : m.stepOne b st (k.instant, if m'.isActiveSuccessStatus k.status
        then .recordSuccess k.backend else .recordFailure k.backend) = st := by
      split_ifs <;> simp [stepOne, hne]
    rw [passHistory, List.map_cons, runOne, List.foldl_cons, hstep]
    exact ih hrest

theorem ejections_passHistory_of_not_mem (m m' : HealthManager) {b : String} {checks : List Check}
    (h : b ∉ checks.map (·.backend)) : m.ejections b (m'.passHistory checks) = [] := by
  refine ejections_eq_nil (fun e he heq => ?_) m
  obtain ⟨k, hk, rfl⟩ := List.mem_map.1 he
  dsimp only at heq
  split_ifs at heq
  exact h (List.mem_map.2 ⟨k, hk, Event.recordFailure.inj heq⟩)

/-- A pass over a fresh backend ejects it iff its check fails and one failure is enough. -/
theorem ejections_pass {m : HealthManager} {checks : List Check}
    (hnd : (checks.map (·.backend)).Nodup) {k : Check} (hk : k ∈ checks)
    (hst : m.backendHealth.get? k.backend = some .initial) :
    m.ejections k.backend (m.passHistory checks) =
      if m.isActiveSuccessStatus k.status = false ∧ m.failureThreshold ≤ 1 then [k.instant]
      else [] := by
  obtain ⟨pre, post, rfl⟩ := List.append_of_mem hk
  rw [List.map_append, List.map_cons, List.nodup_middle, List.nodup_cons, List.mem_append,
    not_or] at hnd
  obtain ⟨⟨hpre, hpost⟩, -⟩ := hnd
  -- the state of the backend when it is checked
  have hst' : (m.run (m.passHistory pre)).backendHealth.get? k.backend = some .initial := by
    rw [get?_run, hst, Option.map_some, runOne_passHistory m m hpre]
  have hsplit : m.passHistory (pre ++ k :: post) = m.passHistory pre ++ (k.instant,
      if m.isActiveSuccessStatus k.status then .recordSuccess k.backend
      else .recordFailure k.backend) :: m.passHistory post := by
    simp [passHistory]
  rw [hsplit, ejections_append, ejections_passHistory_of_not_mem m m hpre, List.nil_append, ejections,
    ejections_passHistory_of_not_mem _ m hpost, List.append_nil]
  have hth := (m.run_same (m.passHistory pre)).failureThreshold
  cases hs : m.isActiveSuccessStatus k.status <;>
    simp [wouldEject, hst', hth, BackendHealth.ejects, BackendHealth.initial]

/-! ## The dead pools -/

theorem any_eligible_lookAll (m : HealthManager) (now : ℕ) (bs : List String) (b : String) :
    ((m.lookAll now bs).backendHealth.get? b).any (·.eligible now) =
      (m.backendHealth.get? b).any (·.eligible now) := by
  induction bs generalizing m with
  | nil => rfl
  | cons a bs ih => exact (ih _).trans (any_eligible_look m now a b)

/-- **`startup_dead_pools`** names the routes without an eligible backend. -/
theorem startupDeadPools_snd (m : HealthManager) (now : ℕ) (rs : List RouteConfig) :
    (m.startupDeadPools now rs).2 = (rs.filter fun r =>
      r.backends.all fun b => !(m.backendHealth.get? b).any (·.eligible now)).map (·.pathPrefix) := by
  induction rs generalizing m with
  | nil => rfl
  | cons r rs ih =>
    have hempty : (r.backends.filter fun b => (m.backendHealth.get? b).any (·.eligible now)).isEmpty =
        r.backends.all fun b => !(m.backendHealth.get? b).any (·.eligible now) := by
      rw [Bool.eq_iff_iff, List.isEmpty_iff, List.filter_eq_nil_iff]
      simp
    simp only [startupDeadPools, healthyBackends_eq, ih, any_eligible_lookAll, hempty,
      List.filter_cons]
    split_ifs <;> rfl

end HealthManager

/-! ## The verdict at startup -/

/-- The check is not an active success. -/
def Setup.checkFails (P : Setup) (k : Check) : Bool :=
  !P.initial.health.isActiveSuccessStatus k.status

/-- The check of every backend of the route fails. -/
def Setup.AllFail (P : Setup) (checks : List Check) (r : RouteConfig) : Prop :=
  ∀ k ∈ checks, k.backend ∈ r.backends → P.checkFails k

/-- The windows that failed checks of the backends of the route can open are all open at `t`. -/
def Setup.AllOpen (P : Setup) (checks : List Check) (t : ℕ) (r : RouteConfig) : Prop :=
  ∀ k ∈ checks, k.backend ∈ r.backends → t < k.instant + P.initial.health.ejectionDuration

theorem Sys.runActiveCheckPass_health (s : Sys) (checks : List Check) :
    (s.runActiveCheckPass checks).health = s.health.run (s.health.passHistory checks) := by
  induction checks generalizing s with
  | nil => rfl
  | cons k checks ih =>
    refine (ih _).trans ?_
    rw [HealthManager.passHistory, HealthManager.passHistory, List.map_cons, HealthManager.run_cons]
    simp only [Sys.recordCheck, Sys.callHealth, (s.health.step_same _).isActiveSuccessStatus]

section
variable {P : Setup} {checks : List Check} {t : ℕ}

theorem IsPass.chronological (hp : IsPass P.config checks t) :
    HealthManager.Chronological (P.initial.health.passHistory checks) := by
  unfold HealthManager.Chronological HealthManager.passHistory
  exact List.pairwise_map.2 hp.ordered

/-- A backend is not eligible after the pass iff its check failed, one failure is enough and the
    window is still open. -/
theorem IsPass.eligible_iff (hv : P.config.validate P.url = .ok ()) (hp : IsPass P.config checks t)
    {k : Check} (hk : k ∈ checks) :
    ((P.initial.health.run (P.initial.health.passHistory checks)).backendHealth.get? k.backend).any
      (·.eligible t) = false ↔ P.config.healthCheck.failureThreshold = 1 ∧ P.checkFails k ∧
        t < k.instant + P.initial.health.ejectionDuration := by
  have hknown := hp.exists_check.1 ⟨k, hk, rfl⟩
  have hst₀ : P.initial.health.backendHealth.get? k.backend = some .initial := by
    rw [P.fresh, Table.get?_ofKeys, if_pos (List.mem_flatMap.2 hknown)]
  have hpos := HealthCheckConfig.failureThreshold_pos (Config.validate_ok.1 hv).2.2.2.1
  have hth : P.initial.health.failureThreshold = P.config.healthCheck.failureThreshold := rfl
  have hpast : ∀ e ∈ P.initial.health.passHistory checks, e.1 ≤ t := by
    intro e he
    obtain ⟨k', hk', rfl⟩ := List.mem_map.1 he
    exact hp.past k' hk'
  obtain ⟨st, hst⟩ := Option.isSome_iff_exists.1 ((P.fresh.isSome_iff
    (P.initial.health.passHistory checks) k.backend).2 hknown)
  have helig := P.fresh.eligible_iff hp.chronological hpast hst
  rw [HealthManager.ejections_pass (hp.nodup hv) hk hst₀, hth] at helig
  rw [hst, Option.any_some, Bool.eq_false_iff, ne_eq, helig, not_not, Setup.checkFails]
  split_ifs with hcond
  · have hone : P.config.healthCheck.failureThreshold = 1 := le_antisymm hcond.2 hpos
    simp [Covered, hone, hcond.1]
  · refine iff_of_false (covered_nil _ _) fun hn => hcond ⟨by simpa using hn.2.1, hn.1.le⟩

/-- **The verdict.** The startup is aborted iff one failure is enough to eject a backend and some
    route has only backends whose check failed and whose window is still open at the end. -/
theorem IsPass.aborts_iff (hv : P.config.validate P.url = .ok ()) (hp : IsPass P.config checks t)
    (hfail : P.config.server.failOnStartupDeadPool) :
    (P.initial.runStartupHealthCheck P checks t).result ≠ .ok () ↔
      P.config.healthCheck.failureThreshold = 1 ∧
        ∃ r ∈ P.config.routes, P.AllFail checks r ∧ P.AllOpen checks t r := by
  have hresult : (P.initial.runStartupHealthCheck P checks t).result ≠ .ok () ↔
      ((P.initial.runActiveCheckPass checks).health.startupDeadPools t P.config.routes).2 ≠ [] := by
    simp [Sys.runStartupHealthCheck, hfail]
  have hroutes := (validateRoutes_ok.1 (Config.validate_ok.1 hv).2.2.1).1
  rw [hresult, Sys.runActiveCheckPass_health, HealthManager.startupDeadPools_snd, ne_eq,
    List.map_eq_nil_iff, List.filter_eq_nil_iff, not_forall]
  simp only [Classical.not_imp, not_not, List.all_eq_true, Bool.not_eq_true']
  constructor
  · rintro ⟨r, hr, hdead⟩
    have hkey : ∀ k ∈ checks, k.backend ∈ r.backends →
        P.config.healthCheck.failureThreshold = 1 ∧ P.checkFails k ∧
          t < k.instant + P.initial.health.ejectionDuration :=
      fun k hk hb => (hp.eligible_iff hv hk).1 (hdead _ hb)
    obtain ⟨b, hb⟩ := List.exists_mem_of_ne_nil _ (RouteConfig.validate_ok.1 (hroutes r hr).1).2.1
    obtain ⟨k, hk, rfl⟩ := hp.exists_check.2 ⟨r, hr, hb⟩
    exact ⟨(hkey k hk hb).1, r, hr, fun k hk hb => (hkey k hk hb).2.1,
      fun k hk hb => (hkey k hk hb).2.2⟩
  · rintro ⟨hone, r, hr, hall, hopen⟩
    refine ⟨r, hr, fun b hb => ?_⟩
    obtain ⟨k, hk, rfl⟩ := hp.exists_check.2 ⟨r, hr, hb⟩
    exact (hp.eligible_iff hv hk).2 ⟨hone, hall k hk hb, hopen k hk hb⟩

/-- **Dead pools.**  With `fail_on_startup_dead_pool`, a pass of which some route has only failed
    checks aborts the startup, and one in which every route has a success does not, iff every
    route has a success, or one failure ejects a backend and some route without a success has
    all its windows open at the end. -/
theorem dead_pools_abort_iff (hv : P.config.validate P.url = .ok ())
    (hfail : P.config.server.failOnStartupDeadPool) (hp : IsPass P.config checks t) :
    (((∃ r ∈ P.config.routes, P.AllFail checks r) →
        ∃ text, (P.initial.runStartupHealthCheck P checks t).result = .error text) ∧
      ((∀ r ∈ P.config.routes, ∃ k ∈ checks, k.backend ∈ r.backends ∧ P.checkFails k = false) →
        (P.initial.runStartupHealthCheck P checks t).result = .ok ())) ↔
    (∀ r ∈ P.config.routes, ∃ k ∈ checks, k.backend ∈ r.backends ∧ P.checkFails k = false) ∨
      P.config.healthCheck.failureThreshold = 1 ∧
        ∃ r ∈ P.config.routes, P.AllFail checks r ∧ P.AllOpen checks t r := by
  have halive : (∀ r ∈ P.config.routes, ∃ k ∈ checks, k.backend ∈ r.backends ∧
      P.checkFails k = false) ↔ ¬ ∃ r ∈ P.config.routes, P.AllFail checks r := by
    simp [Setup.AllFail]
  have herror : (∃ text, (P.initial.runStartupHealthCheck P checks t).result = .error text) ↔
      (P.initial.runStartupHealthCheck P checks t).result ≠ .ok () := by
    cases (P.initial.runStartupHealthCheck P checks t).result <;> simp
  rw [halive, herror, ← hp.aborts_iff hv hfail]
  -- an abort always has a route without a success
  have hok : (¬ ∃ r ∈ P.config.routes, P.AllFail checks r) →
      (P.initial.runStartupHealthCheck P checks t).result = .ok () := by
    intro hnone
    by_contra hne
    obtain ⟨-, r, hr, hall, -⟩ := (hp.aborts_iff hv hfail).1 hne
    exact hnone ⟨r, hr, hall⟩
  constructor
  · rintro ⟨hdead, -⟩
    by_cases hsome : ∃ r ∈ P.config.routes, P.AllFail checks r
    · exact Or.inr (hdead hsome)
    · exact Or.inl hsome
  · rintro (hnone | hne)
    · exact ⟨fun hsome => absurd hsome hnone, hok⟩
    · exact ⟨fun _ => hne, hok⟩

end

/-- One route whose only backend answers 500 at startup. -/
def deadSetup (failureThreshold : ℕ) : Setup :=
  let P := small ["http://127.0.0.1:3001"] failureThreshold 1 100
  { P with config := { P.config with
      server := { P.config.server with failOnStartupDeadPool := true } } }

/-- The pass over `deadSetup`. -/
def deadPass : List Check := [⟨"http://127.0.0.1:3001", "/health", 500, 5⟩]

theorem isPass_deadPass (failureThreshold : ℕ) : IsPass (deadSetup failureThreshold).config deadPass 6 :=
  ⟨.of_eq rfl, by simp [deadPass], by simp [deadPass]⟩

/-- Under a threshold of one the startup is aborted. -/
theorem dead_pool_aborts : let P := deadSetup 1
    ∃ text, (P.initial.runStartupHealthCheck P deadPass 6).result = .error text := by
  intro P
  have hall : ∃ r ∈ P.config.routes, P.AllFail deadPass r ∧ P.AllOpen deadPass 6 r :=
    ⟨_, List.mem_singleton_self _, by simp [Setup.AllFail, deadPass]; decide +kernel,
      by simp [Setup.AllOpen, deadPass]; decide +kernel⟩
  obtain ⟨r, hr, hfail, -⟩ := id hall
  exact ((dead_pools_abort_iff (by decide +kernel) rfl (isPass_deadPass 1)).2
    (Or.inr ⟨rfl, hall⟩)).1 ⟨r, hr, hfail⟩

/-- Under a threshold of two the same pass leaves the backend eligible, and the startup goes on. -/
theorem dead_pool_passes : let P := deadSetup 2
    P.config.validate P.url = .ok () ∧ P.config.server.failOnStartupDeadPool = true ∧
      IsPass P.config deadPass 6 ∧ (∀ r ∈ P.config.routes, P.AllFail deadPass r) ∧
      (P.initial.runStartupHealthCheck P deadPass 6).result = .ok () := by
  intro P
  refine ⟨by decide +kernel, rfl, isPass_deadPass 2, ?_, by decide +kernel⟩
  intro r _ k hk _
  obtain rfl := List.mem_singleton.1 hk
  decide +kernel

end FerrumProxy
