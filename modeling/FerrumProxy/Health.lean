/-
  The health manager (`src/health/mod.rs`): passive and active health state of
  the backends, with temporary ejection and half-open probing.

  Each operation is one atomic step at an instant `now`.  What an operation does
  to one backend is a function on `BackendHealth`; the operations of the manager
  apply it to the entry of the backend they name.  Expiry is lazy: a window that
  is over turns into the half-open state only when `isBackendEjected` looks at it
  (`BackendHealth.look`).

  The two counters are unbounded here.  In the source they are `AtomicUsize`; they
  are compared only while they are below a threshold, so wrapping is not visible.
-/
import FerrumProxy.Telemetry
import Mathlib.Data.List.Sort
import Mathlib.Data.String.Basic

namespace FerrumProxy

open Lib

/-! ## One backend -/

/-- `BackendHealth` -/
structure BackendHealth where
  healthy : Bool
  consecutiveFailures : ℕ
  consecutiveSuccesses : ℕ
  ejectedUntil : Option ℕ
  /-- true while in the half-open window after ejection expires -/
  probing : Bool
deriving DecidableEq, Repr

namespace BackendHealth

/-- `BackendHealth::healthy()`: the state of a new backend. -/
def initial : BackendHealth := ⟨true, 0, 0, none, false⟩

/-- The body of `eject_backend`. -/
def eject (duration now : ℕ) (st : BackendHealth) : BackendHealth :=
  { st with ejectedUntil := some (now + duration) }

/-- The body of `record_success`, with the transition it reports. -/
def recordSuccess (recoveryThreshold : ℕ) (st : BackendHealth) :
    BackendHealth × Option Transition :=
  let st := { st with consecutiveFailures := 0 }
  if st.probing then
    -- in the half-open window a single success restores the backend
    ({ st with probing := false, healthy := true, consecutiveSuccesses := 0 },
      some ⟨"probing", "healthy", "probe_succeeded"⟩)
  else
    let successes := st.consecutiveSuccesses + 1
    if !st.healthy && recoveryThreshold ≤ successes then
      ({ st with healthy := true, consecutiveSuccesses := 0 },
        some ⟨"unhealthy", "healthy", "success_threshold"⟩)
    else ({ st with consecutiveSuccesses := successes }, none)

/-- The body of `record_failure`, with the transition it reports. -/
def recordFailure (failureThreshold duration now : ℕ) (st : BackendHealth) :
    BackendHealth × Option Transition :=
  let st := { st with consecutiveSuccesses := 0 }
  if st.probing then
    -- in the half-open window a single failure ejects the backend again
    (eject duration now { st with probing := false },
      some ⟨"probing", "ejected", "probe_failed"⟩)
  else
    let failures := st.consecutiveFailures + 1
    if st.healthy && failureThreshold ≤ failures then
      (eject duration now { st with healthy := false, consecutiveFailures := 0 },
        some ⟨"healthy", "unhealthy", "failure_threshold"⟩)
    else ({ st with consecutiveFailures := failures }, none)

/-- A failure ejects the backend: it takes the half-open branch or the threshold branch. -/
def ejects (failureThreshold : ℕ) (st : BackendHealth) : Bool :=
  st.probing || (st.healthy && failureThreshold ≤ st.consecutiveFailures + 1)

/-- The answer of `is_backend_ejected`. -/
def ejected (now : ℕ) (st : BackendHealth) : Bool := st.ejectedUntil.any (now < ·)

/-- The side effect of `is_backend_ejected`: a window that is over becomes half-open. -/
def look (now : ℕ) (st : BackendHealth) : BackendHealth :=
  match st.ejectedUntil with
  | some till => if now < till then st else { st with ejectedUntil := none, probing := true }
  | none => st

end BackendHealth

/-! ## The manager -/

/-- `HealthManager` -/
structure HealthManager where
  backendHealth : Table String BackendHealth
  /-- whether a `Telemetry` is attached -/
  telemetry : Bool
  failureThreshold : ℕ
  recoveryThreshold : ℕ
  ejectionDuration : ℕ
  activeSuccessStatusMin : ℕ
  activeSuccessStatusMax : ℕ
  passiveFailureStatusMin : ℕ
  passiveFailureStatusMax : ℕ

namespace HealthManager

/-- `HealthManager::with_telemetry`: one entry for each backend, shared across routes. -/
def withTelemetry (routes : List RouteConfig)
    (failureThreshold recoveryThreshold ejectionDuration : ℕ)
    (activeSuccessStatusMin activeSuccessStatusMax : ℕ)
    (passiveFailureStatusMin passiveFailureStatusMax : ℕ) (telemetry : Bool) : HealthManager where
  backendHealth := .ofKeys (routes.flatMap (·.backends)) fun _ => .initial
  telemetry := telemetry
  failureThreshold := failureThreshold
  recoveryThreshold := recoveryThreshold
  ejectionDuration := ejectionDuration
  activeSuccessStatusMin := activeSuccessStatusMin
  activeSuccessStatusMax := activeSuccessStatusMax
  passiveFailureStatusMin := passiveFailureStatusMin
  passiveFailureStatusMax := passiveFailureStatusMax

/-- Change the state of one backend; nothing happens for an unknown one. -/
def update (m : HealthManager) (backend : String) (f : BackendHealth → BackendHealth) :
    HealthManager :=
  { m with backendHealth := m.backendHealth.modify backend f }

/-- `record_transition` -/
def recordTransition (m : HealthManager) (backend : String) (transition : Option Transition) :
    List Telemetry.Call :=
  if m.telemetry then transition.toList.map (.healthTransition backend) else []

/-- `HealthManager::record_success` -/
def recordSuccess (m : HealthManager) (backend : String) : HealthManager × List Telemetry.Call :=
  match m.backendHealth.get? backend with
  | none => (m, [])
  | some st =>
    (m.update backend fun st => (st.recordSuccess m.recoveryThreshold).1,
      m.recordTransition backend (st.recordSuccess m.recoveryThreshold).2)

/-- `HealthManager::record_failure` -/
def recordFailure (m : HealthManager) (now : ℕ) (backend : String) :
    HealthManager × List Telemetry.Call :=
  match m.backendHealth.get? backend with
  | none => (m, [])
  | some st =>
    (m.update backend fun st => (st.recordFailure m.failureThreshold m.ejectionDuration now).1,
      (if m.telemetry then [.backendFailure backend] else []) ++
        m.recordTransition backend
          (st.recordFailure m.failureThreshold m.ejectionDuration now).2)

/-- `HealthManager::is_backend_ejected`, with its side effect. -/
def isBackendEjected (m : HealthManager) (now : ℕ) (backend : String) : HealthManager × Bool :=
  match m.backendHealth.get? backend with
  | none => (m, false)
  | some st => (m.update backend (·.look now), st.ejected now)

/-- `HealthManager::is_backend_healthy` -/
def isBackendHealthy (m : HealthManager) (backend : String) : Bool :=
  (m.backendHealth.get? backend).any (·.healthy)

/-- `HealthManager::is_backend_probing` -/
def isBackendProbing (m : HealthManager) (backend : String) : Bool :=
  (m.backendHealth.get? backend).any (·.probing)

/-- The filter of `healthy_backends`, from left to right with the side effects of each look. -/
def filterHealthy (now : ℕ) : HealthManager → List String → HealthManager × List String
  | m, [] => (m, [])
  | m, b :: bs =>
    let (m, ejected) := m.isBackendEjected now b
    let keep := !ejected && (m.isBackendHealthy b || m.isBackendProbing b)
    let (m', rest) := filterHealthy now m bs
    (m', if keep then b :: rest else rest)

/-- `HealthManager::healthy_backends` -/
def healthyBackends (m : HealthManager) (now : ℕ) (route : RouteConfig) :
    HealthManager × List String :=
  m.filterHealthy now route.backends

/-- The map of `backend_statuses` over the entries, in the order of the table. -/
def mapStatuses (now : ℕ) : HealthManager → List String → HealthManager × List (String × Bool)
  | m, [] => (m, [])
  | m, b :: bs =>
    let (m, ejected) := m.isBackendEjected now b
    let healthy := m.isBackendHealthy b && !ejected
    let probing := m.isBackendProbing b && !ejected
    let (m', rest) := mapStatuses now m bs
    (m', (b, healthy || probing) :: rest)

/-- `HealthManager::backend_statuses`: the statuses of all backends, sorted by name. -/
def backendStatuses (m : HealthManager) (now : ℕ) : HealthManager × List (String × Bool) :=
  let (m', statuses) := m.mapStatuses now m.backendHealth.keys
  (m', statuses.insertionSort fun left right => left.1 ≤ right.1)

/-- The filter of `startup_dead_pools` over the routes. -/
def startupDeadPools (now : ℕ) : HealthManager → List RouteConfig → HealthManager × List String
  | m, [] => (m, [])
  | m, r :: rs =>
    let (m, healthy) := m.healthyBackends now r
    let (m', rest) := startupDeadPools now m rs
    (m', if healthy.isEmpty then r.pathPrefix :: rest else rest)

/-- `HealthManager::is_passive_failure_status` -/
def isPassiveFailureStatus (m : HealthManager) (status : ℕ) : Bool :=
  m.passiveFailureStatusMin ≤ status && status ≤ m.passiveFailureStatusMax

/-- `HealthManager::is_active_success_status` -/
def isActiveSuccessStatus (m : HealthManager) (status : ℕ) : Bool :=
  m.activeSuccessStatusMin ≤ status && status ≤ m.activeSuccessStatusMax

end HealthManager

end FerrumProxy
