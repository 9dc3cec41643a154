/-
  The configuration (`src/config/mod.rs`): its data, its defaults and its
  validation with the error texts.

  Reading the file and parsing YAML are left out; a `Config` is what serde
  produces.  `validate` makes the checks in the order of the source, so that the
  first failing one gives the error.
-/
import FerrumProxy.Url
import Mathlib.Data.List.Basic

namespace FerrumProxy

/-! ## Data -/

/-- `ServerConfig` -/
structure ServerConfig where
  port : ℕ
  host : String
  gracefulShutdownTimeoutMs : ℕ := 30000
  clientHeaderTimeoutMs : ℕ := 10000
  clientBodyTimeoutMs : ℕ := 15000
  /-- abort startup if any route has no reachable backends after the initial health check pass. -/
  failOnStartupDeadPool : Bool := false
deriving DecidableEq, Repr

/-- `BalancingStrategy` -/
inductive BalancingStrategy where
  | roundRobin
  | firstHealthy
deriving DecidableEq, Repr

/-- `RouteConfig` -/
structure RouteConfig where
  pathPrefix : String
  backends : List String
  balancing : BalancingStrategy := .roundRobin
  retryOnStatuses : List ℕ := []
  passiveFailureStatuses : List ℕ := []
  healthCheckEndpoint : Option String := none
  connectTimeoutMs : Option ℕ := none
  readTimeoutMs : Option ℕ := none
  clientBodyTimeoutMs : Option ℕ := none
deriving DecidableEq, Repr

/-- `HealthCheckConfig` -/
structure HealthCheckConfig where
  intervalSec : ℕ := 10
  endpoint : String := "/health"
  checkTimeoutMs : ℕ := 5000
  failureThreshold : ℕ := 3
  recoveryThreshold : ℕ := 2
  ejectionDurationMs : ℕ := 30000
  activeSuccessStatusMin : ℕ := 200
  activeSuccessStatusMax : ℕ := 399
  passiveFailureStatusMin : ℕ := 500
  passiveFailureStatusMax : ℕ := 599
deriving DecidableEq, Repr

/-- `UpstreamConfig` -/
structure UpstreamConfig where
  connectTimeoutMs : ℕ := 3000
  readTimeoutMs : ℕ := 15000
  maxRequestBodyBytes : ℕ := 16 * 1024 * 1024
  maxResponseBodyBytes : ℕ := 64 * 1024 * 1024
  /-- maximum number of request bodies that may be buffered in memory simultaneously. -/
  maxBufferedBodies : ℕ := 100
deriving DecidableEq, Repr

/-- `RetryConfig` -/
structure RetryConfig where
  maxAttempts : ℕ := 1
  totalTimeoutMs : ℕ := 5000
  backoffMs : ℕ := 50
  retryOnStatuses : List ℕ := [502, 503, 504]
  retryIdempotentMethods : Bool := false
deriving DecidableEq, Repr

/-- `DebugConfig` -/
structure DebugConfig where
  exposeBackendHealth : Bool := true
  exposeMetrics : Bool := true
  authToken : Option String := none
deriving DecidableEq, Repr

/-- `Config` -/
structure Config where
  server : ServerConfig
  routes : List RouteConfig
  healthCheck : HealthCheckConfig
  upstream : UpstreamConfig := {}
  retry : RetryConfig := {}
  debug : DebugConfig := {}
deriving DecidableEq, Repr

/-- The validation branch of `ConfigError`, with its text. -/
inductive ConfigError where
  | validation (message : String)
deriving DecidableEq, Repr

/-! ## Durations -/

/-- `Duration::from_millis`; durations and instants are in nanoseconds. -/
def fromMillis (ms : ℕ) : ℕ := ms * 1000000

/-! ## Checks -/

/-- A single check with the error it raises. -/
def ensure (ok : Bool) (message : String) : Except ConfigError Unit :=
  if ok then .ok () else .error (.validation message)

/-- Run a check on every member of a list, stopping at the first error. -/
def ensureAll {α : Type} (check : α → Except ConfigError Unit) : List α → Except ConfigError Unit
  | [] => .ok ()
  | a :: as => do check a; ensureAll check as

/-- The checks of the form `if self.field == 0`. -/
def ensurePos (field : String) (value : ℕ) : Except ConfigError Unit :=
  ensure (value != 0) s!"{field} must be greater than 0"

/-- `char::is_whitespace`: the Unicode property `White_Space`. -/
def isWhitespace (c : Char) : Bool :=
  (0x9 ≤ c.toNat && c.toNat ≤ 0xD) || c.toNat == 0x20 || c.toNat == 0x85 || c.toNat == 0xA0 ||
    c.toNat == 0x1680 || (0x2000 ≤ c.toNat && c.toNat ≤ 0x200A) || c.toNat == 0x2028 ||
    c.toNat == 0x2029 || c.toNat == 0x202F || c.toNat == 0x205F || c.toNat == 0x3000

/-- `s.trim().is_empty()` -/
def isBlank (s : String) : Bool := s.toList.all isWhitespace

/-- `s.starts_with('/')` -/
def startsWithSlash (s : String) : Bool := s.toList.head? == some '/'

@[simp] theorem ensure_ok {ok : Bool} {message : String} :
    ensure ok message = .ok () ↔ ok = true := by
  cases ok <;> simp [ensure]

@[simp] theorem ensurePos_ok {field : String} {value : ℕ} :
    ensurePos field value = .ok () ↔ value ≠ 0 := by
  simp [ensurePos]

/-- A sequence of two checks passes iff both do. -/
theorem check_bind_ok {x y : Except ConfigError Unit} :
    (x >>= fun _ => y) = .ok () ↔ x = .ok () ∧ y = .ok () := by
  cases x with
  | error e => simp [bind, Except.bind]
  | ok u => simp [bind, Except.bind]

@[simp] theorem ensureAll_ok {α : Type} {check : α → Except ConfigError Unit} {as : List α} :
    ensureAll check as = .ok () ↔ ∀ a ∈ as, check a = .ok () := by
  induction as with
  | nil => simp [ensureAll]
  | cons a as ih => simp [ensureAll, check_bind_ok, ih]

/-! ## Validation -/

/-- `ServerConfig::validate` -/
def ServerConfig.validate (c : ServerConfig) : Except ConfigError Unit := do
  ensurePos "server.port" c.port
  ensure (!isBlank c.host) "server.host must not be empty"
  ensurePos "server.graceful_shutdown_timeout_ms" c.gracefulShutdownTimeoutMs
  ensurePos "server.client_header_timeout_ms" c.clientHeaderTimeoutMs
  ensurePos "server.client_body_timeout_ms" c.clientBodyTimeoutMs

/-- The three optional timeouts of a route are checked alike. -/
def ensureTimeout (r : RouteConfig) (field : String) (timeout : Option ℕ) :
    Except ConfigError Unit :=
  ensure (timeout != some 0) s!"route '{r.pathPrefix}' {field} must be greater than 0"

/-- The two status lists of a route are checked alike. -/
def ensureStatuses (r : RouteConfig) (field : String) (statuses : List ℕ) :
    Except ConfigError Unit :=
  ensureAll (fun status => ensure (100 ≤ status)
    s!"route '{r.pathPrefix}' {field} contains invalid status code '{status}'") statuses

/-- The checks made on one backend of a route. -/
def RouteConfig.validateBackend (U : UrlCrate) (r : RouteConfig) (backend : String) :
    Except ConfigError Unit :=
  match U.parse backend with
  | .error err => .error (.validation
      s!"route '{r.pathPrefix}' has invalid backend URL '{backend}': {err}")
  | .ok parsed =>
    if parsed.scheme = "http" then
      ensure parsed.host.isSome s!"route '{r.pathPrefix}' backend '{backend}' must include a host"
    else if parsed.scheme = "https" then .error (.validation
      (s!"route '{r.pathPrefix}' backend '{backend}' uses https, but ferrum-proxy does not " ++
        "terminate or originate TLS yet; place it behind a trusted TLS-terminating proxy or use " ++
        "plain http upstreams"))
    else .error (.validation
      s!"route '{r.pathPrefix}' uses unsupported backend scheme '{parsed.scheme}' in '{backend}'")

/-- `RouteConfig::validate` -/
def RouteConfig.validate (U : UrlCrate) (r : RouteConfig) : Except ConfigError Unit := do
  ensure (startsWithSlash r.pathPrefix) s!"route prefix '{r.pathPrefix}' must start with '/'"
  ensure (!r.backends.isEmpty) s!"route '{r.pathPrefix}' must define at least one backend"
  ensureStatuses r "retry_on_statuses" r.retryOnStatuses
  ensureStatuses r "passive_failure_statuses" r.passiveFailureStatuses
  ensure (r.healthCheckEndpoint.all startsWithSlash)
    s!"route '{r.pathPrefix}' health_check_endpoint must start with '/'"
  ensureTimeout r "connect_timeout_ms" r.connectTimeoutMs
  ensureTimeout r "read_timeout_ms" r.readTimeoutMs
  ensureTimeout r "client_body_timeout_ms" r.clientBodyTimeoutMs
  ensureAll (r.validateBackend U) r.backends

/-- `HealthCheckConfig::validate` -/
def HealthCheckConfig.validate (c : HealthCheckConfig) : Except ConfigError Unit := do
  ensurePos "health_check.interval_sec" c.intervalSec
  ensure (startsWithSlash c.endpoint) "health_check.endpoint must start with '/'"
  ensurePos "health_check.check_timeout_ms" c.checkTimeoutMs
  ensurePos "health_check.failure_threshold" c.failureThreshold
  ensurePos "health_check.recovery_threshold" c.recoveryThreshold
  ensurePos "health_check.ejection_duration_ms" c.ejectionDurationMs
  ensure (!(c.activeSuccessStatusMin == 0 || c.activeSuccessStatusMax < c.activeSuccessStatusMin))
    "health_check active success status range must be valid"
  ensure
    (!(c.passiveFailureStatusMin == 0 || c.passiveFailureStatusMax < c.passiveFailureStatusMin))
    "health_check passive failure status range must be valid"

/-- `UpstreamConfig::validate` -/
def UpstreamConfig.validate (c : UpstreamConfig) : Except ConfigError Unit := do
  ensurePos "upstream.connect_timeout_ms" c.connectTimeoutMs
  ensurePos "upstream.read_timeout_ms" c.readTimeoutMs
  ensurePos "upstream.max_request_body_bytes" c.maxRequestBodyBytes
  ensurePos "upstream.max_response_body_bytes" c.maxResponseBodyBytes
  ensurePos "upstream.max_buffered_bodies" c.maxBufferedBodies

/-- `RetryConfig::validate` -/
def RetryConfig.validate (c : RetryConfig) : Except ConfigError Unit := do
  ensurePos "retry.max_attempts" c.maxAttempts
  ensurePos "retry.total_timeout_ms" c.totalTimeoutMs
  ensureAll (fun status => ensure (100 ≤ status)
    s!"retry.retry_on_statuses contains invalid status code '{status}'") c.retryOnStatuses

/-- `DebugConfig::validate` -/
def DebugConfig.validate (c : DebugConfig) : Except ConfigError Unit :=
  ensure (!c.authToken.any isBlank) "debug.auth_token must not be empty when provided"

/-- The loop over the routes in `Config::validate`; `seen` are the prefixes met so far. -/
def validateRoutes (U : UrlCrate) : List String → List RouteConfig → Except ConfigError Unit
  | _, [] => .ok ()
  | seen, r :: rs => do
    r.validate U
    ensure (r.pathPrefix ∉ seen) s!"duplicate route prefix '{r.pathPrefix}'"
    validateRoutes U (r.pathPrefix :: seen) rs

/-- The health endpoint of a route: its override or the global one. -/
def Config.endpointOf (c : Config) (r : RouteConfig) : String :=
  r.healthCheckEndpoint.getD c.healthCheck.endpoint

/-- The check made when `endpoint_by_backend.insert` finds a previous endpoint. -/
def ensureSameEndpoint (backend endpoint : String) : Option String → Except ConfigError Unit
  | none => .ok ()
  | some previous => ensure (previous = endpoint)
      (s!"backend '{backend}' is used by multiple routes with conflicting health check " ++
        s!"endpoints ('{previous}' vs '{endpoint}')")

/-- The inner loop of `validate_route_health_endpoint_overrides`: the backends of one route, with
    the endpoints inserted so far. -/
def insertEndpoints (endpoint : String) :
    (String → Option String) → List String → Except ConfigError (String → Option String)
  | endpoints, [] => .ok endpoints
  | endpoints, b :: bs => do
    ensureSameEndpoint b endpoint (endpoints b)
    insertEndpoints endpoint (Function.update endpoints b (some endpoint)) bs

/-- The outer loop of `validate_route_health_endpoint_overrides`. -/
def insertRouteEndpoints (c : Config) :
    (String → Option String) → List RouteConfig → Except ConfigError (String → Option String)
  | endpoints, [] => .ok endpoints
  | endpoints, r :: rs => do
    insertRouteEndpoints c (← insertEndpoints (c.endpointOf r) endpoints r.backends) rs

/-- `Config::validate_route_health_endpoint_overrides` -/
def Config.validateRouteHealthEndpointOverrides (c : Config) : Except ConfigError Unit := do
  let _ ← insertRouteEndpoints c (fun _ => none) c.routes

/-- `Config::validate` -/
def Config.validate (U : UrlCrate) (c : Config) : Except ConfigError Unit := do
  c.server.validate
  ensure (!c.routes.isEmpty) "at least one route must be configured"
  validateRoutes U [] c.routes
  c.healthCheck.validate
  c.upstream.validate
  c.retry.validate
  c.debug.validate
  c.validateRouteHealthEndpointOverrides

/-! ## What validation guarantees -/

theorem RetryConfig.validate_ok {c : RetryConfig} : c.validate = .ok () ↔
    c.maxAttempts ≠ 0 ∧ c.totalTimeoutMs ≠ 0 ∧ ∀ status ∈ c.retryOnStatuses, 100 ≤ status := by
  simp [RetryConfig.validate, check_bind_ok]

/-- A list of routes is accepted iff each route is and no two of them have the same prefix. -/
theorem validateRoutes_ok {U : UrlCrate} {seen : List String} {rs : List RouteConfig} :
    validateRoutes U seen rs = .ok () ↔
      (∀ r ∈ rs, r.validate U = .ok () ∧ r.pathPrefix ∉ seen) ∧ (rs.map (·.pathPrefix)).Nodup := by
  induction rs generalizing seen with
  | nil => simp [validateRoutes]
  | cons r rs ih =>
    rw [List.forall_mem_cons]
    simp only [validateRoutes, check_bind_ok, ensure_ok, decide_eq_true_eq, ih, List.map_cons,
      List.nodup_cons, List.mem_cons, List.mem_map, not_or, not_exists, not_and]
    constructor
    · rintro ⟨hr, hseen, hrs, hnd⟩
      exact ⟨⟨⟨hr, hseen⟩, fun r' hr' => ⟨(hrs r' hr').1, (hrs r' hr').2.2⟩⟩,
        fun r' hr' => (hrs r' hr').2.1, hnd⟩
    · rintro ⟨⟨⟨hr, hseen⟩, hrs⟩, hne, hnd⟩
      exact ⟨hr, hseen, fun r' hr' => ⟨(hrs r' hr').1, hne r' hr', (hrs r' hr').2⟩, hnd⟩

theorem RouteConfig.validateBackend_ok {U : UrlCrate} {r : RouteConfig} {backend : String} :
    r.validateBackend U backend = .ok () ↔
      ∃ url, U.parse backend = .ok url ∧ url.scheme = "http" ∧ url.host.isSome := by
  unfold RouteConfig.validateBackend
  cases U.parse backend with
  | error err => simp
  | ok url => by_cases h : url.scheme = "http" <;> by_cases h' : url.scheme = "https" <;> simp [h, h']

theorem RouteConfig.validate_ok {U : UrlCrate} {r : RouteConfig} : r.validate U = .ok () ↔
    startsWithSlash r.pathPrefix ∧ r.backends ≠ [] ∧ (∀ status ∈ r.retryOnStatuses, 100 ≤ status) ∧
      (∀ status ∈ r.passiveFailureStatuses, 100 ≤ status) ∧
      r.healthCheckEndpoint.all startsWithSlash ∧ r.connectTimeoutMs ≠ some 0 ∧
      r.readTimeoutMs ≠ some 0 ∧ r.clientBodyTimeoutMs ≠ some 0 ∧
      ∀ b ∈ r.backends, r.validateBackend U b = .ok () := by
  simp [RouteConfig.validate, check_bind_ok, ensureStatuses, ensureTimeout]

theorem HealthCheckConfig.failureThreshold_pos {c : HealthCheckConfig} (h : c.validate = .ok ()) :
    0 < c.failureThreshold := by
  simp only [HealthCheckConfig.validate, check_bind_ok, ensurePos_ok] at h
  exact Nat.pos_of_ne_zero h.2.2.2.1

/-- **Validation.** A configuration is accepted iff each of its parts is. -/
theorem Config.validate_ok {U : UrlCrate} {c : Config} : c.validate U = .ok () ↔
    c.server.validate = .ok () ∧ c.routes ≠ [] ∧ validateRoutes U [] c.routes = .ok () ∧
      c.healthCheck.validate = .ok () ∧ c.upstream.validate = .ok () ∧ c.retry.validate = .ok () ∧
      c.debug.validate = .ok () ∧ c.validateRouteHealthEndpointOverrides = .ok () := by
  simp [Config.validate, check_bind_ok]

/-- The routes of a validated configuration have distinct prefixes. -/
theorem Config.nodup_pathPrefix {U : UrlCrate} {c : Config} (hv : c.validate U = .ok ()) :
    (c.routes.map (·.pathPrefix)).Nodup :=
  (validateRoutes_ok.1 (Config.validate_ok.1 hv).2.2.1).2

/-- The endpoints inserted before are kept, and the backends of the route get its endpoint. -/
theorem insertEndpoints_ok {endpoint : String} {f f' : String → Option String} {bs : List String}
    (h : insertEndpoints endpoint f bs = .ok f') :
    (∀ b p, f b = some p → f' b = some p) ∧ ∀ b ∈ bs, f' b = some endpoint := by
  induction bs generalizing f with
  | nil =>
    obtain rfl : f = f' := Except.ok.inj h
    exact ⟨fun _ _ hp => hp, by simp⟩
  | cons b bs ih =>
    simp only [insertEndpoints] at h
    cases hsame : ensureSameEndpoint b endpoint (f b) with
    | error err => rw [hsame] at h; cases h
    | ok u =>
      rw [hsame] at h
      obtain ⟨hkeep, hset⟩ := ih h
      have hb : f' b = some endpoint := hkeep b endpoint (by simp)
      refine ⟨fun b' p hp => ?_, List.forall_mem_cons.2 ⟨hb, hset⟩⟩
      by_cases hbb : b' = b
      · subst hbb
        rw [hp] at hsame
        rw [hb, of_decide_eq_true (ensure_ok.1 hsame)]
      · exact hkeep b' p (by rwa [Function.update_of_ne hbb])

theorem insertRouteEndpoints_ok {c : Config} {f f' : String → Option String}
    {rs : List RouteConfig} (h : insertRouteEndpoints c f rs = .ok f') :
    (∀ b p, f b = some p → f' b = some p) ∧
      ∀ r ∈ rs, ∀ b ∈ r.backends, f' b = some (c.endpointOf r) := by
  induction rs generalizing f with
  | nil =>
    obtain rfl : f = f' := Except.ok.inj h
    exact ⟨fun _ _ hp => hp, by simp⟩
  | cons r rs ih =>
    simp only [insertRouteEndpoints] at h
    cases hr : insertEndpoints (c.endpointOf r) f r.backends with
    | error err => rw [hr] at h; cases h
    | ok f₁ =>
      rw [hr] at h
      obtain ⟨hkeep₁, hset₁⟩ := insertEndpoints_ok hr
      obtain ⟨hkeep, hset⟩ := ih h
      refine ⟨fun b p hp => hkeep b p (hkeep₁ b p hp), List.forall_mem_cons.2 ⟨?_, hset⟩⟩
      exact fun b hb => hkeep b _ (hset₁ b hb)

/-- Without a conflict all backends of the route are inserted. -/
theorem insertEndpoints_eq {endpoint : String} {f : String → Option String} {bs : List String}
    (h : ∀ b ∈ bs, ∀ p, f b = some p → p = endpoint) :
    insertEndpoints endpoint f bs = .ok fun b => if b ∈ bs then some endpoint else f b := by
  induction bs generalizing f with
  | nil => simp [insertEndpoints]
  | cons b bs ih =>
    obtain ⟨hb, hbs⟩ := List.forall_mem_cons.1 h
    have hsame : ensureSameEndpoint b endpoint (f b) = .ok () := by
      cases hf : f b with
      | none => rfl
      | some p => exact ensure_ok.2 (decide_eq_true (hb p hf))
    have hrest : ∀ b' ∈ bs, ∀ p, Function.update f b (some endpoint) b' = some p →
        p = endpoint := by
      intro b' hb' p hp
      by_cases hbb : b' = b
      · rw [hbb, Function.update_self] at hp
        exact (Option.some.inj hp).symm
      · rw [Function.update_of_ne hbb] at hp
        exact hbs b' hb' p hp
    simp only [insertEndpoints, hsame]
    refine (ih hrest).trans (congrArg Except.ok ?_)
    funext b'
    by_cases hbb : b' = b
    · simp [hbb]
    · simp [hbb, Function.update_of_ne]

/-- Any two routes that share a backend have the same health endpoint. -/
def Config.SameEndpoints (c : Config) : Prop :=
  ∀ r ∈ c.routes, ∀ r' ∈ c.routes, ∀ b ∈ r.backends, b ∈ r'.backends →
    c.endpointOf r = c.endpointOf r'

theorem insertRouteEndpoints_exists {c : Config} {f : String → Option String}
    {rs : List RouteConfig}
    (hf : ∀ r ∈ rs, ∀ b ∈ r.backends, ∀ p, f b = some p → p = c.endpointOf r)
    (hrs : ∀ r ∈ rs, ∀ r' ∈ rs, ∀ b ∈ r.backends, b ∈ r'.backends →
      c.endpointOf r = c.endpointOf r') :
    ∃ f', insertRouteEndpoints c f rs = .ok f' := by
  induction rs generalizing f with
  | nil => exact ⟨f, rfl⟩
  | cons r rs ih =>
    obtain ⟨hr, hrest⟩ := List.forall_mem_cons.1 hf
    simp only [insertRouteEndpoints, insertEndpoints_eq hr]
    refine ih (fun r' hr' b hb p hp => ?_) fun r₁ h₁ r₂ h₂ =>
      hrs r₁ (List.mem_cons_of_mem _ h₁) r₂ (List.mem_cons_of_mem _ h₂)
    -- the entry is that of the first route, or was there before
    split_ifs at hp with hbr
    · rw [← Option.some.inj hp]
      exact hrs r (List.mem_cons_self ..) r' (List.mem_cons_of_mem _ hr') b hbr hb
    · exact hrest r' hr' b hb p hp

/-- **The overrides** are accepted iff no two routes conflict on a backend. -/
theorem Config.validateRouteHealthEndpointOverrides_ok {c : Config} :
    c.validateRouteHealthEndpointOverrides = .ok () ↔ c.SameEndpoints := by
  unfold Config.validateRouteHealthEndpointOverrides
  constructor
  · intro hok r hr r' hr' b hb hb'
    cases h : insertRouteEndpoints c (fun _ => none) c.routes with
    | error err => rw [h] at hok; cases hok
    | ok f =>
      have hset := (insertRouteEndpoints_ok h).2
      have heq := (hset r hr b hb).symm.trans (hset r' hr' b hb')
      exact Option.some.inj heq
  · intro hsame
    obtain ⟨f, hf⟩ := insertRouteEndpoints_exists (c := c) (f := fun _ => none) (by simp) hsame
    rw [hf]
    rfl

theorem Config.sameEndpoints {U : UrlCrate} {c : Config} (hv : c.validate U = .ok ()) :
    c.SameEndpoints :=
  Config.validateRouteHealthEndpointOverrides_ok.1 (Config.validate_ok.1 hv).2.2.2.2.2.2.2

end FerrumProxy
