/-
  The request handler (`src/http/mod.rs`), the parts without shared state:
  settings of a route, which requests and responses are retried, the buffering of
  a request body, and the responses the proxy makes itself.
-/
import FerrumProxy.Balancing
import FerrumProxy.Health
import FerrumProxy.Routing
import FerrumProxy.Upstream

namespace FerrumProxy

/-- The immutable part of `AppState`: the configuration, and the URL crate the program is linked
    with. -/
structure Setup where
  config : Config
  url : UrlCrate

/-- A request as hyper hands it over, without its body. -/
structure Request where
  method : Method
  uri : Uri
  headers : HeaderMap
  /-- the IP of `ConnectionInfo::remote_addr` -/
  clientIp : Option String
deriving DecidableEq, Repr

/-! ## Settings -/

/-- `is_retryable_method` -/
def isRetryableMethod (method : Method) (retryIdempotent : Bool) : Bool :=
  method ∈ [Method.get, .head, .options, .trace] ||
    (retryIdempotent && method ∈ [Method.put, .delete])

/-- `should_prebuffer_request` -/
def shouldPrebufferRequest (method : Method) : Bool :=
  !decide (method ∈ [Method.get, .head, .options, .trace])

namespace Setup
variable (P : Setup)

/-- `AppState::route_client_body_timeout` -/
def routeClientBodyTimeout (route : RouteConfig) : ℕ :=
  fromMillis (route.clientBodyTimeoutMs.getD P.config.server.clientBodyTimeoutMs)

/-- `AppState::route_connect_timeout` -/
def routeConnectTimeout (route : RouteConfig) : ℕ :=
  fromMillis (route.connectTimeoutMs.getD P.config.upstream.connectTimeoutMs)

/-- `AppState::route_read_timeout` -/
def routeReadTimeout (route : RouteConfig) : ℕ :=
  fromMillis (route.readTimeoutMs.getD P.config.upstream.readTimeoutMs)

/-- `AppState::should_retry_status`, which is `should_retry_response` -/
def shouldRetryStatus (route : RouteConfig) (status : ℕ) : Bool :=
  (if route.retryOnStatuses.isEmpty then P.config.retry.retryOnStatuses
    else route.retryOnStatuses).contains status

/-- `should_retry_request` -/
def shouldRetryRequest (method : Method) : Bool :=
  1 < P.config.retry.maxAttempts &&
    isRetryableMethod method P.config.retry.retryIdempotentMethods

/-- `total_timeout` of `forward_with_retries` -/
def totalTimeout : ℕ := fromMillis P.config.retry.totalTimeoutMs

/-- The back-off after attempt `attempt`:
    `Duration::from_millis(base.saturating_mul(1u64 << (attempt - 1).min(10)))`. -/
def backoff (attempt : ℕ) : ℕ :=
  fromMillis (min (P.config.retry.backoffMs * 2 ^ min (attempt - 1) 10) (2 ^ 64 - 1))

end Setup

/-- `AppState::is_passive_failure_status` -/
def isPassiveFailureStatus (m : HealthManager) (route : RouteConfig) (status : ℕ) : Bool :=
  if !route.passiveFailureStatuses.isEmpty then route.passiveFailureStatuses.contains status
  else m.isPassiveFailureStatus status

/-! ## Buffering a request body -/

/-- `RequestBufferError` -/
inductive RequestBufferError where
  | tooLarge (limit : ℕ)
  | timedOut (timeout : ℕ)
  | readFailed (err : String)
deriving DecidableEq, Repr

/-- `text_response` -/
def textResponse (status : ℕ) (body : String) : Response := ⟨status, [], .full body⟩

namespace RequestBufferError

/-- `RequestBufferError::kind` -/
def kind : RequestBufferError → String
  | tooLarge _ => "request_body_too_large"
  | timedOut _ => "client_body_timeout"
  | readFailed _ => "client_request_body_read_failed"

/-- `RequestBufferError::into_response` -/
def intoResponse : RequestBufferError → Response
  | tooLarge limit => textResponse 413 s!"request body exceeded {limit} byte limit\n"
  | timedOut timeout =>
    textResponse 408 s!"client request body idle timeout after {timeout / 1000000} ms\n"
  | readFailed err => textResponse 400 s!"failed to read client request body: {err}\n"

end RequestBufferError

/-- The body of the loop of `buffer_request_body`, on one item. -/
def bufferItem (maxBytes idleTimeout : ℕ) (buffered : Bytes) :
    StreamItem → Except RequestBufferError Bytes
  | .data chunk =>
    if maxBytes < buffered.length + chunk.length then .error (.tooLarge maxBytes)
    else .ok (buffered ++ chunk)
  | .readError text => .error (.readFailed text)
  | .idleElapsed => .error (.timedOut idleTimeout)

/-- `buffer_request_body` on a whole body. -/
def bufferRequestBody (maxBytes idleTimeout : ℕ) :
    Bytes → List StreamItem → Except RequestBufferError Bytes
  | buffered, [] => .ok buffered
  | buffered, item :: items => do
    bufferRequestBody maxBytes idleTimeout (← bufferItem maxBytes idleTimeout buffered item) items

/-! ## Internal routes -/

/-- `format!("{id:016x}")` -/
def hex16 (n : ℕ) : String :=
  let digits := Nat.toDigits 16 n
  String.ofList (List.replicate (16 - digits.length) '0' ++ digits)

/-- The name of the correlation header. -/
def requestIdHeader : String := "x-request-id"

/-- `root_response` -/
def rootResponse (P : Setup) : Response :=
  textResponse 200
    s!"ferrum-proxy is running with {P.config.routes.length} configured route(s)\n"

/-- `backend_health_response`, for the statuses it reads. -/
def backendHealthResponse (statuses : List (String × Bool)) : Response :=
  textResponse 200 (String.join (statuses.map fun e =>
    s!"{e.1} " ++ (if e.2 then "healthy" else "unhealthy") ++ "\n"))

/-- `metrics_response`, for the statuses it reads. -/
def metricsResponse (T : Telemetry) (statuses : List (String × Bool)) : Response where
  status := 200
  headers := [("content-type", HeaderValue.ofString "text/plain; version=0.0.4")]
  body := .full (T.renderPrometheus statuses)

/-- `debug_request_authorized` -/
def debugRequestAuthorized (P : Setup) (request : Request) : Bool :=
  match P.config.debug.authToken with
  | none => true
  | some token =>
    (request.headers.get "authorization").bind HeaderValue.toStr == some s!"Bearer {token}"

/-- `unauthorized_debug_response` -/
def unauthorizedDebugResponse : Response where
  status := 401
  headers := [("www-authenticate", HeaderValue.ofString "Bearer")]
  body := .full "debug endpoint requires bearer authentication\n"

/-- What `handle_internal_route` does with a request. -/
inductive Internal where
  | none
  | root
  | health
  | unauthorized
  | backendHealth
  | metrics
deriving DecidableEq, Repr

/-- The `match` of `handle_internal_route`. -/
def internalRoute (P : Setup) (request : Request) : Internal :=
  if request.method ≠ .get then .none
  else if request.uri.path = "/" then .root
  else if request.uri.path = "/health" then .health
  else if request.uri.path = "/health/backends" then
    if !P.config.debug.exposeBackendHealth then .none
    else if !debugRequestAuthorized P request then .unauthorized
    else .backendHealth
  else if request.uri.path = "/metrics" then
    if !P.config.debug.exposeMetrics then .none
    else if !debugRequestAuthorized P request then .unauthorized
    else .metrics
  else .none

end FerrumProxy
