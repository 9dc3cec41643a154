/-
  The running proxy: the shared state of `AppState`, the requests in flight, and
  the steps they take (`handle_request`, `forward_with_retries`,
  `forward_request`, `buffer_request_body`, the response body stream and the
  active checks).

  An async function is a task that stops at its await points.  A step runs the
  code between two await points of one task (or the recording of one active
  check) as a whole, at one instant; the environment decides which step comes
  next, when, and with what the awaited future resolves.  A request may be dropped
  at any await, as happens when its connection goes away.

  What the theorems speak about is written to a log: arrivals, calls of the health
  manager, choices of `select_backend`, upstream attempts, pauses and responses,
  each with its instant.
-/
import FerrumProxy.Http
import FerrumProxy.HealthHistory
import FerrumProxy.Lib.Runs

namespace FerrumProxy

open Lib

/-! ## Tasks -/

/-- The variables of `handle_request` that are alive across its awaits. -/
structure Job where
  /-- the request, with its `x-request-id` header set -/
  request : Request
  route : RouteConfig
  started : ℕ
  requestId : String
deriving DecidableEq, Repr

/-- The client's body while it is streamed to the backend through `limit_body_stream`. -/
inductive Upload where
  | running (seen : ℕ)
  | failed
  | ended
deriving DecidableEq, Repr

/-- The three dispatch paths of `handle_request`, with what they hold during an attempt. -/
inductive Dispatch where
  /-- `forward_with_retries`: the backends attempted, the number of the attempt, the body kept for
      replay -/
  | retry (attempted : List String) (attempt : ℕ) (body : Bytes)
  /-- `forward_request` with a buffered body -/
  | prebuffer (body : Bytes)
  /-- `forward_request` with the body of the client -/
  | stream (upload : Upload)
deriving DecidableEq, Repr

/-- Where a request stands. -/
inductive Task where
  /-- in `buffer_request_body`, holding a permit; the pre-buffer path has chosen a backend -/
  | buffering (job : Job) (chosen : Option String) (buffered : Bytes)
  /-- in `UpstreamClient::forward` -/
  | forwarding (job : Job) (backend : String) (dispatch : Dispatch)
  /-- in the back-off of `forward_with_retries` -/
  | sleeping (job : Job) (attempted : List String) (attempt : ℕ) (body : Bytes) (till : ℕ)
  /-- the response of a backend is returned and its body is being streamed -/
  | responding (job : Job) (backend : String) (seen : ℕ)
  | done
deriving DecidableEq, Repr

/-- On whose account the health manager is called. -/
inductive Source where
  | request (id : ℕ)
  | check
deriving DecidableEq, Repr

/-- The entries of the log. -/
inductive Obs where
  | arrived (id : ℕ) (request : Request)
  | health (source : Source) (event : HealthManager.Event)
  | selected (id : ℕ) (backend : String)
  /-- `UpstreamClient::forward` is called; the last field is the time since `started` -/
  | attempt (id : ℕ) (backend : String) (dispatch : Dispatch)
      (upstream : Except UpstreamError UpstreamRequest) (elapsed : ℕ)
  /-- attempt `attempt` is followed by another one after `length`; `left` is the budget left -/
  | pause (id attempt length left : ℕ)
  | responded (id : ℕ) (response : Response)
deriving DecidableEq

/-- The state of the running proxy. -/
structure Sys where
  health : HealthManager
  balancer : LoadBalancer
  telemetry : Telemetry
  /-- the free permits of `buffer_semaphore` -/
  permits : ℕ
  /-- `REQUEST_ID_COUNTER` -/
  requestIdCounter : ℕ
  tasks : Table ℕ Task
  now : ℕ
  log : List (ℕ × Obs)

/-- `AppState::new` -/
def Setup.initial (P : Setup) : Sys where
  health := .withTelemetry P.config.routes P.config.healthCheck.failureThreshold
    P.config.healthCheck.recoveryThreshold (fromMillis P.config.healthCheck.ejectionDurationMs)
    P.config.healthCheck.activeSuccessStatusMin P.config.healthCheck.activeSuccessStatusMax
    P.config.healthCheck.passiveFailureStatusMin P.config.healthCheck.passiveFailureStatusMax true
  balancer := .new P.config.routes
  telemetry := .new P.config.routes
  permits := P.config.upstream.maxBufferedBodies
  requestIdCounter := 1
  tasks := .empty
  now := 0
  log := []

namespace Sys

/-! ## Elementary effects -/

/-- Write to the log. -/
def emit (s : Sys) (o : Obs) : Sys := { s with log := s.log ++ [(s.now, o)] }

/-- Call the telemetry. -/
def record (s : Sys) (c : Telemetry.Call) : Sys := { s with telemetry := s.telemetry.apply c }

/-- Move a request. -/
def setTask (s : Sys) (id : ℕ) (task : Task) : Sys := { s with tasks := s.tasks.insert id task }

/-- Give back the permit of `buffer_semaphore`. -/
def release (s : Sys) : Sys := { s with permits := s.permits + 1 }

/-- The telemetry calls made by a call of the health manager. -/
def healthCalls (m : HealthManager) (now : ℕ) : HealthManager.Event → List Telemetry.Call
  | .recordSuccess b => (m.recordSuccess b).2
  | .recordFailure b => (m.recordFailure now b).2
  | _ => []

/-- Call the health manager. -/
def callHealth (s : Sys) (source : Source) (e : HealthManager.Event) : Sys :=
  { s with
    health := s.health.step (s.now, e)
    telemetry := (healthCalls s.health s.now e).foldl Telemetry.apply s.telemetry
    log := s.log ++ [(s.now, .health source e)] }

/-! ## Helpers of the handlers -/

/-- The backends that `select_backend` chooses from. -/
def candidates (s : Sys) (route : RouteConfig) (attempted : List String) : List String :=
  (s.health.healthyBackends s.now route).2.filter (· ∉ attempted)

/-- `select_backend`; no set of attempted backends is the same as an empty one. -/
def selectBackend (s : Sys) (id : ℕ) (route : RouteConfig) (attempted : List String) :
    Sys × Option String :=
  let (balancer, choice) := s.balancer.selectBackend route (s.candidates route attempted)
  let s := { s.callHealth (.request id) (.healthyBackends route) with balancer := balancer }
  match choice with
  | some b => (s.emit (.selected id b), some b)
  | none => (s, none)

/-- `complete_request`, without its log line. -/
def completeRequest (s : Sys) (requestId : String) (response : Response) : Sys × Response :=
  (s.record (.responseStatus response.status),
    { response with headers := insertText response.headers requestIdHeader requestId })

/-- `handle_request` returns: the response goes to the client. -/
def respond (s : Sys) (id : ℕ) (task : Task) (response : Response) : Sys :=
  (s.emit (.responded id response)).setTask id task

/-- A response of the proxy itself: the error kind is counted, then `complete_request`. -/
def reject (s : Sys) (id : ℕ) (requestId : String) (kind : Option String) (response : Response) :
    Sys :=
  let s := match kind with
    | some kind => s.record (.proxyError kind)
    | none => s
  let (s, response) := s.completeRequest requestId response
  s.respond id .done response

/-- `no_healthy_backends_response` -/
def noHealthyBackendsResponse (s : Sys) (id : ℕ) (requestId : String) : Sys :=
  s.reject id requestId (some "no_healthy_backends")
    (textResponse 503 "no healthy backends available\n")

/-! ## Forwarding -/

/-- The headers of the request handed to `forward`: `ReplayableRequest::to_request` sets the
    content length. -/
def outgoingHeaders (job : Job) : Dispatch → HeaderMap
  | .retry _ _ body => job.request.headers.insert "content-length"
      (HeaderValue.ofString (toString body.length))
  | _ => job.request.headers

/-- The upstream request of an attempt. -/
def prepareAttempt (P : Setup) (job : Job) (backend : String) (dispatch : Dispatch) :
    Except UpstreamError UpstreamRequest :=
  prepare P.url backend job.request.method job.request.uri (outgoingHeaders job dispatch)
    job.request.clientIp

/-- `forward_request` up to its await. -/
def forwardRequest (P : Setup) (s : Sys) (id : ℕ) (job : Job) (backend : String)
    (dispatch : Dispatch) : Sys :=
  (s.emit (.attempt id backend dispatch (prepareAttempt P job backend dispatch)
    (s.now - job.started))).setTask id (.forwarding job backend dispatch)

/-- The result of `forward`: an error made before the await, or what the await yields. -/
def forwardResult (P : Setup) (job : Job) (backend : String) (dispatch : Dispatch)
    (r : Resolution) : Except UpstreamError Response := do
  let _ ← prepareAttempt P job backend dispatch
  receive (P.routeConnectTimeout job.route) P.config.upstream.maxResponseBodyBytes r

/-- The call of the health manager for a result of `forward`. -/
def outcome (m : HealthManager) (route : RouteConfig) (backend : String) :
    Except UpstreamError Response → HealthManager.Event
  | .ok response =>
    if isPassiveFailureStatus m route response.status then .recordFailure backend
    else .recordSuccess backend
  | .error _ => .recordFailure backend

/-- `forward_request` after its await. -/
def forwardDone (s : Sys) (id : ℕ) (job : Job) (backend : String)
    (result : Except UpstreamError Response) : Sys × Response :=
  let s := s.record (.upstreamLatency (s.now - job.started))
  let s := s.callHealth (.request id) (outcome s.health job.route backend result)
  match result with
  | .ok response => s.completeRequest job.requestId response
  | .error err =>
    (s.record (.proxyError err.kind)).completeRequest job.requestId (badGatewayResponse err)

/-- The task of a request whose response is returned: the body of a backend's response is still
    to be streamed. -/
def afterResponse (job : Job) (backend : String) (response : Response) : Task :=
  match response.body with
  | .upstream => .responding job backend 0
  | .full _ => .done

/-- The loop of `forward_with_retries`, from its head to the next await. -/
def retryLoop (P : Setup) (s : Sys) (id : ℕ) (job : Job) (attempted : List String) (attempt : ℕ)
    (body : Bytes) : Sys :=
  if P.totalTimeout ≤ s.now - job.started then
    s.reject id job.requestId (some "retry_budget_exhausted")
      (textResponse 504 "retry budget exhausted before a successful upstream response\n")
  else
    match s.selectBackend id job.route attempted with
    | (s, none) =>
      if attempt = 1 then s.noHealthyBackendsResponse id job.requestId
      else s.reject id job.requestId (some "retry_exhausted")
        (textResponse 503 "retry attempts exhausted with no healthy backends remaining\n")
    | (s, some b) => s.forwardRequest P id job b (.retry (attempted ++ [b]) attempt body)

/-- The loop of `forward_with_retries`, from the response of an attempt on. -/
def afterAttempt (P : Setup) (s : Sys) (id : ℕ) (job : Job) (backend : String)
    (attempted : List String) (attempt : ℕ) (body : Bytes) (response : Response) : Sys :=
  let elapsed := s.now - job.started
  if !P.shouldRetryStatus job.route response.status || P.config.retry.maxAttempts ≤ attempt ||
      P.totalTimeout ≤ elapsed then
    s.respond id (afterResponse job backend response) response
  else if 0 < P.config.retry.backoffMs then
    if P.totalTimeout - elapsed ≤ P.backoff attempt then
      s.respond id (afterResponse job backend response) response
    else
      (s.emit (.pause id attempt (P.backoff attempt) (P.totalTimeout - elapsed))).setTask id
        (.sleeping job attempted (attempt + 1) body (s.now + P.backoff attempt))
  else
    (s.emit (.pause id attempt 0 (P.totalTimeout - elapsed))).retryLoop P id job attempted
      (attempt + 1) body

/-- The await of `forward` resolves. -/
def resolve (P : Setup) (s : Sys) (id : ℕ) (job : Job) (backend : String) (dispatch : Dispatch)
    (r : Resolution) : Sys :=
  let (s, response) := s.forwardDone id job backend (forwardResult P job backend dispatch r)
  match dispatch with
  | .retry attempted attempt body => s.afterAttempt P id job backend attempted attempt body response
  | _ => s.respond id (afterResponse job backend response) response

/-! ## Arrival -/

/-- The correlation id of a request, and the counter after it. -/
def requestId (s : Sys) (request : Request) : Sys × String :=
  match (request.headers.get requestIdHeader).bind HeaderValue.toStr with
  | some value => (s, value)
  | none => ({ s with requestIdCounter := (s.requestIdCounter + 1) % 2 ^ 64 },
      hex16 s.requestIdCounter)

/-- `handle_internal_route` with the completion of its response. -/
def handleInternal (P : Setup) (s : Sys) (id : ℕ) (requestId : String) : Internal → Sys
  | .none => s
  | .root => s.reject id requestId none (rootResponse P)
  | .health => s.reject id requestId none (textResponse 200 "ok\n")
  | .unauthorized => s.reject id requestId none unauthorizedDebugResponse
  | .backendHealth =>
    let statuses := (s.health.backendStatuses s.now).2
    (s.callHealth (.request id) .backendStatuses).reject id requestId none
      (backendHealthResponse statuses)
  | .metrics =>
    let statuses := (s.health.backendStatuses s.now).2
    (s.callHealth (.request id) .backendStatuses).reject id requestId none
      (metricsResponse s.telemetry statuses)

/-- The rejection when no permit of `buffer_semaphore` is free. -/
def rejectCapacity (s : Sys) (id : ℕ) (requestId : String) : Sys :=
  s.reject id requestId (some "buffer_capacity_exceeded")
    (textResponse 503 "too many concurrent buffered requests\n")

/-- Take a permit and start buffering. -/
def startBuffering (s : Sys) (id : ℕ) (job : Job) (chosen : Option String) : Sys :=
  if s.permits = 0 then s.rejectCapacity id job.requestId
  else { s with permits := s.permits - 1 }.setTask id (.buffering job chosen [])

/-- `handle_request` from the matched route to its first await. -/
def dispatchRequest (P : Setup) (s : Sys) (id : ℕ) (job : Job) : Sys :=
  if P.shouldRetryRequest job.request.method then s.startBuffering id job none
  else
    match s.selectBackend id job.route [] with
    | (s, none) => s.noHealthyBackendsResponse id job.requestId
    | (s, some b) =>
      if shouldPrebufferRequest job.request.method then s.startBuffering id job (some b)
      else s.forwardRequest P id job b (.stream (.running 0))

/-- `handle_request` up to its first await. -/
def handleRequest (P : Setup) (s : Sys) (id : ℕ) (request : Request) : Sys :=
  let s := (s.emit (.arrived id request)).record .request
  let (s, requestId) := s.requestId request
  let request := { request with
    headers := insertText request.headers requestIdHeader requestId }
  match internalRoute P request with
  | .none =>
    let limit := P.config.upstream.maxRequestBodyBytes
    match contentLengthExceeds request.headers limit with
    | some contentLength => s.reject id requestId (some "request_body_too_large")
        (textResponse 413 (s!"request body too large: content-length {contentLength} " ++
          s!"exceeds {limit} byte limit\n"))
    | none =>
      match matchRoute request.uri.path P.config.routes with
      | none => s.reject id requestId none (textResponse 404 "no route matched request path\n")
      | some route => s.dispatchRequest P id ⟨request, route, s.now, requestId⟩
  | internal => s.handleInternal P id requestId internal

/-! ## Body items -/

/-- An item of the client's body during `buffer_request_body`; `none` is the end of the body. -/
def bufferStep (P : Setup) (s : Sys) (id : ℕ) (job : Job) (chosen : Option String)
    (buffered : Bytes) : Option StreamItem → Sys
  | some item =>
    match bufferItem P.config.upstream.maxRequestBodyBytes (P.routeClientBodyTimeout job.route)
        buffered item with
    | .ok buffered => s.setTask id (.buffering job chosen buffered)
    | .error err => s.release.reject id job.requestId (some err.kind) err.intoResponse
  | none =>
    match chosen with
    | none => s.release.retryLoop P id job [] 1 buffered
    | some b => s.release.forwardRequest P id job b (.prebuffer buffered)

/-- An item of the client's body while it is streamed to the backend. -/
def uploadStep (P : Setup) (s : Sys) (id : ℕ) (job : Job) (backend : String) (seen : ℕ) :
    Option StreamItem → Sys
  | some item =>
    match limitItem P.config.upstream.maxRequestBodyBytes (P.routeClientBodyTimeout job.route)
        clientContext seen item with
    | (seen, .ok _) => s.setTask id (.forwarding job backend (.stream (.running seen)))
    | (_, .error err) => (s.record (.proxyError err.kind)).setTask id
        (.forwarding job backend (.stream .failed))
  | none => s.setTask id (.forwarding job backend (.stream .ended))

/-- An item of the backend's body while it is streamed to the client: `response_error_hook` is
    called for an error, after which hyper drops the body. -/
def downloadStep (P : Setup) (s : Sys) (id : ℕ) (job : Job) (backend : String) (seen : ℕ) :
    Option StreamItem → Sys
  | some item =>
    match limitItem P.config.upstream.maxResponseBodyBytes (P.routeReadTimeout job.route)
        upstreamContext seen item with
    | (seen, .ok _) => s.setTask id (.responding job backend seen)
    | (_, .error err) => ((s.record (.proxyError err.kind)).callHealth (.request id)
        (.recordFailure backend)).setTask id .done
  | none => s.setTask id .done

/-! ## Steps -/

/-- What the environment can let happen. -/
inductive Event where
  | arrive (id : ℕ) (request : Request)
  /-- the client's body yields an item, or ends -/
  | body (id : ℕ) (item : Option StreamItem)
  /-- the await of `forward` resolves -/
  | resolved (id : ℕ) (r : Resolution)
  /-- the sleep of the back-off is over -/
  | wake (id : ℕ)
  /-- the backend's body yields an item, or ends -/
  | download (id : ℕ) (item : Option StreamItem)
  /-- the future of the request is dropped -/
  | dropped (id : ℕ)
  /-- an active check of a backend completes -/
  | checked (backend : String) (status : ℕ)

/-- A task gives up its permit when it is dropped. -/
def dropTask (s : Sys) (id : ℕ) : Task → Option Sys
  | .done => none
  | .buffering _ _ _ => some (s.release.setTask id .done)
  | _ => some (s.setTask id .done)

/-- The recording of an active check, in `run_active_check_pass_with_client`. -/
def recordCheck (s : Sys) (backend : String) (status : ℕ) : Sys :=
  s.callHealth .check
    (if s.health.isActiveSuccessStatus status then .recordSuccess backend
      else .recordFailure backend)

/-- One step at the instant `s.now`; `none` when the event cannot happen. -/
def react (P : Setup) (s : Sys) : Event → Option Sys
  | .arrive id request =>
    match s.tasks.get? id with
    | none => some (s.handleRequest P id request)
    | some _ => none
  | .body id item =>
    match s.tasks.get? id with
    | some (.buffering job chosen buffered) => some (s.bufferStep P id job chosen buffered item)
    | some (.forwarding job backend (.stream (.running seen))) =>
      some (s.uploadStep P id job backend seen item)
    | _ => none
  | .resolved id r =>
    match s.tasks.get? id with
    | some (.forwarding job backend dispatch) => some (s.resolve P id job backend dispatch r)
    | _ => none
  | .wake id =>
    match s.tasks.get? id with
    | some (.sleeping job attempted attempt body till) =>
      if till ≤ s.now then some (s.retryLoop P id job attempted attempt body) else none
    | _ => none
  | .download id item =>
    match s.tasks.get? id with
    | some (.responding job backend seen) => some (s.downloadStep P id job backend seen item)
    | _ => none
  | .dropped id => (s.tasks.get? id).bind (s.dropTask id)
  | .checked backend status => some (s.recordCheck backend status)

/-- One step at an instant not before the last one. -/
def step (P : Setup) (s : Sys) (e : ℕ × Event) : Option Sys :=
  if s.now ≤ e.1 then { s with now := e.1 }.react P e.2 else none

end Sys

/-- The states the proxy can reach, in any interleaving. -/
def Setup.Reachable (P : Setup) (s : Sys) : Prop :=
  Runs (Sys.step P) (fun _ _ => True) P.initial s

/-! ## A small setup -/

/-- What the URL crate does on the backends of the runs on fixed inputs, and on paths that need no
    normalisation. -/
def smallCrate : UrlCrate where
  parse s :=
    if s = "http://127.0.0.1:3001" then .ok ⟨"http", some "127.0.0.1", some 3001, "/", none⟩
    else if s = "http://127.0.0.1:3002" then .ok ⟨"http", some "127.0.0.1", some 3002, "/", none⟩
    else .error "relative URL without a base"
  setPath url path := { url with path := path }
  setQuery url query := { url with query := query }
  toUri url := .ok ⟨url.path, url.query⟩

/-- One route `/api`, for runs on fixed inputs. -/
def small (backends : List String) (failureThreshold maxAttempts maxBufferedBodies : ℕ) :
    Setup where
  config := {
    server := { port := 8080, host := "127.0.0.1" }
    routes := [{ pathPrefix := "/api", backends := backends }]
    healthCheck := { failureThreshold := failureThreshold }
    upstream := { maxBufferedBodies := maxBufferedBodies }
    retry := { maxAttempts := maxAttempts } }
  url := smallCrate

example : (small ["http://127.0.0.1:3001", "http://127.0.0.1:3002"] 1 2 1).config.validate
    smallCrate = .ok () := by decide +kernel

/-- A request to the route of `small`. -/
def smallRequest (method : Method) : Request := ⟨method, ⟨"/api/x", none⟩, [], none⟩

/-- A request to the route of `small` that declares a body of `length` bytes. -/
def smallUpload (method : Method) (length : ℕ) : Request :=
  { smallRequest method with
    headers := [("content-length", HeaderValue.ofString (toString length))] }

/-- The state at the end of an execution on fixed inputs. -/
theorem Setup.reachable_of_exec (P : Setup) {es : List (ℕ × Sys.Event)} {s : Sys}
    (h : exec (Sys.step P) P.initial es = some s) : P.Reachable s :=
  .of_exec .refl h

end FerrumProxy
