/-
  The in-memory metrics (`src/telemetry/mod.rs`).

  The health manager and the request handlers share one `Telemetry`; what they do
  to it are `Call`s, replayed by `apply`.

  The counters are unbounded here.  In the source they are `u64` and `AtomicU64`, whose
  values are the ones here as long as these stay below 2^64.
-/
import FerrumProxy.Config
import FerrumProxy.Lib.Table
import Mathlib.Data.List.Sort
import Mathlib.Data.String.Basic

namespace FerrumProxy

open Lib

/-- `HealthTransition`, without its backend. -/
structure Transition where
  source : String
  target : String
  reason : String
deriving DecidableEq, Repr

/-- `MAX_TRANSITIONS` -/
def maxTransitions : ℕ := 32

/-- `Telemetry` -/
structure Telemetry where
  requestCount : ℕ
  upstreamLatencyCount : ℕ
  upstreamLatencyTotalMicros : ℕ
  backendFailures : Table String ℕ
  healthTransitionsTotal : ℕ
  responseStatuses : Table ℕ ℕ
  proxyErrors : Table String ℕ
  healthTransitions : List (String × Transition)

namespace Telemetry

/-- The recording functions, with their arguments. -/
inductive Call where
  | request
  | upstreamLatency (latency : ℕ)
  | backendFailure (backend : String)
  | responseStatus (status : ℕ)
  | proxyError (kind : String)
  | healthTransition (backend : String) (transition : Transition)
deriving DecidableEq, Repr

/-- `Telemetry::new` -/
def new (routes : List RouteConfig) : Telemetry where
  requestCount := 0
  upstreamLatencyCount := 0
  upstreamLatencyTotalMicros := 0
  backendFailures := .ofKeys (routes.flatMap (·.backends)) fun _ => 0
  healthTransitionsTotal := 0
  responseStatuses := .empty
  proxyErrors := .empty
  healthTransitions := []

/-- `*map.entry(key).or_insert(0) += 1` -/
def bump {κ : Type} [DecidableEq κ] (T : Table κ ℕ) (key : κ) : Table κ ℕ :=
  T.insert key ((T.get? key).getD 0 + 1)

/-- `record_request` -/
def recordRequest (T : Telemetry) : Telemetry := { T with requestCount := T.requestCount + 1 }

/-- `record_upstream_latency` -/
def recordUpstreamLatency (T : Telemetry) (latency : ℕ) : Telemetry :=
  { T with
    upstreamLatencyCount := T.upstreamLatencyCount + 1
    upstreamLatencyTotalMicros := T.upstreamLatencyTotalMicros + latency / 1000 }

/-- `record_backend_failure`: backends that are not configured have no counter. -/
def recordBackendFailure (T : Telemetry) (backend : String) : Telemetry :=
  { T with backendFailures := T.backendFailures.modify backend (· + 1) }

/-- `record_response_status` -/
def recordResponseStatus (T : Telemetry) (status : ℕ) : Telemetry :=
  { T with responseStatuses := bump T.responseStatuses status }

/-- `record_proxy_error` -/
def recordProxyError (T : Telemetry) (kind : String) : Telemetry :=
  { T with proxyErrors := bump T.proxyErrors kind }

/-- `record_health_transition`: the log keeps the last `MAX_TRANSITIONS` entries. -/
def recordHealthTransition (T : Telemetry) (backend : String) (transition : Transition) :
    Telemetry :=
  { T with
    healthTransitionsTotal := T.healthTransitionsTotal + 1
    healthTransitions :=
      (if maxTransitions ≤ T.healthTransitions.length then T.healthTransitions.tail
        else T.healthTransitions) ++ [(backend, transition)] }

/-- Carry out one call. -/
def apply (T : Telemetry) : Call → Telemetry
  | .request => T.recordRequest
  | .upstreamLatency latency => T.recordUpstreamLatency latency
  | .backendFailure backend => T.recordBackendFailure backend
  | .responseStatus status => T.recordResponseStatus status
  | .proxyError kind => T.recordProxyError kind
  | .healthTransition backend transition => T.recordHealthTransition backend transition

/-! ## The exposition format -/

/-- `str::replace` of one character by a text. -/
def replaceChar (c : Char) (text : String) (s : String) : String :=
  String.ofList (s.toList.flatMap fun x => if x = c then text.toList else [x])

/-- `escape_label_value` -/
def escapeLabelValue (value : String) : String :=
  replaceChar '"' "\\\"" (replaceChar '\\' "\\\\" value)

/-- The entries of a table sorted by key. -/
def sorted {κ ν : Type} [LinearOrder κ] (T : Table κ ν) : List (κ × ν) :=
  T.entries.insertionSort fun left right => left.1 ≤ right.1

/-- The two comment lines before a metric. -/
def describe (name help type : String) : List String :=
  [s!"# HELP {name} {help}", s!"# TYPE {name} {type}"]

/-- A sample with one label. -/
def sample (name label value : String) (count : ℕ) : String :=
  s!"{name}\x7b{label}=\"{value}\"\x7d {count}"

/-- The lines of `render_prometheus`. -/
def renderLines (T : Telemetry) (backendStatuses : List (String × Bool)) : List String :=
  describe "ferrum_proxy_requests_total" "Total HTTP requests handled by the proxy." "counter" ++
  [s!"ferrum_proxy_requests_total {T.requestCount}"] ++
  describe "ferrum_proxy_upstream_request_duration_microseconds"
    "Total upstream request latency in microseconds." "summary" ++
  [s!"ferrum_proxy_upstream_request_duration_microseconds_sum {T.upstreamLatencyTotalMicros}",
    s!"ferrum_proxy_upstream_request_duration_microseconds_count {T.upstreamLatencyCount}"] ++
  describe "ferrum_proxy_health_transitions_total" "Total health state transitions." "counter" ++
  [s!"ferrum_proxy_health_transitions_total {T.healthTransitionsTotal}"] ++
  describe "ferrum_proxy_backend_failures_total" "Total passive or active backend failures."
    "counter" ++
  (sorted T.backendFailures).map (fun e =>
    sample "ferrum_proxy_backend_failures_total" "backend" (escapeLabelValue e.1) e.2) ++
  describe "ferrum_proxy_backend_healthy" "Current backend health state." "gauge" ++
  backendStatuses.map (fun e =>
    sample "ferrum_proxy_backend_healthy" "backend" (escapeLabelValue e.1)
      (if e.2 then 1 else 0)) ++
  describe "ferrum_proxy_responses_total" "Total responses sent by status code." "counter" ++
  (sorted T.responseStatuses).map (fun e =>
    sample "ferrum_proxy_responses_total" "status_code" (toString e.1) e.2) ++
  describe "ferrum_proxy_errors_total" "Total proxy errors by classification." "counter" ++
  (sorted T.proxyErrors).map (fun e =>
    sample "ferrum_proxy_errors_total" "kind" (escapeLabelValue e.1) e.2)

/-- `render_prometheus` -/
def renderPrometheus (T : Telemetry) (backendStatuses : List (String × Bool)) : String :=
  String.join ((T.renderLines backendStatuses).map (· ++ "\n"))

end Telemetry

end FerrumProxy
