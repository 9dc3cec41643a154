/-
  The upstream client (`src/upstream/mod.rs`): errors and their texts, the body
  limiter, and `UpstreamClient::forward` as the two halves before and after its
  await.

  The hyper client is not part of the repository.  `forward` awaits
  `timeout(connect_timeout, client.request(..))`; what that await yields is a
  `Resolution`, given by the environment.
-/
import FerrumProxy.Headers
import FerrumProxy.Config

namespace FerrumProxy

/-! ## Errors -/

/-- `hyper_util::client::legacy::Error`, as far as the proxy inspects it. -/
structure ClientError where
  /-- `is_connect()` -/
  isConnect : Bool
  /-- some source is an I/O error of kind `ConnectionRefused` -/
  connectionRefused : Bool
  /-- some source is a hyper parse or incomplete-message error -/
  invalidResponse : Bool
  text : String
deriving DecidableEq, Repr

/-- `UpstreamError` -/
inductive UpstreamError where
  | invalidBackendUrl (err : String)
  | invalidUri (err : String)
  | connectTimeout (duration : ℕ)
  | connectionRefused (err : ClientError)
  | invalidResponse (err : ClientError)
  | request (err : ClientError)
  | responseTooLarge (limit contentLength : ℕ)
deriving DecidableEq, Repr

namespace UpstreamError

/-- `UpstreamError::kind` -/
def kind : UpstreamError → String
  | invalidBackendUrl _ => "invalid_backend_url"
  | invalidUri _ => "invalid_upstream_uri"
  | connectTimeout _ => "upstream_connect_timeout"
  | connectionRefused _ => "upstream_connection_refused"
  | invalidResponse _ => "invalid_upstream_response"
  | request _ => "upstream_request_failed"
  | responseTooLarge _ _ => "response_body_too_large"

/-- `Display for UpstreamError` -/
def display : UpstreamError → String
  | invalidBackendUrl err => s!"invalid backend URL: {err}"
  | invalidUri err => s!"invalid upstream request URI: {err}"
  | connectTimeout duration =>
    s!"upstream connect or response-header timeout after {duration / 1000000} ms"
  | connectionRefused _ => "upstream connection refused"
  | invalidResponse _ => "upstream sent an invalid HTTP response"
  | request err => s!"upstream request failed: {err.text}"
  | responseTooLarge limit contentLength =>
    s!"upstream response body exceeds limit: content-length {contentLength} bytes over " ++
      s!"{limit} byte limit"

end UpstreamError

/-- `classify_request_error` -/
def classifyRequestError (err : ClientError) : UpstreamError :=
  if err.isConnect && err.connectionRefused then .connectionRefused err
  else if !err.isConnect || err.invalidResponse then .invalidResponse err
  else .request err

/-! ## Responses -/

/-- The body of a response of the proxy: a text of its own, or the limited body of the upstream
    response. -/
inductive ResponseBody where
  | full (text : String)
  | upstream
deriving DecidableEq, Repr

/-- `Response<ProxyBody>` -/
structure Response where
  status : ℕ
  headers : HeaderMap
  body : ResponseBody
deriving DecidableEq, Repr

/-- `bad_gateway_response` -/
def badGatewayResponse (err : UpstreamError) : Response where
  status := match err with
    | .connectTimeout _ => 504
    | _ => 502
  headers := []
  body := .full s!"bad gateway: {err.display}\n"

/-! ## The body limiter -/

/-- An item of `body.into_data_stream().timeout(idle_timeout)`. -/
inductive StreamItem where
  | data (bytes : Bytes)
  | readError (text : String)
  | idleElapsed
deriving DecidableEq, Repr

/-- The name of the stream of client request bodies. -/
def clientContext : String := "client request body"

/-- The name of the stream of upstream response bodies. -/
def upstreamContext : String := "upstream response body"

/-- The three kind functions of a stream, by its context. -/
def kindOf (context client upstream other : String) : String :=
  if context = clientContext then client
  else if context = upstreamContext then upstream
  else other

/-- `timeout_kind` -/
def timeoutKind (context : String) : String :=
  kindOf context "client_body_timeout" "upstream_response_body_timeout" "stream_timeout"

/-- `read_failure_kind` -/
def readFailureKind (context : String) : String :=
  kindOf context "client_request_body_read_failed" "upstream_response_body_read_failed"
    "stream_read_failed"

/-- `size_limit_kind` -/
def sizeLimitKind (context : String) : String :=
  kindOf context "request_body_too_large" "response_body_too_large" "stream_too_large"

/-- An error item of a limited stream: the kind given to the hook and the text of the error. -/
structure StreamError where
  kind : String
  text : String
deriving DecidableEq, Repr

/-- The closure of `limit_body_stream`, on one item: the new value of `seen` and the item it emits.
    The hook is called for the error items, with their kind. -/
def limitItem (maxBytes idleTimeout : ℕ) (context : String) (seen : ℕ) :
    StreamItem → ℕ × Except StreamError Bytes
  | .data bytes =>
    if maxBytes < seen + bytes.length then
      (seen + bytes.length,
        .error ⟨sizeLimitKind context, s!"{context} exceeded {maxBytes} byte limit"⟩)
    else (seen + bytes.length, .ok bytes)
  | .readError text => (seen, .error ⟨readFailureKind context, text⟩)
  | .idleElapsed => (seen, .error ⟨timeoutKind context,
      s!"{context} idle timeout: no data received for {idleTimeout / 1000000} ms"⟩)

/-- `limit_body_stream`: the items emitted for a sequence of items. -/
def limitBodyStream (maxBytes idleTimeout : ℕ) (context : String) :
    ℕ → List StreamItem → List (Except StreamError Bytes)
  | _, [] => []
  | seen, item :: items =>
    (limitItem maxBytes idleTimeout context seen item).2 ::
      limitBodyStream maxBytes idleTimeout context
        (limitItem maxBytes idleTimeout context seen item).1 items

/-! ## Forwarding -/

/-- `hyper::Method` -/
inductive Method where
  | get | head | options | trace | put | delete | post | patch | connect
  | extension (name : String)
deriving DecidableEq, Repr

/-- `build_upstream_uri` -/
def buildUpstreamUri (U : UrlCrate) (backend : Url) (requestUri : Uri) :
    Except UpstreamError Uri :=
  let url := U.setPath backend requestUri.path
  let url := U.setQuery url requestUri.query
  match U.toUri url with
  | .ok uri => .ok uri
  | .error err => .error (.invalidUri err)

/-- The request that goes to the backend, without its body. -/
structure UpstreamRequest where
  method : Method
  uri : Uri
  headers : HeaderMap
deriving DecidableEq, Repr

/-- The first half of `UpstreamClient::forward`: the request it builds before its await. -/
def prepare (U : UrlCrate) (backend : String) (method : Method) (uri : Uri) (headers : HeaderMap)
    (clientIp : Option String) : Except UpstreamError UpstreamRequest :=
  match U.parse backend with
  | .error err => .error (.invalidBackendUrl err)
  | .ok backendUrl => do
    let upstreamUri ← buildUpstreamUri U backendUrl uri
    .ok ⟨method, upstreamUri,
      applyForwardingHeaders (sanitizeHopByHopHeaders headers) backendUrl clientIp⟩

/-- What `timeout(connect_timeout, client.request(..)).await` yields. -/
inductive Resolution where
  | elapsed
  | failed (err : ClientError)
  | response (status : ℕ) (headers : HeaderMap)
deriving DecidableEq, Repr

/-- The second half of `UpstreamClient::forward`: from the response head to the result. -/
def receive (connectTimeout maxResponseBodyBytes : ℕ) :
    Resolution → Except UpstreamError Response
  | .elapsed => .error (.connectTimeout connectTimeout)
  | .failed err => .error (classifyRequestError err)
  | .response status headers =>
    match contentLengthExceeds headers maxResponseBodyBytes with
    | some contentLength => .error (.responseTooLarge maxResponseBodyBytes contentLength)
    | none => .ok ⟨status, sanitizeHopByHopHeaders headers, .upstream⟩

end FerrumProxy
