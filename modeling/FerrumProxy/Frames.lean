/-
  Assertions that every elementary effect keeps.

  An outline follows a request through its handler.  An assertion that does not look
  at the requests needs less: it is kept by each effect that the handlers are made of
  (`Frame`), and then by every step.  What the handlers write to the log is told apart:
  their own entries, the attempts, and the responses made of the result of an attempt.
  In turn a frame tells which telemetry calls come from the health manager only, and
  what the entries of a step can be (`step_written`).
-/
import FerrumProxy.Effects

namespace FerrumProxy

open Lib Sys

/-- The kinds of errors that the handlers count. -/
def proxyErrorKinds : List String :=
  ["no_healthy_backends", "retry_budget_exhausted", "retry_exhausted", "buffer_capacity_exceeded",
    "request_body_too_large", "client_body_timeout", "client_request_body_read_failed",
    "response_body_too_large", "upstream_response_body_timeout",
    "upstream_response_body_read_failed", "invalid_backend_url", "invalid_upstream_uri",
    "upstream_connect_timeout", "upstream_connection_refused", "invalid_upstream_response",
    "upstream_request_failed"]

theorem UpstreamError.kind_mem (err : UpstreamError) : err.kind ∈ proxyErrorKinds := by
  cases err <;> simp [kind, proxyErrorKinds]

theorem RequestBufferError.kind_mem (err : RequestBufferError) : err.kind ∈ proxyErrorKinds := by
  cases err <;> simp [kind, proxyErrorKinds]

/-- The two contexts of `limit_body_stream` have kinds of their own. -/
theorem limitItem_kind_mem {context : String} (hc : context ∈ [clientContext, upstreamContext])
    {limit idle seen seen' : ℕ} {item : StreamItem} {err : StreamError}
    (h : limitItem limit idle context seen item = (seen', .error err)) :
    err.kind ∈ proxyErrorKinds := by
  have hkinds : sizeLimitKind context ∈ proxyErrorKinds ∧ readFailureKind context ∈ proxyErrorKinds ∧
      timeoutKind context ∈ proxyErrorKinds := by
    simp only [List.mem_cons, List.not_mem_nil, or_false] at hc
    rcases hc with rfl | rfl <;> decide
  cases item with
  | data bytes =>
    simp only [limitItem] at h
    split_ifs at h
    · obtain rfl := Except.error.inj (Prod.mk.inj h).2
      exact hkinds.1
    · cases (Prod.mk.inj h).2
  | readError text =>
    obtain rfl := Except.error.inj (Prod.mk.inj h).2
    exact hkinds.2.1
  | idleElapsed =>
    obtain rfl := Except.error.inj (Prod.mk.inj h).2
    exact hkinds.2.2

/-- The telemetry calls that the handlers make by themselves. -/
def Telemetry.Call.ofHandler : Telemetry.Call → Bool
  | .backendFailure _ | .healthTransition _ _ => false
  | .proxyError kind => kind ∈ proxyErrorKinds
  | _ => true

/-- A response that the proxy makes by itself: a text, and no header of a backend. -/
structure Response.Own (response : Response) : Prop where
  text : ∃ text, response.body = .full text
  headers : ∀ e ∈ response.headers, e.1 ∈ ["content-type", "www-authenticate", requestIdHeader]

theorem Response.Own.of_text (status : ℕ) (text : String) : (textResponse status text).Own :=
  ⟨⟨text, rfl⟩, by simp [textResponse]⟩

theorem Response.Own.of_intoResponse (err : RequestBufferError) : err.intoResponse.Own := by
  cases err <;> exact of_text ..

theorem Response.Own.of_badGateway (err : UpstreamError) : (badGatewayResponse err).Own :=
  ⟨⟨_, rfl⟩, by simp [badGatewayResponse]⟩

/-- The correlation id can be set. -/
theorem Response.Own.withId {response : Response} (h : response.Own) (rid : String) :
    Response.Own
      { response with headers := insertText response.headers requestIdHeader rid } := by
  refine ⟨h.text, fun e he => ?_⟩
  unfold insertText at he
  split at he
  · rcases List.mem_append.1 he with he | he
    · exact h.headers e (List.mem_of_mem_filter he)
    · rw [List.mem_singleton.1 he]
      simp
  · exact h.headers e he

/-- The entries that a handler writes by itself. -/
def Obs.Own : Obs → Prop
  | .arrived _ _ | .selected _ _ | .pause _ _ _ _ => True
  | .responded _ response => response.Own
  | _ => False

/-- The request is answered with what the backends or the telemetry are like. -/
def Discloses (P : Setup) (request : Request) : Prop :=
  internalRoute P request = .backendHealth ∨ internalRoute P request = .metrics
deriving Decidable

/-- The assertion `I` is kept by what the handlers are made of; of the attempts, the responses of
    backends and the looks at all backends, by those that are `ok`. -/
structure Frame (ok : Obs → Prop) (I : Sys → Prop) : Prop where
  env : ∀ s balancer permits counter tasks now, I s →
    I { s with
      balancer := balancer, permits := permits, requestIdCounter := counter, tasks := tasks,
      now := now }
  emit : ∀ s o, o.plain → o.Own ∨ ok o → I s → I (s.emit o)
  record : ∀ s c, c.ofHandler → I s → I (s.record c)
  callHealth : ∀ s source c, c ≠ .backendStatuses ∨ ok (.health source c) → I s →
    I (s.callHealth source c)

/-- The attempts of the request `id` with the locals `job` are `ok`. -/
def Sends (P : Setup) (ok : Obs → Prop) (id : ℕ) (job : Job) : Prop :=
  ∀ b d elapsed, ok (.attempt id b d (prepareAttempt P job b d) elapsed)

/-- Of the shared state only the counter decides about an id. -/
theorem requestId_congr {s s' : Sys} (h : s.requestIdCounter = s'.requestIdCounter)
    (request : Request) : (s.requestId request).2 = (s'.requestId request).2 := by
  unfold Sys.requestId
  split
  · rfl
  · exact congrArg hex16 h

theorem outcome_ne (m : HealthManager) (route : RouteConfig) (b : String)
    (result : Except UpstreamError Response) : outcome m route b result ≠ .backendStatuses := by
  unfold outcome
  split
  · split_ifs <;> simp
  · simp

/-- The locals of the request `id` while the event `e` is handled. -/
def JobAt (s : Sys) (e : ℕ × Event) (id : ℕ) (job : Job) : Prop :=
  (∃ task, s.tasks.get? id = some task ∧ task.job? = some job) ∨
    ∃ request, e.2 = .arrive id request ∧ job.request = request.withId job.requestId ∧
      job.requestId = (s.requestId request).2

namespace Frame

variable {P : Setup} {ok : Obs → Prop} {I : Sys → Prop} (h : Frame ok I) {s : Sys} {id : ℕ}
include h

theorem setTask (hs : I s) (task : Task) : I (s.setTask id task) := h.env s _ _ _ _ _ hs

theorem release (hs : I s) : I s.release := h.env s _ _ _ _ _ hs

theorem requestId (hs : I s) (request : Request) : I (s.requestId request).1 := by
  obtain ⟨n, heq⟩ := requestId_fst s request
  rw [heq]
  exact h.env s _ _ _ _ _ hs

theorem proxyError (hs : I s) {kind : String} (hk : kind ∈ proxyErrorKinds) :
    I (s.record (.proxyError kind)) := h.record s (.proxyError kind) (decide_eq_true hk) hs

theorem completeRequest (hs : I s) (rid : String) (response : Response) :
    I (s.completeRequest rid response).1 := h.record _ _ rfl hs

theorem respond (hs : I s) (task : Task) {response : Response}
    (hr : response.Own ∨ ok (.responded id response)) : I (s.respond id task response) :=
  h.setTask (h.emit _ (.responded id response) rfl hr hs) _

theorem reject (hs : I s) (rid : String) {kind : Option String}
    (hk : ∀ k, kind = some k → k ∈ proxyErrorKinds) {response : Response} (hr : response.Own) :
    I (s.reject id rid kind response) := by
  cases kind with
  | none => exact h.respond (h.completeRequest hs rid response) _ (.inl (hr.withId rid))
  | some kind =>
    exact h.respond (h.completeRequest (h.proxyError hs (hk kind rfl)) rid response) _
      (.inl (hr.withId rid))

theorem selectBackend (hs : I s) (route : RouteConfig) (attempted : List String) :
    I (s.selectBackend id route attempted).1 := by
  have hcall : ∀ balancer, I { s.callHealth (.request id) (.healthyBackends route) with
      balancer := balancer } :=
    fun balancer => h.env _ balancer _ _ _ _ (h.callHealth _ _ _ (.inl (by simp)) hs)
  unfold Sys.selectBackend
  dsimp only
  split
  · exact h.emit _ _ rfl (.inl trivial) (hcall _)
  · exact hcall _

theorem forwardRequest {job : Job} (hsend : Sends P ok id job) (hs : I s) (b : String)
    (d : Dispatch) : I (s.forwardRequest P id job b d) :=
  h.setTask (h.emit _ _ rfl (.inr (hsend ..)) hs) _

theorem forwardDone (hs : I s) (job : Job) (b : String) (result : Except UpstreamError Response) :
    I (s.forwardDone id job b result).1 := by
  have hcall := h.callHealth _ (.request id) (outcome s.health job.route b result)
    (.inl (outcome_ne _ _ _ _)) (h.record s (.upstreamLatency (s.now - job.started)) rfl hs)
  unfold Sys.forwardDone
  cases result with
  | ok response => exact h.completeRequest hcall _ _
  | error err => exact h.completeRequest (h.proxyError hcall err.kind_mem) _ _

theorem retryLoop {job : Job} (hsend : Sends P ok id job) (hs : I s) (attempted : List String)
    (n : ℕ) (body : Bytes) : I (s.retryLoop P id job attempted n body) := by
  have hsel : I (s.selectBackend id job.route attempted).1 := h.selectBackend hs job.route attempted
  unfold Sys.retryLoop
  rcases he : s.selectBackend id job.route attempted with ⟨s', _ | b⟩
  · rw [he] at hsel
    dsimp only
    split_ifs
    · exact h.reject hs _ (by simp [proxyErrorKinds]) (.of_text ..)
    · exact h.reject hsel _ (by simp [proxyErrorKinds]) (.of_text ..)
    · exact h.reject hsel _ (by simp [proxyErrorKinds]) (.of_text ..)
  · rw [he] at hsel
    dsimp only
    split_ifs
    · exact h.reject hs _ (by simp [proxyErrorKinds]) (.of_text ..)
    · exact h.forwardRequest hsend hsel _ _

theorem afterAttempt {job : Job} (hsend : Sends P ok id job) (hs : I s) (b : String)
    (attempted : List String) (n : ℕ) (body : Bytes) {response : Response}
    (hr : ok (.responded id response)) :
    I (s.afterAttempt P id job b attempted n body response) := by
  unfold Sys.afterAttempt
  dsimp only
  split_ifs
  · exact h.respond hs _ (.inr hr)
  · exact h.respond hs _ (.inr hr)
  · exact h.setTask (h.emit _ (.pause ..) rfl (.inl trivial) hs) _
  · exact h.retryLoop hsend (h.emit _ (.pause ..) rfl (.inl trivial) hs) _ _ _

theorem resolve {job : Job} (hsend : Sends P ok id job) (hs : I s) (b : String) (d : Dispatch)
    (r : Resolution)
    (hr : ok (.responded id (resultResponse job (forwardResult P job b d r)))) :
    I (s.resolve P id job b d r) := by
  have hdone : I (s.forwardDone id job b (forwardResult P job b d r)).1 :=
    h.forwardDone hs job b (forwardResult P job b d r)
  obtain ⟨s', he, -⟩ := forwardDone_eff s id job b (forwardResult P job b d r)
  unfold Sys.resolve
  rw [he] at hdone ⊢
  cases d with
  | retry attempted n body => exact h.afterAttempt hsend hdone _ _ _ _ hr
  | prebuffer body => exact h.respond hdone _ (.inr hr)
  | stream upload => exact h.respond hdone _ (.inr hr)

theorem startBuffering (hs : I s) (job : Job) (chosen : Option String) :
    I (s.startBuffering id job chosen) := by
  unfold Sys.startBuffering
  split_ifs
  · exact h.reject hs _ (by simp [proxyErrorKinds]) (.of_text ..)
  · exact h.setTask (h.env s _ _ _ _ _ hs) _

theorem dispatchRequest {job : Job} (hsend : Sends P ok id job) (hs : I s) :
    I (s.dispatchRequest P id job) := by
  have hsel : I (s.selectBackend id job.route []).1 := h.selectBackend hs job.route []
  unfold Sys.dispatchRequest
  rcases he : s.selectBackend id job.route [] with ⟨s', _ | b⟩
  · rw [he] at hsel
    dsimp only
    split_ifs
    · exact h.startBuffering hs _ _
    · exact h.reject hsel _ (by simp [proxyErrorKinds]) (.of_text ..)
  · rw [he] at hsel
    dsimp only
    split_ifs
    · exact h.startBuffering hs _ _
    · exact h.startBuffering hsel _ _
    · exact h.forwardRequest hsend hsel _ _

theorem handleInternal (hs : I s) (rid : String) (internal : Internal)
    (hask : internal = .backendHealth ∨ internal = .metrics →
      ok (.health (.request id) .backendStatuses)) :
    I (s.handleInternal P id rid internal) := by
  unfold Sys.handleInternal
  cases internal with
  | none => exact hs
  | unauthorized => exact h.reject hs _ (by simp) ⟨⟨_, rfl⟩, by simp [unauthorizedDebugResponse]⟩
  | metrics =>
    exact h.reject (h.callHealth _ _ _ (.inr (hask (.inr rfl))) hs) _ (by simp)
      ⟨⟨_, rfl⟩, by simp [metricsResponse]⟩
  | backendHealth =>
    exact h.reject (h.callHealth _ _ _ (.inr (hask (.inl rfl))) hs) _ (by simp) (.of_text ..)
  | root | health => exact h.reject hs _ (by simp [proxyErrorKinds]) (.of_text ..)

theorem handleRequest (hs : I s) (request : Request)
    (hsend : ∀ job : Job, job.request = request.withId job.requestId →
      job.requestId = (s.requestId request).2 → Sends P ok id job)
    (hask : Discloses P request → ok (.health (.request id) .backendStatuses)) :
    I (s.handleRequest P id request) := by
  have harrive := h.requestId
    (h.record _ .request rfl (h.emit s (.arrived id request) rfl (.inl trivial) hs)) request
  unfold Sys.handleRequest
  dsimp only
  split
  · split
    · exact h.reject harrive _ (by simp [proxyErrorKinds]) (.of_text ..)
    · split
      · exact h.reject harrive _ (by simp [proxyErrorKinds]) (.of_text ..)
      · exact h.dispatchRequest (hsend _ rfl (requestId_congr (by rfl) request)) harrive
  · exact h.handleInternal harrive _ _ fun hi => hask (by rwa [internalRoute_requestId] at hi)

theorem bufferStep {job : Job} (hsend : Sends P ok id job) (hs : I s) (chosen : Option String)
    (buffered : Bytes) (item : Option StreamItem) :
    I (s.bufferStep P id job chosen buffered item) := by
  unfold Sys.bufferStep
  cases item with
  | some item =>
    dsimp only
    split
    · exact h.setTask hs _
    · exact h.reject (h.release hs) _ (by simpa using RequestBufferError.kind_mem _) (.of_intoResponse _)
  | none =>
    cases chosen with
    | none => exact h.retryLoop hsend (h.release hs) _ _ _
    | some b => exact h.forwardRequest hsend (h.release hs) _ _

theorem uploadStep (hs : I s) (job : Job) (b : String) (seen : ℕ) (item : Option StreamItem) :
    I (s.uploadStep P id job b seen item) := by
  unfold Sys.uploadStep
  cases item with
  | some item =>
    dsimp only
    split
    · exact h.setTask hs _
    · rename_i he
      exact h.setTask (h.proxyError hs (limitItem_kind_mem (by simp) he)) _
  | none => exact h.setTask hs _

theorem downloadStep (hs : I s) (job : Job) (b : String) (seen : ℕ) (item : Option StreamItem) :
    I (s.downloadStep P id job b seen item) := by
  unfold Sys.downloadStep
  cases item with
  | some item =>
    dsimp only
    split
    · exact h.setTask hs _
    · rename_i he
      have herr := h.proxyError hs (limitItem_kind_mem (by simp) he)
      exact h.setTask (h.callHealth _ _ _ (.inl (by simp)) herr) _
  | none => exact h.setTask hs _

theorem step {s' : Sys} {e : ℕ × Event} (hs : I s)
    (hsend : ∀ id job, JobAt s e id job → Sends P ok id job)
    (hreply : ∀ id r job b d, e.2 = .resolved id r →
      s.tasks.get? id = some (.forwarding job b d) →
      ok (.responded id (resultResponse job (forwardResult P job b d r))))
    (hask : ∀ id request, e.2 = .arrive id request → Discloses P request →
      ok (.health (.request id) .backendStatuses))
    (hstep : Sys.step P s e = some s') : I s' := by
  unfold Sys.step at hstep
  split_ifs at hstep
  replace hs : I { s with now := e.1 } := h.env s _ _ _ _ _ hs
  have hlive : ∀ {id task job}, s.tasks.get? id = some task → task.job? = some job →
      Sends P ok id job := fun hold hjob => hsend _ _ (.inl ⟨_, hold, hjob⟩)
  obtain ⟨t, e⟩ := e
  unfold Sys.react at hstep
  cases e with
  | arrive id request =>
    dsimp only at hstep
    split at hstep
    · exact Option.some.inj hstep ▸
        h.handleRequest hs _ (fun job hjob hid => hsend _ _
          (.inr ⟨request, rfl, hjob, hid.trans (requestId_congr (by rfl) request)⟩))
          (hask id request rfl)
    · cases hstep
  | body id item =>
    dsimp only at hstep
    split at hstep
    · rename_i hold
      exact Option.some.inj hstep ▸ h.bufferStep (hlive hold rfl) hs _ _ _
    · exact Option.some.inj hstep ▸ h.uploadStep hs _ _ _ _
    · cases hstep
  | resolved id r =>
    dsimp only at hstep
    split at hstep
    · rename_i hold
      exact Option.some.inj hstep ▸
        h.resolve (hlive hold rfl) hs _ _ _ (hreply id r _ _ _ rfl hold)
    · cases hstep
  | wake id =>
    dsimp only at hstep
    split at hstep
    · rename_i hold
      split_ifs at hstep
      exact Option.some.inj hstep ▸ h.retryLoop (hlive hold rfl) hs _ _ _
    · cases hstep
  | download id item =>
    dsimp only at hstep
    split at hstep
    · exact Option.some.inj hstep ▸ h.downloadStep hs _ _ _ _
    · cases hstep
  | dropped id =>
    obtain ⟨task, -, hd⟩ := Option.bind_eq_some_iff.1 hstep
    cases task with
    | done => cases hd
    | buffering => exact Option.some.inj hd ▸ h.setTask (h.release hs) _
    | _ => exact Option.some.inj hd ▸ h.setTask hs _
  | checked b status =>
    exact Option.some.inj hstep ▸ h.callHealth _ _ _ (.inl (by split_ifs <;> simp)) hs

end Frame

/-- **Frames.** What the elementary effects keep holds in every reachable state. -/
theorem Frame.reachable {P : Setup} {I : Sys → Prop} {s : Sys} (h : Frame (fun _ => True) I)
    (h₀ : I P.initial) (hr : P.Reachable s) : I s :=
  Runs.invariant hr h₀ fun _ _ _ hI _ hs =>
    h.step hI (fun _ _ _ _ _ _ => trivial) (fun _ _ _ _ _ _ _ => trivial)
      (fun _ _ _ _ => trivial) hs

/-! ## The entries of a step -/

/-- What a step can write: an attempt with the request prepared from the locals, a response of the
    proxy's own or the one made of the result that the step resolves, and a look at all backends for
    a request that discloses them. -/
def Written (P : Setup) (s : Sys) (e : ℕ × Event) : Obs → Prop
  | .attempt id b d upstream _ => ∃ job, JobAt s e id job ∧ upstream = prepareAttempt P job b d
  | .responded id response => response.Own ∨
    ∃ r job b d, e.2 = .resolved id r ∧ s.tasks.get? id = some (.forwarding job b d) ∧
      response = resultResponse job (forwardResult P job b d r)
  | .health source .backendStatuses =>
    ∃ id request, source = .request id ∧ e.2 = .arrive id request ∧ Discloses P request
  | _ => True

/-- **Entries.** A step adds entries that it can write. -/
theorem step_entries {P : Setup} {s s' : Sys} {e : ℕ × Event} (h : step P s e = some s') :
    ∃ os, s'.log = s.log ++ os ∧ ∀ o ∈ os, Written P s e o.2 := by
  have hframe : Frame (Written P s e) fun s' =>
      ∃ os, s'.log = s.log ++ os ∧ ∀ o ∈ os, Written P s e o.2 := by
    have hadd : ∀ {s₁ : Sys} {o : ℕ × Obs}, Written P s e o.2 →
        (∃ os, s₁.log = s.log ++ os ∧ ∀ o ∈ os, Written P s e o.2) →
        ∃ os, s₁.log ++ [o] = s.log ++ os ∧ ∀ o ∈ os, Written P s e o.2 := by
      rintro s₁ o ho ⟨os, hlog, hos⟩
      refine ⟨os ++ [o], by rw [hlog, List.append_assoc], ?_⟩
      exact List.forall_mem_append.2 ⟨hos, List.forall_mem_singleton.2 ho⟩
    refine ⟨fun _ _ _ _ _ _ hs => hs, fun s' o _ hw hs => hadd ?_ hs, fun _ _ _ hs => hs,
      fun s' source c hc hs => hadd ?_ hs⟩
    · refine hw.elim (fun hown => ?_) fun hw => hw
      cases o with
      | responded id response => exact .inl hown
      | attempt => cases hown
      | health => cases hown
      | _ => trivial
    · refine hc.elim (fun hne => ?_) fun hc => hc
      cases c with
      | backendStatuses => exact absurd rfl hne
      | _ => trivial
  exact hframe.step ⟨[], by simp, by simp⟩
    (fun id job hjob b d _ => ⟨job, hjob, rfl⟩)
    (fun id r job b d he hold => .inr ⟨r, job, b, d, he, hold, rfl⟩)
    (fun id request he hd => ⟨id, request, rfl, he, hd⟩) h

theorem step_written {P : Setup} {s s' : Sys} {e : ℕ × Event} (h : step P s e = some s')
    {os : List (ℕ × Obs)} (hlog : s'.log = s.log ++ os) : ∀ o ∈ os, Written P s e o.2 := by
  obtain ⟨os', hlog', hos⟩ := step_entries h
  exact List.append_cancel_left (hlog'.symm.trans hlog) ▸ hos

/-! ## The locals of a new request -/

/-- The task of the request `id` is made of `job`, if it has locals. -/
def TaskOf (s : Sys) (id : ℕ) (job : Job) : Prop :=
  ∀ task job', s.tasks.get? id = some task → task.job? = some job' → job' = job

theorem TaskOf.of_moves {s s' : Sys} {id : ℕ} {os : List (ℕ × Obs)} {new : Task} {job : Job}
    (h : Moves s id os new s') (hnew : ∀ job', new.job? = some job' → job' = job) :
    TaskOf s' id job := by
  intro task job' htask hjob
  rw [h.tasks, Table.get?_insert_self] at htask
  exact hnew job' (Option.some.inj htask ▸ hjob)

theorem reject_taskOf (s : Sys) (id : ℕ) (rid : String) (kind : Option String)
    (response : Response) (job : Job) : TaskOf (s.reject id rid kind response) id job := by
  obtain ⟨r, h⟩ := reject_moves s id rid kind response
  exact .of_moves h (by simp [Task.job?])

theorem startBuffering_taskOf (s : Sys) (id : ℕ) (job : Job) (chosen : Option String) :
    TaskOf (s.startBuffering id job chosen) id job := by
  unfold Sys.startBuffering
  split_ifs
  · exact reject_taskOf _ _ _ _ _ _
  · exact .of_moves (setTask_moves ..) (by simp [Task.job?])

theorem dispatchRequest_taskOf (P : Setup) (s : Sys) (id : ℕ) (job : Job) :
    TaskOf (s.dispatchRequest P id job) id job := by
  unfold Sys.dispatchRequest
  rcases s.selectBackend id job.route [] with ⟨s', _ | b⟩ <;> dsimp only <;> split_ifs
  · exact startBuffering_taskOf _ _ _ _
  · exact reject_taskOf _ _ _ _ _ _
  · exact startBuffering_taskOf _ _ _ _
  · exact startBuffering_taskOf _ _ _ _
  · exact .of_moves (forwardRequest_moves ..) (by simp [Task.job?])

/-- The locals of a new request have the id that it gets. -/
theorem handleRequest_requestId {P : Setup} {s : Sys} {id : ℕ} {request : Request}
    {task : Task} {job : Job} (htask : (s.handleRequest P id request).tasks.get? id = some task)
    (hjob : task.job? = some job) : job.requestId = (s.requestId request).2 := by
  have hid : (((s.emit (.arrived id request)).record .request).requestId request).2 =
      (s.requestId request).2 := requestId_congr (by rfl) request
  rw [← hid]
  clear hid
  unfold Sys.handleRequest at htask
  dsimp only at htask
  generalize ((s.emit (.arrived id request)).record .request).requestId request = p at htask ⊢
  obtain ⟨s₁, rid⟩ := p
  dsimp only at htask ⊢
  have hreject : ∀ {s : Sys} {kind response},
      (s.reject id rid kind response).tasks.get? id = some task → False := by
    intro s kind response h
    obtain ⟨r, hmoves⟩ := reject_moves s id rid kind response
    rw [hmoves.tasks, Table.get?_insert_self] at h
    rw [← Option.some.inj h] at hjob
    cases hjob
  split at htask
  · split at htask
    · exact (hreject htask).elim
    · split at htask
      · exact (hreject htask).elim
      · rw [dispatchRequest_taskOf P s₁ id _ task job htask hjob]
  · rename_i hne
    unfold Sys.handleInternal at htask
    split at htask <;> first | exact (hreject htask).elim | exact (hne ‹_›).elim

end FerrumProxy
