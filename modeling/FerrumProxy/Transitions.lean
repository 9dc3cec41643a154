/-
  What a step of the running proxy can do.

  `Trans P m t id e old os new` is the request automaton: under the event `e` at
  the instant `t`, a request in state `old` writes `os` to the log and is then in
  state `new`, where `m` is the health manager before the step.  It keeps the
  guards of the code and leaves out the shared state and the texts.

  `step_cases`: every step of the system is one transition of one request, or
  the recording of an active check.  The health state always results from the
  calls in the log, and the permits follow the tasks that buffer.  All results
  about runs are derived from this lemma and never look at the handlers again.
-/
import FerrumProxy.System

namespace FerrumProxy

open Lib Sys

/-! ## The health calls of a log -/

/-- The calls of the health manager in a log. -/
def healthHistory (log : List (ℕ × Obs)) : HealthManager.History :=
  log.filterMap fun e =>
    match e.2 with
    | .health _ c => some (e.1, c)
    | _ => none

@[simp] theorem healthHistory_nil : healthHistory [] = [] := rfl

@[simp] theorem healthHistory_append (l l' : List (ℕ × Obs)) :
    healthHistory (l ++ l') = healthHistory l ++ healthHistory l' := List.filterMap_append ..

@[simp] theorem healthHistory_health (t : ℕ) (src : Source) (c : HealthManager.Event)
    (l : List (ℕ × Obs)) : healthHistory ((t, .health src c) :: l) = (t, c) :: healthHistory l :=
  rfl

/-- An entry that is not a call of the health manager. -/
def Obs.plain : Obs → Bool
  | .health _ _ => false
  | _ => true

theorem healthHistory_plain {o : Obs} (h : o.plain) (t : ℕ) (l : List (ℕ × Obs)) :
    healthHistory ((t, o) :: l) = healthHistory l := by
  cases o <;> first | rfl | simp [Obs.plain] at h

/-! ## The request automaton -/

/-- A request that `handle_request` answers before the dispatch. -/
def AnsweredFirst (P : Setup) (request : Request) : Prop :=
  internalRoute P request ≠ .none ∨
    (contentLengthExceeds request.headers P.config.upstream.maxRequestBodyBytes).isSome ∨
    matchRoute request.uri.path P.config.routes = none

/-- The internal routes that read the statuses of the backends. -/
def ReadsStatuses (P : Setup) (request : Request) : Prop :=
  internalRoute P request = .backendHealth ∨ internalRoute P request = .metrics

instance (P : Setup) (request : Request) : Decidable (ReadsStatuses P request) :=
  inferInstanceAs (Decidable (_ ∨ _))

/-- The locals of a request that has passed the checks of `handle_request`. -/
structure Enters (P : Setup) (t : ℕ) (request : Request) (job : Job) : Prop where
  passed : ¬ AnsweredFirst P request
  route : matchRoute request.uri.path P.config.routes = some job.route
  started : job.started = t
  request_eq : job.request =
    { request with headers := insertText request.headers requestIdHeader job.requestId }

/-- The entry for a look at the backends of a route. -/
def lookEntry (t id : ℕ) (route : RouteConfig) : ℕ × Obs :=
  (t, .health (.request id) (.healthyBackends route))

/-- The candidates of `select_backend` under the manager `m`. -/
def candidatesAt (m : HealthManager) (t : ℕ) (route : RouteConfig) (attempted : List String) :
    List String :=
  (m.healthyBackends t route).2.filter (· ∉ attempted)

/-- From the head of the retry loop to the next await. -/
inductive Head (P : Setup) (m : HealthManager) (t id : ℕ) (job : Job) (attempted : List String)
    (n : ℕ) (body : Bytes) : List (ℕ × Obs) → Task → Prop
  | late {response} : P.totalTimeout ≤ t - job.started →
      Head P m t id job attempted n body [(t, .responded id response)] .done
  | exhausted {response} : t - job.started < P.totalTimeout →
      candidatesAt m t job.route attempted = [] →
      Head P m t id job attempted n body
        [lookEntry t id job.route, (t, .responded id response)] .done
  | attempt {b upstream} : t - job.started < P.totalTimeout →
      b ∈ candidatesAt m t job.route attempted →
      Head P m t id job attempted n body
        [lookEntry t id job.route, (t, .selected id b),
          (t, .attempt id b (.retry (attempted ++ [b]) n body) upstream (t - job.started))]
        (.forwarding job b (.retry (attempted ++ [b]) n body))

/-- The entry for the outcome of an attempt. -/
def outcomeEntry (P : Setup) (m : HealthManager) (t id : ℕ) (job : Job) (b : String)
    (d : Dispatch) (r : Resolution) : ℕ × Obs :=
  (t, .health (.request id) (outcome m job.route b (forwardResult P job b d r)))

/-- The response made of the result of an attempt. -/
def resultResponse (job : Job) (result : Except UpstreamError Response) : Response :=
  let response := match result with
    | .ok response => response
    | .error err => badGatewayResponse err
  { response with headers := insertText response.headers requestIdHeader job.requestId }

/-- The reasons of the retry loop to return the response of attempt `n`. -/
def Stops (P : Setup) (t : ℕ) (job : Job) (n status : ℕ) : Prop :=
  P.shouldRetryStatus job.route status = false ∨ P.config.retry.maxAttempts ≤ n ∨
    P.totalTimeout ≤ t - job.started ∨
    (0 < P.config.retry.backoffMs ∧ P.totalTimeout - (t - job.started) ≤ P.backoff n)

/-- The transitions of one request. -/
inductive Trans (P : Setup) (m : HealthManager) (t id : ℕ) :
    Event → Option Task → List (ℕ × Obs) → Task → Prop
  /-- answered before the dispatch; two internal routes read the statuses -/
  | answered {req response looks} : AnsweredFirst P req →
      (looks = [] ∨ looks = [(t, .health (.request id) .backendStatuses)]) →
      (looks ≠ [] ↔ ReadsStatuses P req) →
      Trans P m t id (.arrive id req) none
        ((t, .arrived id req) :: looks ++ [(t, .responded id response)]) .done
  | noPermit {req job response} : Enters P t req job → P.shouldRetryRequest req.method →
      Trans P m t id (.arrive id req) none
        [(t, .arrived id req), (t, .responded id response)] .done
  | startRetry {req job} : Enters P t req job → P.shouldRetryRequest req.method →
      Trans P m t id (.arrive id req) none [(t, .arrived id req)] (.buffering job none [])
  | noBackend {req job response} : Enters P t req job →
      P.shouldRetryRequest req.method = false → candidatesAt m t job.route [] = [] →
      Trans P m t id (.arrive id req) none
        [(t, .arrived id req), lookEntry t id job.route, (t, .responded id response)] .done
  | noPermitChosen {req job b response} : Enters P t req job →
      P.shouldRetryRequest req.method = false → shouldPrebufferRequest req.method →
      b ∈ candidatesAt m t job.route [] →
      Trans P m t id (.arrive id req) none
        [(t, .arrived id req), lookEntry t id job.route, (t, .selected id b),
          (t, .responded id response)] .done
  | startPrebuffer {req job b} : Enters P t req job →
      P.shouldRetryRequest req.method = false → shouldPrebufferRequest req.method →
      b ∈ candidatesAt m t job.route [] →
      Trans P m t id (.arrive id req) none
        [(t, .arrived id req), lookEntry t id job.route, (t, .selected id b)]
        (.buffering job (some b) [])
  | startStream {req job b upstream} : Enters P t req job →
      P.shouldRetryRequest req.method = false → shouldPrebufferRequest req.method = false →
      b ∈ candidatesAt m t job.route [] →
      Trans P m t id (.arrive id req) none
        [(t, .arrived id req), lookEntry t id job.route, (t, .selected id b),
          (t, .attempt id b (.stream (.running 0)) upstream (t - job.started))]
        (.forwarding job b (.stream (.running 0)))
  | chunk {job chosen buffered buffered' item} :
      bufferItem P.config.upstream.maxRequestBodyBytes (P.routeClientBodyTimeout job.route)
        buffered item = .ok buffered' →
      Trans P m t id (.body id (some item)) (some (.buffering job chosen buffered)) []
        (.buffering job chosen buffered')
  | bufferFailed {job chosen buffered item err response} :
      bufferItem P.config.upstream.maxRequestBodyBytes (P.routeClientBodyTimeout job.route)
        buffered item = .error err →
      Trans P m t id (.body id (some item)) (some (.buffering job chosen buffered))
        [(t, .responded id response)] .done
  | bufferedRetry {job buffered os new} : Head P m t id job [] 1 buffered os new →
      Trans P m t id (.body id none) (some (.buffering job none buffered)) os new
  | bufferedPrebuffer {job b buffered upstream} :
      Trans P m t id (.body id none) (some (.buffering job (some b) buffered))
        [(t, .attempt id b (.prebuffer buffered) upstream (t - job.started))]
        (.forwarding job b (.prebuffer buffered))
  /-- an item of a streamed body: the stream goes on, fails or ends -/
  | upload {job b seen item seen' bytes} :
      limitItem P.config.upstream.maxRequestBodyBytes (P.routeClientBodyTimeout job.route)
        clientContext seen item = (seen', .ok bytes) →
      Trans P m t id (.body id (some item)) (some (.forwarding job b (.stream (.running seen))))
        [] (.forwarding job b (.stream (.running seen')))
  | uploadFailed {job b seen item seen' err} :
      limitItem P.config.upstream.maxRequestBodyBytes (P.routeClientBodyTimeout job.route)
        clientContext seen item = (seen', .error err) →
      Trans P m t id (.body id (some item)) (some (.forwarding job b (.stream (.running seen))))
        [] (.forwarding job b (.stream .failed))
  | uploadEnded {job b seen} :
      Trans P m t id (.body id none) (some (.forwarding job b (.stream (.running seen)))) []
        (.forwarding job b (.stream .ended))
  /-- the response of an attempt is returned to the client -/
  | returned {job b d r new} : new = .responding job b 0 ∨ new = .done →
      (∀ attempted n body, d = .retry attempted n body →
        Stops P t job n (resultResponse job (forwardResult P job b d r)).status) →
      Trans P m t id (.resolved id r) (some (.forwarding job b d))
        [outcomeEntry P m t id job b d r,
          (t, .responded id (resultResponse job (forwardResult P job b d r)))] new
  | backoff {job b attempted n body r} : n < P.config.retry.maxAttempts →
      P.shouldRetryStatus job.route (resultResponse job
        (forwardResult P job b (.retry attempted n body) r)).status →
      P.backoff n < P.totalTimeout - (t - job.started) →
      Trans P m t id (.resolved id r) (some (.forwarding job b (.retry attempted n body)))
        [outcomeEntry P m t id job b (.retry attempted n body) r,
          (t, .pause id n (P.backoff n) (P.totalTimeout - (t - job.started)))]
        (.sleeping job attempted (n + 1) body (t + P.backoff n))
  | again {job b attempted n body r os new} : n < P.config.retry.maxAttempts →
      P.shouldRetryStatus job.route (resultResponse job
        (forwardResult P job b (.retry attempted n body) r)).status →
      P.config.retry.backoffMs = 0 → 0 < P.totalTimeout - (t - job.started) →
      Head P (m.step (t, outcome m job.route b
        (forwardResult P job b (.retry attempted n body) r))) t id job attempted (n + 1) body
        os new →
      Trans P m t id (.resolved id r) (some (.forwarding job b (.retry attempted n body)))
        (outcomeEntry P m t id job b (.retry attempted n body) r ::
          (t, .pause id n 0 (P.totalTimeout - (t - job.started))) :: os) new
  | woken {job attempted n body till os new} : till ≤ t →
      Head P m t id job attempted n body os new →
      Trans P m t id (.wake id) (some (.sleeping job attempted n body till)) os new
  | download {job b seen item seen' bytes} :
      limitItem P.config.upstream.maxResponseBodyBytes (P.routeReadTimeout job.route)
        upstreamContext seen item = (seen', .ok bytes) →
      Trans P m t id (.download id (some item)) (some (.responding job b seen)) []
        (.responding job b seen')
  /-- the response body breaks and `response_error_hook` is called -/
  | downloadFailed {job b seen item seen' err} :
      limitItem P.config.upstream.maxResponseBodyBytes (P.routeReadTimeout job.route)
        upstreamContext seen item = (seen', .error err) →
      Trans P m t id (.download id (some item)) (some (.responding job b seen))
        [(t, .health (.request id) (.recordFailure b))] .done
  | downloaded {job b seen} :
      Trans P m t id (.download id none) (some (.responding job b seen)) [] .done
  | dropped {old} : old ≠ .done → Trans P m t id (.dropped id) (some old) [] .done

/-! ## Effects of the handlers -/

/-- `s'` is `s` after some effects that wrote `os` to the log; tasks and permits are as before. -/
structure Eff (s : Sys) (os : List (ℕ × Obs)) (s' : Sys) : Prop where
  tasks : s'.tasks = s.tasks
  permits : s'.permits = s.permits
  now : s'.now = s.now
  log : s'.log = s.log ++ os
  health : s'.health = s.health.run (healthHistory os)

/-- `s'` is `s` after effects that wrote `os` to the log and moved the request `id` to `new`. -/
structure Moves (s : Sys) (id : ℕ) (os : List (ℕ × Obs)) (new : Task) (s' : Sys) : Prop where
  tasks : s'.tasks = s.tasks.insert id new
  permits : s'.permits = s.permits
  now : s'.now = s.now
  log : s'.log = s.log ++ os
  health : s'.health = s.health.run (healthHistory os)

namespace Eff

variable {s s₁ s₂ : Sys} {os os' : List (ℕ × Obs)}

theorem trans (h : Eff s os s₁) (h' : Eff s₁ os' s₂) : Eff s (os ++ os') s₂ where
  tasks := h'.tasks.trans h.tasks
  permits := h'.permits.trans h.permits
  now := h'.now.trans h.now
  log := by rw [h'.log, h.log, List.append_assoc]
  health := by rw [h'.health, h.health, healthHistory_append, HealthManager.run_append]

theorem emit (s : Sys) {o : Obs} (h : o.plain) : Eff s [(s.now, o)] (s.emit o) :=
  ⟨rfl, rfl, rfl, rfl, by rw [healthHistory_plain h]; rfl⟩

theorem record (s : Sys) (c : Telemetry.Call) : Eff s [] (s.record c) :=
  ⟨rfl, rfl, rfl, by simp [Sys.record], rfl⟩

theorem callHealth (s : Sys) (src : Source) (e : HealthManager.Event) :
    Eff s [(s.now, .health src e)] (s.callHealth src e) := ⟨rfl, rfl, rfl, rfl, rfl⟩

theorem setTask (h : Eff s os s₁) (id : ℕ) (task : Task) : Moves s id os task (s₁.setTask id task) :=
  ⟨by rw [Sys.setTask, h.tasks], h.permits, h.now, h.log, h.health⟩

theorem then_moves {id : ℕ} {new : Task} (h : Eff s os s₁) (h' : Moves s₁ id os' new s₂) :
    Moves s id (os ++ os') new s₂ where
  tasks := by rw [h'.tasks, h.tasks]
  permits := h'.permits.trans h.permits
  now := h'.now.trans h.now
  log := by rw [h'.log, h.log, List.append_assoc]
  health := by rw [h'.health, h.health, healthHistory_append, HealthManager.run_append]

end Eff

theorem setTask_moves (s : Sys) (id : ℕ) (task : Task) : Moves s id [] task (s.setTask id task) :=
  ⟨rfl, rfl, rfl, by simp [setTask], rfl⟩

theorem reject_moves (s : Sys) (id : ℕ) (requestId : String) (kind : Option String)
    (response : Response) :
    ∃ r, Moves s id [(s.now, .responded id r)] .done (s.reject id requestId kind response) := by
  unfold Sys.reject Sys.completeRequest Sys.respond
  cases kind with
  | none => exact ⟨_, ((Eff.record s _).trans (Eff.emit _ rfl)).setTask id .done⟩
  | some kind =>
    exact ⟨_, (((Eff.record s _).trans (Eff.record _ _)).trans (Eff.emit _ rfl)).setTask id .done⟩

/-- `select_backend` looks at the backends of the route, and chooses a candidate if there is
    one. -/
theorem selectBackend_cases (s : Sys) (id : ℕ) (route : RouteConfig) (attempted : List String) :
    (∃ s', s.selectBackend id route attempted = (s', none) ∧
      candidatesAt s.health s.now route attempted = [] ∧ Eff s [lookEntry s.now id route] s') ∨
    (∃ s' b, s.selectBackend id route attempted = (s', some b) ∧
      b ∈ candidatesAt s.health s.now route attempted ∧
      Eff s [lookEntry s.now id route, (s.now, .selected id b)] s') := by
  have hl : ∀ L, Eff s [lookEntry s.now id route]
      { s.callHealth (.request id) (.healthyBackends route) with balancer := L } :=
    fun L => ⟨rfl, rfl, rfl, rfl, rfl⟩
  unfold Sys.selectBackend
  rcases hc : s.balancer.selectBackend route (s.candidates route attempted) with ⟨L, _ | b⟩
  · refine Or.inl ⟨_, rfl, ?_, hl L⟩
    exact LoadBalancer.selectBackend_eq_none.1 (congrArg Prod.snd hc)
  · refine Or.inr ⟨_, b, rfl, ?_, (hl L).trans (Eff.emit _ rfl)⟩
    exact LoadBalancer.selectBackend_mem (L := s.balancer) (congrArg Prod.snd hc)

theorem forwardRequest_moves (P : Setup) (s : Sys) (id : ℕ) (job : Job) (b : String)
    (d : Dispatch) :
    Moves s id [(s.now, .attempt id b d (prepareAttempt P job b d) (s.now - job.started))]
      (.forwarding job b d) (s.forwardRequest P id job b d) :=
  (Eff.emit s rfl).setTask id _

theorem respond_moves (s : Sys) (id : ℕ) (task : Task) (response : Response) :
    Moves s id [(s.now, .responded id response)] task (s.respond id task response) :=
  (Eff.emit s rfl).setTask id task

theorem retryLoop_head (P : Setup) (s : Sys) (id : ℕ) (job : Job) (attempted : List String)
    (n : ℕ) (body : Bytes) :
    ∃ os new, Moves s id os new (s.retryLoop P id job attempted n body) ∧
      Head P s.health s.now id job attempted n body os new := by
  unfold Sys.retryLoop
  by_cases hlate : P.totalTimeout ≤ s.now - job.started
  · rw [if_pos hlate]
    obtain ⟨r, hr⟩ := reject_moves s id job.requestId (some "retry_budget_exhausted")
      (textResponse 504 "retry budget exhausted before a successful upstream response\n")
    exact ⟨_, _, hr, .late hlate⟩
  · have hin := not_le.1 hlate
    rw [if_neg hlate]
    rcases selectBackend_cases s id job.route attempted with
      ⟨s', he, hc, hs'⟩ | ⟨s', b, he, hb, hs'⟩
    · rw [he]
      have hrej : ∀ kind response, ∃ os new,
          Moves s id os new (s'.reject id job.requestId kind response) ∧
            Head P s.health s.now id job attempted n body os new := fun kind response => by
        obtain ⟨r, hr⟩ := reject_moves s' id job.requestId kind response
        exact ⟨_, _, hs'.then_moves hr, by rw [hs'.now]; exact .exhausted hin hc⟩
      dsimp only
      split_ifs
      · exact hrej _ _
      · exact hrej _ _
    · rw [he]
      refine ⟨_, _, hs'.then_moves (forwardRequest_moves P s' id job b _), ?_⟩
      rw [hs'.now]
      exact .attempt hin hb

/-- `forward_request` after its await: one outcome is recorded. -/
theorem forwardDone_eff (s : Sys) (id : ℕ) (job : Job) (b : String)
    (result : Except UpstreamError Response) :
    ∃ s', s.forwardDone id job b result = (s', resultResponse job result) ∧
      Eff s [(s.now, .health (.request id) (outcome s.health job.route b result))] s' := by
  unfold Sys.forwardDone Sys.completeRequest
  cases result with
  | ok response =>
    exact ⟨_, rfl, ((Eff.record s _).trans (Eff.callHealth _ _ _)).trans (Eff.record _ _)⟩
  | error err =>
    exact ⟨_, rfl, (((Eff.record s _).trans (Eff.callHealth _ _ _)).trans (Eff.record _ _)).trans
      (Eff.record _ _)⟩

/-! ## Steps are transitions -/

/-- The permits a request holds. -/
def permitsOf : Option Task → ℕ
  | some (.buffering _ _ _) => 1
  | _ => 0

/-- The system takes the transition `old → new` of the request `id`. -/
structure Takes (P : Setup) (s : Sys) (e : Event) (id : ℕ) (os : List (ℕ × Obs)) (new : Task)
    (s' : Sys) : Prop where
  trans : Trans P s.health s.now id e (s.tasks.get? id) os new
  tasks : s'.tasks = s.tasks.insert id new
  permits : s'.permits + permitsOf (some new) = s.permits + permitsOf (s.tasks.get? id)
  now : s'.now = s.now
  log : s'.log = s.log ++ os
  health : s'.health = s.health.run (healthHistory os)

section
variable {P : Setup} {s s' : Sys} {e : Event} {id : ℕ} {os : List (ℕ × Obs)} {new : Task}

theorem Moves.takes (h : Moves s id os new s')
    (ht : Trans P s.health s.now id e (s.tasks.get? id) os new)
    (hp : permitsOf (some new) = permitsOf (s.tasks.get? id)) : Takes P s e id os new s' :=
  ⟨ht, h.tasks, by rw [h.permits, hp], h.now, h.log, h.health⟩

/-- The permit goes back before the request moves on. -/
theorem Moves.takes_release (h : Moves s.release id os new s')
    (ht : Trans P s.health s.now id e (s.tasks.get? id) os new)
    (hn : permitsOf (some new) = 0) (ho : permitsOf (s.tasks.get? id) = 1) :
    Takes P s e id os new s' :=
  ⟨ht, h.tasks, by rw [h.permits, hn, ho]; rfl, h.now, h.log, h.health⟩

theorem Head.permitsOf_eq {m : HealthManager} {t : ℕ} {job : Job} {attempted : List String}
    {n : ℕ} {body : Bytes} (h : Head P m t id job attempted n body os new) :
    permitsOf (some new) = 0 := by
  cases h <;> rfl

theorem afterResponse_cases (job : Job) (b : String) (response : Response) :
    afterResponse job b response = .responding job b 0 ∨ afterResponse job b response = .done := by
  unfold afterResponse
  split
  · exact Or.inl rfl
  · exact Or.inr rfl

/-- The response of an attempt goes to the client. -/
theorem respond_takes {job : Job} {b : String} {d : Dispatch} {r : Resolution} {s₁ : Sys}
    (hold : s.tasks.get? id = some (.forwarding job b d))
    (hs₁ : Eff s [outcomeEntry P s.health s.now id job b d r] s₁)
    (hstop : ∀ attempted n body, d = .retry attempted n body →
      Stops P s.now job n (resultResponse job (forwardResult P job b d r)).status) :
    let response := resultResponse job (forwardResult P job b d r)
    ∃ os new, Takes P s (.resolved id r) id os new
      (s₁.respond id (afterResponse job b response) response) := by
  intro response
  have hnew := afterResponse_cases job b response
  refine ⟨_, _, (hs₁.then_moves (respond_moves s₁ id _ response)).takes ?_ ?_⟩
  · rw [hold, hs₁.now]
    exact .returned hnew hstop
  · rw [hold]
    rcases hnew with h | h <;> rw [h] <;> rfl

/-- The retry loop, from the response of an attempt on. -/
theorem afterAttempt_takes {job : Job} {b : String} {attempted : List String} {n : ℕ}
    {body : Bytes} {r : Resolution} {s₁ : Sys}
    (hold : s.tasks.get? id = some (.forwarding job b (.retry attempted n body)))
    (hs₁ : Eff s [outcomeEntry P s.health s.now id job b (.retry attempted n body) r] s₁) :
    ∃ os new, Takes P s (.resolved id r) id os new (s₁.afterAttempt P id job b attempted n body
      (resultResponse job (forwardResult P job b (.retry attempted n body) r))) := by
  have hstops : Stops P s.now job n
      (resultResponse job (forwardResult P job b (.retry attempted n body) r)).status →
      ∀ attempted' n' body', Dispatch.retry attempted n body = .retry attempted' n' body' →
        Stops P s.now job n'
          (resultResponse job (forwardResult P job b (.retry attempted n body) r)).status := by
    rintro h _ _ _ he
    cases he
    exact h
  unfold Sys.afterAttempt
  rw [hs₁.now]
  dsimp only
  split_ifs with hstop hb hlong
  · refine respond_takes hold hs₁ (hstops ?_)
    simp only [Bool.or_eq_true, Bool.not_eq_true', decide_eq_true_eq] at hstop
    rcases hstop with (h | h) | h
    · exact Or.inl h
    · exact Or.inr (Or.inl h)
    · exact Or.inr (Or.inr (Or.inl h))
  · exact respond_takes hold hs₁ (hstops (Or.inr (Or.inr (Or.inr ⟨hb, hlong⟩))))
  · simp only [Bool.or_eq_true, Bool.not_eq_true', decide_eq_true_eq, not_or, not_le,
      Bool.not_eq_false] at hstop
    have hm := (hs₁.trans (Eff.emit s₁ (o := .pause id n (P.backoff n)
      (P.totalTimeout - (s.now - job.started))) rfl)).setTask id
      (.sleeping job attempted (n + 1) body (s.now + P.backoff n))
    rw [hs₁.now] at hm
    refine ⟨_, _, hm.takes ?_ (by rw [hold]; rfl)⟩
    rw [hold]
    exact .backoff hstop.1.2 hstop.1.1 (not_le.1 hlong)
  · simp only [Bool.or_eq_true, Bool.not_eq_true', decide_eq_true_eq, not_or, not_le,
      Bool.not_eq_false] at hstop
    have he := hs₁.trans (Eff.emit s₁ (o := .pause id n 0
      (P.totalTimeout - (s.now - job.started))) rfl)
    obtain ⟨os, new, hmoves, hhead⟩ := retryLoop_head P
      (s₁.emit (.pause id n 0 (P.totalTimeout - (s.now - job.started)))) id job attempted (n + 1)
      body
    refine ⟨_, _, (he.then_moves hmoves).takes ?_ (by rw [hold, hhead.permitsOf_eq]; rfl)⟩
    rw [hold]
    rw [he.now, show (s₁.emit _).health = s₁.health from rfl, hs₁.health] at hhead
    rw [hs₁.now]
    exact .again hstop.1.2 hstop.1.1 (by omega) (by omega) hhead

/-- The await of `forward` resolves. -/
theorem resolve_takes {job : Job} {b : String} {d : Dispatch} (r : Resolution)
    (hold : s.tasks.get? id = some (.forwarding job b d)) :
    ∃ os new, Takes P s (.resolved id r) id os new (s.resolve P id job b d r) := by
  obtain ⟨s₁, he, hs₁⟩ := forwardDone_eff s id job b (forwardResult P job b d r)
  unfold Sys.resolve
  rw [he]
  cases d with
  | retry attempted n body => exact afterAttempt_takes hold hs₁
  | prebuffer body => exact respond_takes hold hs₁ (by rintro _ _ _ ⟨⟩)
  | stream upload => exact respond_takes hold hs₁ (by rintro _ _ _ ⟨⟩)

/-! ### Body items -/

theorem bufferStep_takes {job : Job} {chosen : Option String} {buffered : Bytes}
    (item : Option StreamItem) (hold : s.tasks.get? id = some (.buffering job chosen buffered)) :
    ∃ os new, Takes P s (.body id item) id os new (s.bufferStep P id job chosen buffered item) := by
  unfold Sys.bufferStep
  cases item with
  | some item =>
    dsimp only
    split
    · rename_i buffered' hitem
      refine ⟨[], _, (setTask_moves s id _).takes ?_ (by rw [hold]; rfl)⟩
      rw [hold]
      exact .chunk hitem
    · rename_i err hitem
      obtain ⟨r, hr⟩ := reject_moves s.release id job.requestId (some err.kind) err.intoResponse
      refine ⟨_, _, hr.takes_release ?_ rfl (by rw [hold]; rfl)⟩
      rw [hold]
      exact .bufferFailed hitem
  | none =>
    cases chosen with
    | none =>
      obtain ⟨os, new, hmoves, hhead⟩ := retryLoop_head P s.release id job [] 1 buffered
      refine ⟨os, new, hmoves.takes_release ?_ hhead.permitsOf_eq (by rw [hold]; rfl)⟩
      rw [hold]
      exact .bufferedRetry hhead
    | some b =>
      refine ⟨_, _, (forwardRequest_moves P s.release id job b _).takes_release ?_ rfl
        (by rw [hold]; rfl)⟩
      rw [hold]
      exact .bufferedPrebuffer

theorem uploadStep_takes {job : Job} {b : String} {seen : ℕ} (item : Option StreamItem)
    (hold : s.tasks.get? id = some (.forwarding job b (.stream (.running seen)))) :
    ∃ os new, Takes P s (.body id item) id os new (s.uploadStep P id job b seen item) := by
  unfold Sys.uploadStep
  cases item with
  | some item =>
    dsimp only
    split
    · rename_i seen' bytes hitem
      refine ⟨[], _, (setTask_moves s id _).takes ?_ (by rw [hold]; rfl)⟩
      rw [hold]
      exact .upload hitem
    · rename_i seen' err hitem
      refine ⟨_, _, ((Eff.record s _).setTask id _).takes ?_ (by rw [hold]; rfl)⟩
      rw [hold]
      exact .uploadFailed hitem
  | none =>
    refine ⟨[], _, (setTask_moves s id _).takes ?_ (by rw [hold]; rfl)⟩
    rw [hold]
    exact .uploadEnded

theorem downloadStep_takes {job : Job} {b : String} {seen : ℕ} (item : Option StreamItem)
    (hold : s.tasks.get? id = some (.responding job b seen)) :
    ∃ os new, Takes P s (.download id item) id os new (s.downloadStep P id job b seen item) := by
  unfold Sys.downloadStep
  cases item with
  | some item =>
    dsimp only
    split
    · rename_i seen' bytes hitem
      refine ⟨[], _, (setTask_moves s id _).takes ?_ (by rw [hold]; rfl)⟩
      rw [hold]
      exact .download hitem
    · rename_i seen' err hitem
      refine ⟨_, _, (((Eff.record s _).trans (Eff.callHealth _ _ _)).setTask id _).takes ?_
        (by rw [hold]; rfl)⟩
      rw [hold]
      exact .downloadFailed hitem
  | none =>
    refine ⟨[], _, (setTask_moves s id _).takes ?_ (by rw [hold]; rfl)⟩
    rw [hold]
    exact .downloaded

/-! ### Arrival -/

section
variable {s₁ : Sys} (hold : s.tasks.get? id = none) (hs₁ : Eff s os s₁)
include hold hs₁

theorem reject_takes {requestId : String} {kind : Option String} {response : Response}
    (ht : ∀ r, Trans P s.health s.now id e none (os ++ [(s.now, .responded id r)]) .done) :
    ∃ os new, Takes P s e id os new (s₁.reject id requestId kind response) := by
  obtain ⟨r, hr⟩ := reject_moves s₁ id requestId kind response
  refine ⟨_, _, (hs₁.then_moves hr).takes ?_ (by rw [hold]; rfl)⟩
  rw [hold, hs₁.now]
  exact ht r

/-- A request that is to be buffered takes a free permit, or is answered. -/
theorem startBuffering_takes {job : Job} {chosen : Option String}
    (hrej : ∀ r, Trans P s.health s.now id e none (os ++ [(s.now, .responded id r)]) .done)
    (hstart : Trans P s.health s.now id e none os (.buffering job chosen [])) :
    ∃ os new, Takes P s e id os new (s₁.startBuffering id job chosen) := by
  unfold Sys.startBuffering
  split_ifs with hp
  · exact reject_takes hold hs₁ hrej
  · refine ⟨os, _, by rwa [hold], ?_, ?_, hs₁.now, hs₁.log, hs₁.health⟩
    · rw [← hs₁.tasks]; rfl
    · rw [hold, ← hs₁.permits]
      exact Nat.sub_add_cancel (Nat.pos_of_ne_zero hp)

end

theorem dispatchRequest_takes {s₁ : Sys} {req : Request} {job : Job}
    (hold : s.tasks.get? id = none) (hs₁ : Eff s [(s.now, .arrived id req)] s₁)
    (henter : Enters P s.now req job) :
    ∃ os new, Takes P s (.arrive id req) id os new (s₁.dispatchRequest P id job) := by
  have hmethod : job.request.method = req.method := by rw [henter.request_eq]
  have hhealth : s₁.health = s.health := hs₁.health
  unfold Sys.dispatchRequest
  rw [hmethod]
  by_cases hretry : P.shouldRetryRequest req.method
  · rw [if_pos hretry]
    exact startBuffering_takes hold hs₁ (fun _ => .noPermit henter hretry)
      (.startRetry henter hretry)
  rw [if_neg hretry]
  rw [Bool.not_eq_true] at hretry
  rcases selectBackend_cases s₁ id job.route [] with ⟨s₂, he, hc, hs₂⟩ | ⟨s₂, b, he, hb, hs₂⟩
  · rw [hs₁.now] at hs₂
    rw [hhealth, hs₁.now] at hc
    rw [he]
    exact reject_takes hold (hs₁.trans hs₂) fun _ => .noBackend henter hretry hc
  rw [hs₁.now] at hs₂
  rw [hhealth, hs₁.now] at hb
  have hs₂ := hs₁.trans hs₂
  rw [he]
  dsimp only
  split_ifs with hpre
  · exact startBuffering_takes hold hs₂ (fun _ => .noPermitChosen henter hretry hpre hb)
      (.startPrebuffer henter hretry hpre hb)
  · refine ⟨_, _, (hs₂.then_moves (forwardRequest_moves P s₂ id job b _)).takes ?_
      (by rw [hold]; rfl)⟩
    rw [hold, hs₂.now]
    exact .startStream henter hretry (Bool.not_eq_true _ ▸ hpre) hb

theorem requestId_eff (s : Sys) (req : Request) : ∃ s' rid, s.requestId req = (s', rid) ∧
    Eff s [] s' := by
  unfold Sys.requestId
  split
  · exact ⟨_, _, rfl, rfl, rfl, rfl, by simp, rfl⟩
  · exact ⟨_, _, rfl, rfl, rfl, rfl, by simp, rfl⟩

/-- The correlation id does not influence the internal routes. -/
theorem internalRoute_requestId (P : Setup) (req : Request) (rid : String) :
    internalRoute P { req with headers := insertText req.headers requestIdHeader rid } =
      internalRoute P req := by
  have ha : debugRequestAuthorized P
      { req with headers := insertText req.headers requestIdHeader rid } =
      debugRequestAuthorized P req := by
    unfold debugRequestAuthorized
    split
    · rfl
    · rw [get_insertText_ne _ _ (by decide)]
  unfold internalRoute
  rw [ha]

/-- The correlation id does not influence the content length. -/
theorem contentLengthExceeds_requestId (h : HeaderMap) (rid : String) (limit : ℕ) :
    contentLengthExceeds (insertText h requestIdHeader rid) limit =
      contentLengthExceeds h limit := by
  unfold contentLengthExceeds
  rw [get_insertText_ne _ _ (by decide)]

theorem handleRequest_takes (req : Request) (hold : s.tasks.get? id = none) :
    ∃ os new, Takes P s (.arrive id req) id os new (s.handleRequest P id req) := by
  obtain ⟨s₁, rid, he, hs₁⟩ := requestId_eff ((s.emit (.arrived id req)).record .request) req
  have hs₁ := ((Eff.emit s (o := .arrived id req) rfl).trans (Eff.record _ _)).trans hs₁
  unfold Sys.handleRequest
  dsimp only
  rw [he]
  dsimp only
  have hplain : ∀ kind response, AnsweredFirst P req → ¬ ReadsStatuses P req →
      ∃ os new, Takes P s (.arrive id req) id os new (s₁.reject id rid kind response) :=
    fun kind response ha hno => reject_takes hold hs₁ fun _ =>
      .answered ha (Or.inl rfl) (iff_of_false (not_not.2 rfl) hno)
  have hlook : ∀ response, ReadsStatuses P req → ∃ os new, Takes P s (.arrive id req) id os new
      ((s₁.callHealth (.request id) .backendStatuses).reject id rid none response) := by
    intro response hreads
    have ha : AnsweredFirst P req := Or.inl (by rcases hreads with h | h <;> simp [h])
    have hs₂ := hs₁.trans (Eff.callHealth s₁ (.request id) .backendStatuses)
    rw [hs₁.now] at hs₂
    exact reject_takes hold hs₂ fun _ =>
      .answered ha (Or.inr rfl) (iff_of_true (List.cons_ne_nil _ _) hreads)
  simp only [internalRoute_requestId, contentLengthExceeds_requestId]
  split
  · rename_i hinternal
    have hno : ¬ ReadsStatuses P req := by simp [ReadsStatuses, hinternal]
    split
    · rename_i n hlength
      exact hplain _ _ (Or.inr (Or.inl (by rw [hlength]; rfl))) hno
    · rename_i hlength
      split
      · rename_i hroute
        exact hplain _ _ (Or.inr (Or.inr hroute)) hno
      · rename_i route hroute
        refine dispatchRequest_takes hold hs₁ ⟨?_, hroute, hs₁.now, rfl⟩
        rintro (h | h | h)
        · exact h hinternal
        · simp [hlength] at h
        · simp [hroute] at h
  · rename_i hinternal
    have ha : AnsweredFirst P req := Or.inl hinternal
    unfold Sys.handleInternal
    split
    · rename_i hnone
      exact absurd hnone hinternal
    · rename_i hroot
      exact hplain _ _ ha (by simp [ReadsStatuses, hroot])
    · rename_i hhealth
      exact hplain _ _ ha (by simp [ReadsStatuses, hhealth])
    · rename_i hunauthorized
      exact hplain _ _ ha (by simp [ReadsStatuses, hunauthorized])
    · rename_i hbackends
      exact hlook _ (Or.inl hbackends)
    · rename_i hmetrics
      exact hlook _ (Or.inr hmetrics)

/-! ### All steps -/

theorem dropTask_takes {old : Task} (hold : s.tasks.get? id = some old)
    (h : s.dropTask id old = some s') : Takes P s (.dropped id) id [] .done s' := by
  unfold Sys.dropTask at h
  split at h
  · simp at h
  · obtain rfl := Option.some.inj h
    refine (setTask_moves s.release id .done).takes_release ?_ rfl (by rw [hold]; rfl)
    rw [hold]
    exact .dropped (by simp)
  · rename_i hdone hbuf
    obtain rfl := Option.some.inj h
    refine (setTask_moves s id .done).takes ?_ ?_
    · rw [hold]
      exact .dropped hdone
    · rw [hold]
      cases old <;> first | rfl | exact absurd rfl (hbuf _ _ _)

end

/-- The system takes the transition `old → new` of the request `id` at the instant `t`. -/
structure TakesAt (P : Setup) (s : Sys) (t : ℕ) (e : Event) (id : ℕ) (os : List (ℕ × Obs))
    (new : Task) (s' : Sys) : Prop where
  trans : Trans P s.health t id e (s.tasks.get? id) os new
  tasks : s'.tasks = s.tasks.insert id new
  permits : s'.permits + permitsOf (some new) = s.permits + permitsOf (s.tasks.get? id)
  now : s'.now = t
  log : s'.log = s.log ++ os
  health : s'.health = s.health.run (healthHistory os)

/-- An active check is recorded at the instant `t`, by the call `c`. -/
structure ChecksAt (s : Sys) (t : ℕ) (e : Event) (c : HealthManager.Event) (s' : Sys) :
    Prop where
  event : ∃ b status, e = .checked b status ∧ (c = .recordSuccess b ∨ c = .recordFailure b)
  tasks : s'.tasks = s.tasks
  permits : s'.permits = s.permits
  now : s'.now = t
  log : s'.log = s.log ++ [(t, .health .check c)]
  health : s'.health = s.health.step (t, c)
  call : ∀ b status, e = .checked b status →
    c = if s.health.isActiveSuccessStatus status then .recordSuccess b else .recordFailure b

/-- **What a step can do.**  A step moves the clock on, and is then one transition of one request or
    the recording of an active check. -/
theorem step_cases {P : Setup} {s s' : Sys} {e : ℕ × Event} (h : step P s e = some s') :
    s.now ≤ e.1 ∧ ((∃ c, ChecksAt s e.1 e.2 c s') ∨
      ∃ id os new, TakesAt P s e.1 e.2 id os new s') := by
  obtain ⟨t, e⟩ := e
  unfold Sys.step at h
  split_ifs at h with hle
  refine ⟨hle, ?_⟩
  have key : ∀ s₀ : Sys, react P s₀ e = some s' → (∃ c, ChecksAt s₀ s₀.now e c s') ∨
      ∃ id os new, Takes P s₀ e id os new s' := by
    intro s₀ h
    unfold Sys.react at h
    cases e with
    | arrive id req =>
      dsimp only at h
      split at h
      · rename_i hold
        obtain rfl := Option.some.inj h
        exact Or.inr ⟨id, handleRequest_takes req hold⟩
      · simp at h
    | body id item =>
      dsimp only at h
      split at h
      · rename_i hold
        obtain rfl := Option.some.inj h
        exact Or.inr ⟨id, bufferStep_takes item hold⟩
      · rename_i hold
        obtain rfl := Option.some.inj h
        exact Or.inr ⟨id, uploadStep_takes item hold⟩
      · simp at h
    | resolved id r =>
      dsimp only at h
      split at h
      · rename_i hold
        obtain rfl := Option.some.inj h
        exact Or.inr ⟨id, resolve_takes r hold⟩
      · simp at h
    | wake id =>
      dsimp only at h
      split at h
      · rename_i job attempted n body till hold
        split_ifs at h with htill
        obtain rfl := Option.some.inj h
        obtain ⟨os, new, hmoves, hhead⟩ := retryLoop_head P s₀ id job attempted n body
        refine Or.inr ⟨id, os, new, hmoves.takes ?_ (by rw [hold, hhead.permitsOf_eq]; rfl)⟩
        rw [hold]
        exact .woken htill hhead
      · simp at h
    | download id item =>
      dsimp only at h
      split at h
      · rename_i hold
        obtain rfl := Option.some.inj h
        exact Or.inr ⟨id, downloadStep_takes item hold⟩
      · simp at h
    | dropped id =>
      obtain ⟨old, hold, hd⟩ := Option.bind_eq_some_iff.1 h
      exact Or.inr ⟨id, [], .done, dropTask_takes hold hd⟩
    | checked b status =>
      obtain rfl := Option.some.inj h
      refine Or.inl ⟨_, ⟨b, status, rfl, ?_⟩, rfl, rfl, rfl, rfl, rfl, by rintro _ _ ⟨⟩; rfl⟩
      split_ifs
      · exact Or.inl rfl
      · exact Or.inr rfl
  rcases key _ h with ⟨c, hc⟩ | ⟨id, os, new, hk⟩
  · exact Or.inl ⟨c, hc.event, hc.tasks, hc.permits, hc.now, hc.log, hc.health, hc.call⟩
  · exact Or.inr ⟨id, os, new, hk.trans, hk.tasks, hk.permits, hk.now, hk.log, hk.health⟩

end FerrumProxy
