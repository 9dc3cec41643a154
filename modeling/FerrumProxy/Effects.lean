/-
  Outlines of the handlers.

  A step of the proxy is a sequence of elementary effects: it resumes or starts a
  request, calls the health manager, the balancer and the telemetry, writes to the
  log, and stores the new task.  `Outline P I` says that the assertion `I` can be
  carried through all of them; what it says may depend on where the handler is
  (`Point`).  Then it holds between any two steps of every run (`Outline.reachable`).
-/
import FerrumProxy.Attempts

namespace FerrumProxy

open Lib Sys

/-- The locals of the request that a task belongs to. -/
def Task.job? : Task → Option Job
  | .buffering job _ _ | .forwarding job _ _ | .sleeping job _ _ _ _ | .responding job _ _ => some job
  | .done => none

/-- The backends that the retry loop has attempted. -/
def Task.attempted : Task → List String
  | .forwarding _ _ (.retry attempted _ _) | .sleeping _ attempted _ _ _ => attempted
  | _ => []

/-- Where a step is: between two requests, in the handler of a request, or in the handler between
    `complete_request` and what becomes of the completed response. -/
inductive Point where
  | idle
  | handling (id : ℕ) (request : Request) (requestId : String)
  | completed (id : ℕ) (request : Request) (requestId : String) (response : Response)

/-- Telemetry calls other than the two that count requests and responses. -/
def Telemetry.Call.other : Telemetry.Call → Bool
  | .request | .responseStatus _ => false
  | _ => true

/-- The request `id` has chosen a backend before. -/
def HasChosen (id : ℕ) (log : List (ℕ × Obs)) : Prop := ∃ e ∈ log, ∃ b, e.2 = .selected id b

theorem HasChosen.append {id : ℕ} {log : List (ℕ × Obs)} (h : HasChosen id log)
    (os : List (ℕ × Obs)) : HasChosen id (log ++ os) := by
  obtain ⟨e, he, b, hb⟩ := h
  exact ⟨e, List.mem_append_left os he, b, hb⟩

/-- The request with its correlation id, as `handle_request` goes on with it. -/
def Request.withId (request : Request) (requestId : String) : Request :=
  { request with headers := insertText request.headers requestIdHeader requestId }

/-- Only the counter of ids changes when a request gets its id. -/
theorem requestId_fst (s : Sys) (request : Request) :
    ∃ n, (s.requestId request).1 = { s with requestIdCounter := n } := by
  unfold Sys.requestId
  split
  · exact ⟨s.requestIdCounter, rfl⟩
  · exact ⟨_, rfl⟩

/-- The assertion `I` is carried through every elementary effect. -/
structure Outline (P : Setup) (I : Point → Sys → Prop) : Prop where
  clock : ∀ s t, s.now ≤ t → I .idle s → I .idle { s with now := t }
  permits : ∀ p s n, I p s → I p { s with permits := n }
  check : ∀ s c, I .idle s → I .idle (s.callHealth .check c)
  /-- a new request -/
  arrive : ∀ s id request, s.tasks.get? id = none → entriesOf id s.log = [] → I .idle s →
    I (.handling id (request.withId
        (((s.emit (.arrived id request)).record .request).requestId request).2)
        (((s.emit (.arrived id request)).record .request).requestId request).2)
      (((s.emit (.arrived id request)).record .request).requestId request).1
  /-- a request goes on after an await -/
  resume : ∀ s id task job, s.tasks.get? id = some task → task.job? = some job → I .idle s →
    I (.handling id job.request job.requestId) s
  record : ∀ s id request rid c, Telemetry.Call.other c → I (.handling id request rid) s →
    I (.handling id request rid) (s.record c)
  health : ∀ s id request rid c, I (.handling id request rid) s →
    I (.handling id request rid) (s.callHealth (.request id) c)
  select : ∀ s id request rid route attempted, route ∈ P.config.routes →
    (attempted ≠ [] → HasChosen id s.log) → I (.handling id request rid) s →
    I (.handling id request rid) (s.selectBackend id route attempted).1
  attempt : ∀ s id (job : Job) b d elapsed, I (.handling id job.request job.requestId) s →
    I (.handling id job.request job.requestId)
      (s.emit (.attempt id b d (prepareAttempt P job b d) elapsed))
  complete : ∀ s id request rid response, I (.handling id request rid) s →
    I (.completed id request rid (s.completeRequest rid response).2)
      (s.completeRequest rid response).1
  respond : ∀ s id request rid response, I (.completed id request rid response) s →
    I (.handling id request rid) (s.emit (.responded id response))
  /-- the completed response is discarded for another attempt -/
  pause : ∀ s id request rid response n length left, I (.completed id request rid response) s →
    I (.handling id request rid) (s.emit (.pause id n length left))
  setTask : ∀ s id request rid task,
    (∀ job, task.job? = some job → job.request = request ∧ job.requestId = rid) →
    I (.handling id request rid) s → I .idle (s.setTask id task)

namespace Outline

variable {P : Setup} {I : Point → Sys → Prop} (h : Outline P I) {s : Sys} {id : ℕ}
  {request : Request} {rid : String}
include h

theorem reject {kind : Option String} {response : Response} (hs : I (.handling id request rid) s) :
    I .idle (s.reject id rid kind response) := by
  have hdone : ∀ s, I (.handling id request rid) s →
      I .idle ((s.completeRequest rid response).1.respond id .done
        (s.completeRequest rid response).2) := fun s hs =>
    h.setTask _ _ _ _ _ (by simp [Task.job?]) (h.respond _ _ _ _ _ (h.complete _ _ _ _ _ hs))
  cases kind with
  | none => exact hdone s hs
  | some kind => exact hdone _ (h.record _ _ _ _ _ rfl hs)

theorem forwardRequest {job : Job} {b : String} {d : Dispatch}
    (hs : I (.handling id job.request job.requestId) s) :
    I .idle (s.forwardRequest P id job b d) :=
  h.setTask _ _ _ _ _ (by simp [Task.job?]) (h.attempt _ _ _ _ _ _ hs)

theorem respond_task {job : Job} {b : String} {response : Response}
    (hs : I (.completed id job.request job.requestId response) s) :
    I .idle (s.respond id (afterResponse job b response) response) := by
  refine h.setTask _ _ _ _ _ ?_ (h.respond _ _ _ _ _ hs)
  rcases afterResponse_cases job b response with heq | heq <;> simp [heq, Task.job?]

theorem retryLoop {job : Job} {attempted : List String} {n : ℕ} {body : Bytes}
    (hs : I (.handling id job.request job.requestId) s) (hroute : job.route ∈ P.config.routes)
    (hchosen : attempted ≠ [] → HasChosen id s.log) :
    I .idle (s.retryLoop P id job attempted n body) := by
  have hsel := h.select s id _ _ job.route attempted hroute hchosen hs
  unfold Sys.retryLoop
  rcases he : s.selectBackend id job.route attempted with ⟨s', _ | b⟩
  · rw [he] at hsel
    dsimp only
    split_ifs
    · exact h.reject hs
    · exact h.reject hsel
    · exact h.reject hsel
  · rw [he] at hsel
    dsimp only
    split_ifs
    · exact h.reject hs
    · exact h.forwardRequest hsel

theorem forwardDone {job : Job} (hs : I (.handling id job.request job.requestId) s) (b : String)
    (result : Except UpstreamError Response) :
    I (.completed id job.request job.requestId (s.forwardDone id job b result).2)
      (s.forwardDone id job b result).1 := by
  have hcall := h.health _ _ _ _ (outcome s.health job.route b result)
    (h.record s id _ _ (.upstreamLatency (s.now - job.started)) rfl hs)
  unfold Sys.forwardDone
  cases result with
  | ok response => exact h.complete _ _ _ _ _ hcall
  | error err => exact h.complete _ _ _ _ _ (h.record _ _ _ _ _ rfl hcall)

theorem afterAttempt {job : Job} {b : String} {attempted : List String} {n : ℕ} {body : Bytes}
    {response : Response} (hs : I (.completed id job.request job.requestId response) s)
    (hroute : job.route ∈ P.config.routes) (hchosen : attempted ≠ [] → HasChosen id s.log) :
    I .idle (s.afterAttempt P id job b attempted n body response) := by
  unfold Sys.afterAttempt
  dsimp only
  split_ifs
  · exact h.respond_task hs
  · exact h.respond_task hs
  · exact h.setTask _ _ _ _ _ (by simp [Task.job?]) (h.pause _ _ _ _ _ _ _ _ hs)
  · exact h.retryLoop (h.pause _ _ _ _ _ _ _ _ hs) hroute fun hne => (hchosen hne).append _

theorem resolve {job : Job} {b : String} {d : Dispatch} {r : Resolution}
    (hs : I (.handling id job.request job.requestId) s) (hroute : job.route ∈ P.config.routes)
    (hchosen : (Task.forwarding job b d).attempted ≠ [] → HasChosen id s.log) :
    I .idle (s.resolve P id job b d r) := by
  have hdone := h.forwardDone hs b (forwardResult P job b d r)
  obtain ⟨s', he, heff⟩ := forwardDone_eff s id job b (forwardResult P job b d r)
  unfold Sys.resolve
  rw [he] at hdone ⊢
  cases d with
  | retry attempted n body =>
    refine h.afterAttempt hdone hroute fun hne => ?_
    rw [heff.log]
    exact (hchosen hne).append _
  | prebuffer body => exact h.respond_task hdone
  | stream upload => exact h.respond_task hdone

/-! ## Arrival and body items -/

theorem startBuffering {job : Job} {chosen : Option String}
    (hs : I (.handling id job.request job.requestId) s) :
    I .idle (s.startBuffering id job chosen) := by
  unfold Sys.startBuffering
  split_ifs
  · exact h.reject hs
  · exact h.setTask _ _ _ _ _ (by simp [Task.job?]) (h.permits _ _ _ hs)

theorem dispatchRequest {job : Job} (hs : I (.handling id job.request job.requestId) s)
    (hroute : job.route ∈ P.config.routes) : I .idle (s.dispatchRequest P id job) := by
  have hsel := h.select s id _ _ job.route [] hroute (by simp) hs
  unfold Sys.dispatchRequest
  rcases he : s.selectBackend id job.route [] with ⟨s', _ | b⟩
  · rw [he] at hsel
    dsimp only
    split_ifs
    · exact h.startBuffering hs
    · exact h.reject hsel
  · rw [he] at hsel
    dsimp only
    split_ifs
    · exact h.startBuffering hs
    · exact h.startBuffering hsel
    · exact h.forwardRequest hsel

theorem handleInternal {internal : Internal} (hs : I (.handling id request rid) s)
    (hne : internal ≠ .none) : I .idle (s.handleInternal P id rid internal) := by
  unfold Sys.handleInternal
  cases internal with
  | none => exact absurd rfl hne
  | root => exact h.reject hs
  | health => exact h.reject hs
  | unauthorized => exact h.reject hs
  | backendHealth => exact h.reject (h.health _ _ _ _ _ hs)
  | metrics => exact h.reject (h.health _ _ _ _ _ hs)

theorem handleRequest (hs : I .idle s) (hold : s.tasks.get? id = none)
    (hfresh : entriesOf id s.log = []) (req : Request) :
    I .idle (s.handleRequest P id req) := by
  have harrive := h.arrive s id req hold hfresh hs
  unfold Sys.handleRequest
  dsimp only
  generalize ((s.emit (.arrived id req)).record .request).requestId req = p at harrive ⊢
  obtain ⟨s₁, rid⟩ := p
  dsimp only at harrive ⊢
  split
  · split
    · exact h.reject harrive
    · split
      · exact h.reject harrive
      · rename_i hroute
        exact h.dispatchRequest harrive (matchRoute_mem hroute).1
  · rename_i hne
    exact h.handleInternal harrive hne

theorem bufferStep {job : Job} {chosen : Option String} {buffered : Bytes}
    (hs : I (.handling id job.request job.requestId) s) (hroute : job.route ∈ P.config.routes)
    (item : Option StreamItem) : I .idle (s.bufferStep P id job chosen buffered item) := by
  have hrel : I (.handling id job.request job.requestId) s.release := h.permits _ _ _ hs
  unfold Sys.bufferStep
  cases item with
  | some item =>
    dsimp only
    split
    · exact h.setTask _ _ _ _ _ (by simp [Task.job?]) hs
    · exact h.reject hrel
  | none =>
    cases chosen with
    | none => exact h.retryLoop hrel hroute (by simp)
    | some b => exact h.forwardRequest hrel

theorem uploadStep {job : Job} {b : String} {seen : ℕ}
    (hs : I (.handling id job.request job.requestId) s) (item : Option StreamItem) :
    I .idle (s.uploadStep P id job b seen item) := by
  unfold Sys.uploadStep
  cases item with
  | some item =>
    dsimp only
    split
    · exact h.setTask _ _ _ _ _ (by simp [Task.job?]) hs
    · exact h.setTask _ _ _ _ _ (by simp [Task.job?]) (h.record _ _ _ _ _ rfl hs)
  | none => exact h.setTask _ _ _ _ _ (by simp [Task.job?]) hs

theorem downloadStep {job : Job} {b : String} {seen : ℕ}
    (hs : I (.handling id job.request job.requestId) s) (item : Option StreamItem) :
    I .idle (s.downloadStep P id job b seen item) := by
  unfold Sys.downloadStep
  cases item with
  | some item =>
    dsimp only
    split
    · exact h.setTask _ _ _ _ _ (by simp [Task.job?]) hs
    · exact h.setTask _ _ _ _ _ (by simp [Task.job?])
        (h.health _ _ _ _ _ (h.record _ _ _ _ _ rfl hs))
  | none => exact h.setTask _ _ _ _ _ (by simp [Task.job?]) hs

/-! ## Steps and runs -/

theorem dropTask {s' : Sys} {task : Task} (hs : I .idle s) (hold : s.tasks.get? id = some task)
    (hd : s.dropTask id task = some s') : I .idle s' := by
  have hdone : ∀ s request rid, I (.handling id request rid) s → I .idle (s.setTask id .done) :=
    fun s _ _ hs => h.setTask s id _ _ .done (by simp [Task.job?]) hs
  cases task with
  | done => simp [Sys.dropTask] at hd
  | buffering job chosen buffered =>
    obtain rfl := Option.some.inj hd
    exact hdone _ _ _ (h.permits _ _ _ (h.resume s id _ job hold rfl hs))
  | forwarding job b d =>
    obtain rfl := Option.some.inj hd
    exact hdone _ _ _ (h.resume s id _ job hold rfl hs)
  | sleeping job attempted n body till =>
    obtain rfl := Option.some.inj hd
    exact hdone _ _ _ (h.resume s id _ job hold rfl hs)
  | responding job b seen =>
    obtain rfl := Option.some.inj hd
    exact hdone _ _ _ (h.resume s id _ job hold rfl hs)

theorem react {s' : Sys} {e : Event} (hs : I .idle s)
    (hfresh : ∀ id, s.tasks.get? id = none → entriesOf id s.log = [])
    (hroute : ∀ id task job, s.tasks.get? id = some task → task.job? = some job →
      job.route ∈ P.config.routes)
    (hchosen : ∀ id task, s.tasks.get? id = some task → task.attempted ≠ [] → HasChosen id s.log)
    (hr : Sys.react P s e = some s') : I .idle s' := by
  unfold Sys.react at hr
  cases e with
  | arrive id req =>
    dsimp only at hr
    split at hr
    · rename_i hold
      obtain rfl := Option.some.inj hr
      exact h.handleRequest hs hold (hfresh id hold) req
    · simp at hr
  | body id item =>
    dsimp only at hr
    split at hr
    · rename_i hold
      obtain rfl := Option.some.inj hr
      exact h.bufferStep (h.resume s id _ _ hold rfl hs) (hroute id _ _ hold rfl) item
    · rename_i hold
      obtain rfl := Option.some.inj hr
      exact h.uploadStep (h.resume s id _ _ hold rfl hs) item
    · simp at hr
  | resolved id r =>
    dsimp only at hr
    split at hr
    · rename_i hold
      obtain rfl := Option.some.inj hr
      exact h.resolve (h.resume s id _ _ hold rfl hs) (hroute id _ _ hold rfl) (hchosen id _ hold)
    · simp at hr
  | wake id =>
    dsimp only at hr
    split at hr
    · rename_i hold
      split_ifs at hr
      obtain rfl := Option.some.inj hr
      exact h.retryLoop (h.resume s id _ _ hold rfl hs) (hroute id _ _ hold rfl) (hchosen id _ hold)
    · simp at hr
  | download id item =>
    dsimp only at hr
    split at hr
    · rename_i hold
      obtain rfl := Option.some.inj hr
      exact h.downloadStep (h.resume s id _ _ hold rfl hs) item
    · simp at hr
  | dropped id =>
    obtain ⟨task, hold, hd⟩ := Option.bind_eq_some_iff.1 hr
    exact h.dropTask hs hold hd
  | checked b status =>
    obtain rfl := Option.some.inj hr
    exact h.check s _ hs

end Outline

theorem Head.hasChosen {P : Setup} {m : HealthManager} {t id : ℕ} {job : Job}
    {attempted : List String} {n : ℕ} {body : Bytes} {os : List (ℕ × Obs)} {new : Task}
    (h : Head P m t id job attempted n body os new) (hne : new.attempted ≠ []) :
    HasChosen id os := by
  cases h with
  | late _ => simp [Task.attempted] at hne
  | exhausted _ _ => simp [Task.attempted] at hne
  | @attempt b _ _ _ => exact ⟨(t, .selected id b), by simp, b, rfl⟩

/-- A request that has attempted a backend has chosen one before. -/
theorem Story.hasChosen {P : Setup} {id : ℕ} {ok : Option Task → Event → Prop} {task : Task}
    {log : List (ℕ × Obs)} (h : Story P id ok (some task) log) :
    task.attempted ≠ [] → HasChosen id log := by
  have hpre : ∀ log os, HasChosen id os → HasChosen id (log ++ os) := by
    rintro log os ⟨e, he, hb⟩
    exact ⟨e, List.mem_append_right log he, hb⟩
  refine h.rule (I := fun task log => task.attempted ≠ [] → HasChosen id log) ?_ ?_
  · intro m t e os new ht hne
    cases ht <;> simp [Task.attempted] at hne
  · intro m t e old log os new _ ih _ ht hne
    cases ht with
    | bufferedRetry hh => exact hpre _ _ (hh.hasChosen hne)
    | backoff _ _ _ => exact (ih hne).append _
    | again _ _ _ _ hh => exact hpre _ _ (hpre [_, _] _ (hh.hasChosen hne))
    | woken _ hh => exact hpre _ _ (hh.hasChosen hne)
    | returned hnew _ => rcases hnew with rfl | rfl <;> simp [Task.attempted] at hne
    | _ => simp [Task.attempted] at hne

theorem Head.job_eq {P : Setup} {m : HealthManager} {t id : ℕ} {job job' : Job}
    {attempted : List String} {n : ℕ} {body : Bytes} {os : List (ℕ × Obs)} {new : Task}
    (h : Head P m t id job attempted n body os new) (hjob : new.job? = some job') : job' = job := by
  cases h with
  | late _ => cases hjob
  | exhausted _ _ => cases hjob
  | attempt _ _ => exact (Option.some.inj hjob).symm

/-- The route of a request is one of the configuration. -/
theorem Story.route_mem {P : Setup} {id : ℕ} {ok : Option Task → Event → Prop} {task : Task}
    {log : List (ℕ × Obs)} (h : Story P id ok (some task) log) :
    ∀ job, task.job? = some job → job.route ∈ P.config.routes := by
  refine h.rule (I := fun task _ => ∀ job, task.job? = some job → job.route ∈ P.config.routes) ?_ ?_
  · intro m t e os new ht job hjob
    have henter : ∀ {req job'}, Enters P t req job' → some job' = some job →
        job.route ∈ P.config.routes := by
      rintro req job' henter ⟨⟩
      exact (matchRoute_mem henter.route).1
    cases ht with
    | startRetry henters _ => exact henter henters hjob
    | startPrebuffer henters _ _ _ => exact henter henters hjob
    | startStream henters _ _ _ => exact henter henters hjob
    | _ => cases hjob
  · intro m t e old log os new _ ih _ ht job hjob
    cases ht with
    | bufferedRetry hh | again _ _ _ _ hh | woken _ hh =>
      obtain rfl := hh.job_eq hjob
      exact ih _ rfl
    | returned hnew _ =>
      rcases hnew with rfl | rfl
      · exact ih job hjob
      · cases hjob
    | bufferFailed _ | downloadFailed _ | downloaded | dropped _ => cases hjob
    | _ => exact ih job hjob

/-- **Outlines.** An assertion with an outline that holds initially holds in every reachable
    state. -/
theorem Outline.reachable {P : Setup} {I : Point → Sys → Prop} (h : Outline P I)
    (h₀ : I .idle P.initial) {s : Sys} (hs : P.Reachable s) : I .idle s := by
  refine Runs.invariant₂ (I := I .idle) (J := P.Reachable) hs h₀ (fun _ hr => hr)
    fun s e s' hr hI _ hstep => ?_
  unfold Sys.step at hstep
  split_ifs at hstep with hle
  refine h.react (h.clock s e.1 hle hI) ?_ ?_ ?_ hstep
  · intro id (hold : s.tasks.get? id = none)
    have hstory := hr.story id
    rw [hold] at hstory
    exact hstory.eq_nil
  · intro id task job (hold : s.tasks.get? id = some task) hjob
    have hstory := hr.story id
    rw [hold] at hstory
    exact hstory.route_mem job hjob
  · intro id task (hold : s.tasks.get? id = some task) hne
    have hstory := hr.story id
    rw [hold] at hstory
    obtain ⟨e, he, b, hb⟩ := hstory.hasChosen hne
    exact ⟨e, (List.mem_filter.1 he).1, b, hb⟩

end FerrumProxy
