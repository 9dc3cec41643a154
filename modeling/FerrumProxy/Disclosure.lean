/-
  What the debug endpoints disclose, and to whom (`handle_internal_route`,
  `debug_request_authorized`).

  Two states are `Alike` when only the telemetry tells them apart.  Every handler
  keeps alike states alike, but for the answer to `/metrics`; so the telemetry decides
  nothing in the proxy, and nobody but the reader of an authorized request learns about
  it (`debug_guarded`).
-/
import FerrumProxy.Frames

namespace FerrumProxy

open Lib

namespace Sys

/-! ## States that differ in the telemetry -/

/-- The states differ in the telemetry only. -/
def Alike (s s' : Sys) : Prop := ∃ T, s' = { s with telemetry := T }

namespace Alike

variable {P : Setup} {s s' : Sys} {id : ℕ}

theorem record (h : Alike s s') (c : Telemetry.Call) : Alike (s.record c) (s'.record c) := by
  obtain ⟨T, rfl⟩ := h
  exact ⟨_, rfl⟩

theorem emit (h : Alike s s') (o : Obs) : Alike (s.emit o) (s'.emit o) := by
  obtain ⟨T, rfl⟩ := h
  exact ⟨T, rfl⟩

theorem setTask (h : Alike s s') (id : ℕ) (task : Task) :
    Alike (s.setTask id task) (s'.setTask id task) := by
  obtain ⟨T, rfl⟩ := h
  exact ⟨T, rfl⟩

theorem release (h : Alike s s') : Alike s.release s'.release := by
  obtain ⟨T, rfl⟩ := h
  exact ⟨T, rfl⟩

theorem callHealth (h : Alike s s') (source : Source) (c : HealthManager.Event) :
    Alike (s.callHealth source c) (s'.callHealth source c) := by
  obtain ⟨T, rfl⟩ := h
  exact ⟨_, rfl⟩

theorem completeRequest (h : Alike s s') (rid : String) (response : Response) :
    Alike (s.completeRequest rid response).1 (s'.completeRequest rid response).1 := h.record _

theorem respond (h : Alike s s') (task : Task) (response : Response) :
    Alike (s.respond id task response) (s'.respond id task response) :=
  (h.emit _).setTask id task

theorem reject (h : Alike s s') (rid : String) (kind : Option String) (response : Response) :
    Alike (s.reject id rid kind response) (s'.reject id rid kind response) := by
  cases kind with
  | none => exact (h.completeRequest rid response).respond _ _
  | some kind => exact ((h.record _).completeRequest rid response).respond _ _

/-- The choice of a backend is the same. -/
theorem selectBackend (h : Alike s s') (id : ℕ) (route : RouteConfig) (attempted : List String) :
    ∃ s₁ s₁' choice, s.selectBackend id route attempted = (s₁, choice) ∧
      s'.selectBackend id route attempted = (s₁', choice) ∧ Alike s₁ s₁' := by
  have hcall := h.callHealth (.request id) (.healthyBackends route)
  obtain ⟨T, rfl⟩ := h
  unfold Sys.selectBackend
  rw [show ({ s with telemetry := T } : Sys).candidates = s.candidates from rfl]
  dsimp only
  rcases s.balancer.selectBackend route (s.candidates route attempted) with ⟨L, choice⟩
  have hL : Alike { s.callHealth (.request id) (.healthyBackends route) with balancer := L }
      { ({ s with telemetry := T } : Sys).callHealth (.request id) (.healthyBackends route) with
        balancer := L } := by
    obtain ⟨T', hT'⟩ := hcall
    rw [hT']
    exact ⟨T', rfl⟩
  cases choice with
  | none => exact ⟨_, _, none, rfl, rfl, hL⟩
  | some b => exact ⟨_, _, some b, rfl, rfl, hL.emit _⟩

theorem forwardRequest (h : Alike s s') (job : Job) (b : String) (d : Dispatch) :
    Alike (s.forwardRequest P id job b d) (s'.forwardRequest P id job b d) := by
  obtain ⟨T, rfl⟩ := h
  exact ⟨T, rfl⟩

theorem forwardDone (h : Alike s s') (id : ℕ) (job : Job) (b : String)
    (result : Except UpstreamError Response) :
    ∃ s₁ s₁' response, s.forwardDone id job b result = (s₁, response) ∧
      s'.forwardDone id job b result = (s₁', response) ∧ Alike s₁ s₁' := by
  obtain ⟨T, rfl⟩ := h
  cases result with
  | ok response => exact ⟨_, _, _, rfl, rfl, _, rfl⟩
  | error err => exact ⟨_, _, _, rfl, rfl, _, rfl⟩

theorem retryLoop (h : Alike s s') (job : Job) (attempted : List String) (n : ℕ) (body : Bytes) :
    Alike (s.retryLoop P id job attempted n body) (s'.retryLoop P id job attempted n body) := by
  obtain ⟨s₁, s₁', choice, he, he', h₁⟩ := h.selectBackend id job.route attempted
  have hnow : s'.now = s.now := by
    obtain ⟨T, rfl⟩ := h
    rfl
  unfold Sys.retryLoop
  rw [he, he', hnow]
  cases choice with
  | none =>
    dsimp only
    split_ifs
    · exact h.reject _ _ _
    · exact h₁.reject _ _ _
    · exact h₁.reject _ _ _
  | some b =>
    dsimp only
    split_ifs
    · exact h.reject _ _ _
    · exact h₁.forwardRequest job b _

theorem afterAttempt (h : Alike s s') (job : Job) (b : String) (attempted : List String) (n : ℕ)
    (body : Bytes) (response : Response) :
    Alike (s.afterAttempt P id job b attempted n body response)
      (s'.afterAttempt P id job b attempted n body response) := by
  have hnow : s'.now = s.now := by
    obtain ⟨T, rfl⟩ := h
    rfl
  unfold Sys.afterAttempt
  rw [hnow]
  dsimp only
  split_ifs
  · exact h.respond _ _
  · exact h.respond _ _
  · exact (h.emit _).setTask _ _
  · exact (h.emit _).retryLoop job attempted _ body

theorem resolve (h : Alike s s') (job : Job) (b : String) (d : Dispatch) (r : Resolution) :
    Alike (s.resolve P id job b d r) (s'.resolve P id job b d r) := by
  obtain ⟨s₁, s₁', response, he, he', h₁⟩ :=
    h.forwardDone id job b (forwardResult P job b d r)
  unfold Sys.resolve
  rw [he, he']
  cases d with
  | retry attempted n body => exact h₁.afterAttempt job b attempted n body response
  | prebuffer body => exact h₁.respond _ _
  | stream upload => exact h₁.respond _ _

theorem startBuffering (h : Alike s s') (job : Job) (chosen : Option String) :
    Alike (s.startBuffering id job chosen) (s'.startBuffering id job chosen) := by
  have hcapacity : Alike (s.rejectCapacity id job.requestId) (s'.rejectCapacity id job.requestId) :=
    h.reject _ _ _
  obtain ⟨T, rfl⟩ := h
  unfold Sys.startBuffering
  dsimp only
  split_ifs
  · exact hcapacity
  · exact ⟨T, rfl⟩

theorem dispatchRequest (h : Alike s s') (job : Job) :
    Alike (s.dispatchRequest P id job) (s'.dispatchRequest P id job) := by
  obtain ⟨s₁, s₁', choice, he, he', h₁⟩ := h.selectBackend id job.route []
  unfold Sys.dispatchRequest
  rw [he, he']
  cases choice with
  | none =>
    dsimp only
    split_ifs
    · exact h.startBuffering job none
    · exact h₁.reject _ _ _
  | some b =>
    dsimp only
    split_ifs
    · exact h.startBuffering job none
    · exact h₁.startBuffering job (some b)
    · exact h₁.forwardRequest job b _

/-- The correlation id is the same. -/
theorem requestId (h : Alike s s') (request : Request) :
    ∃ s₁ s₁' rid, s.requestId request = (s₁, rid) ∧ s'.requestId request = (s₁', rid) ∧
      Alike s₁ s₁' := by
  obtain ⟨T, rfl⟩ := h
  unfold Sys.requestId
  split
  · exact ⟨_, _, _, rfl, rfl, T, rfl⟩
  · exact ⟨_, _, _, rfl, rfl, T, rfl⟩

theorem handleRequest (h : Alike s s') {request : Request} (hd : ¬ Discloses P request) :
    Alike (s.handleRequest P id request) (s'.handleRequest P id request) := by
  obtain ⟨s₁, s₁', rid, he, he', h₁⟩ :=
    ((h.emit (.arrived id request)).record .request).requestId request
  have hnow : s₁'.now = s₁.now := by
    obtain ⟨T, rfl⟩ := h₁
    rfl
  unfold Sys.handleRequest
  dsimp only
  rw [he, he']
  dsimp only
  rw [internalRoute_requestId, hnow]
  cases hi : internalRoute P request with
  | none =>
    dsimp only
    split
    · exact h₁.reject _ _ _
    · split
      · exact h₁.reject _ _ _
      · exact h₁.dispatchRequest _
  | backendHealth => exact absurd (.inl hi) hd
  | metrics => exact absurd (.inr hi) hd
  | _ =>
    dsimp only [Sys.handleInternal]
    exact h₁.reject _ _ _

theorem bufferStep (h : Alike s s') (job : Job) (chosen : Option String) (buffered : Bytes)
    (item : Option StreamItem) :
    Alike (s.bufferStep P id job chosen buffered item)
      (s'.bufferStep P id job chosen buffered item) := by
  unfold Sys.bufferStep
  cases item with
  | some item =>
    dsimp only
    split
    · exact h.setTask _ _
    · exact h.release.reject _ _ _
  | none =>
    cases chosen with
    | none => exact h.release.retryLoop job [] 1 buffered
    | some b => exact h.release.forwardRequest job b _

theorem uploadStep (h : Alike s s') (job : Job) (b : String) (seen : ℕ)
    (item : Option StreamItem) :
    Alike (s.uploadStep P id job b seen item) (s'.uploadStep P id job b seen item) := by
  unfold Sys.uploadStep
  cases item with
  | some item =>
    dsimp only
    split
    · exact h.setTask _ _
    · exact (h.record _).setTask _ _
  | none => exact h.setTask _ _

theorem downloadStep (h : Alike s s') (job : Job) (b : String) (seen : ℕ)
    (item : Option StreamItem) :
    Alike (s.downloadStep P id job b seen item) (s'.downloadStep P id job b seen item) := by
  unfold Sys.downloadStep
  cases item with
  | some item =>
    dsimp only
    split
    · exact h.setTask _ _
    · exact ((h.record _).callHealth _ _).setTask _ _
  | none => exact h.setTask _ _

/-- One step; the tasks and the clocks are the same. -/
theorem step {e : ℕ × Event} {s₁ : Sys} (h : Alike s s')
    (hd : ∀ id request, e.2 = .arrive id request → ¬ Discloses P request)
    (hs : Sys.step P s e = some s₁) : ∃ s₁', Sys.step P s' e = some s₁' ∧ Alike s₁ s₁' := by
  obtain ⟨T, rfl⟩ := h
  unfold Sys.step at hs ⊢
  dsimp only
  split_ifs at hs ⊢
  have h : Alike { s with now := e.1 } { s with telemetry := T, now := e.1 } := ⟨T, rfl⟩
  obtain ⟨t, e⟩ := e
  unfold Sys.react at hs ⊢
  cases e with
  | arrive id request =>
    dsimp only at hs ⊢
    split at hs
    · exact ⟨_, rfl, Option.some.inj hs ▸ h.handleRequest (hd id request rfl)⟩
    · cases hs
  | body id item =>
    dsimp only at hs ⊢
    split at hs
    · exact ⟨_, rfl, Option.some.inj hs ▸ h.bufferStep _ _ _ item⟩
    · exact ⟨_, rfl, Option.some.inj hs ▸ h.uploadStep _ _ _ item⟩
    · cases hs
  | resolved id r =>
    dsimp only at hs ⊢
    split at hs
    · exact ⟨_, rfl, Option.some.inj hs ▸ h.resolve _ _ _ r⟩
    · cases hs
  | wake id =>
    dsimp only at hs ⊢
    split at hs
    · split_ifs at hs ⊢
      exact ⟨_, rfl, Option.some.inj hs ▸ h.retryLoop _ _ _ _⟩
    · cases hs
  | download id item =>
    dsimp only at hs ⊢
    split at hs
    · exact ⟨_, rfl, Option.some.inj hs ▸ h.downloadStep _ _ _ item⟩
    · cases hs
  | dropped id =>
    obtain ⟨task, htask, hdrop⟩ := Option.bind_eq_some_iff.1 hs
    cases task with
    | done => cases hdrop
    | buffering =>
      exact ⟨_, Option.bind_eq_some_iff.2 ⟨_, htask, rfl⟩,
        Option.some.inj hdrop ▸ h.release.setTask id .done⟩
    | _ =>
      exact ⟨_, Option.bind_eq_some_iff.2 ⟨_, htask, rfl⟩,
        Option.some.inj hdrop ▸ h.setTask id .done⟩
  | checked b status => exact ⟨_, rfl, Option.some.inj hs ▸ h.callHealth _ _⟩

end Alike

end Sys

/-! ## Who is answered -/

/-- A request to an exposed debug endpoint, with the configured token if there is one. -/
def Authorized (P : Setup) (request : Request) : Prop :=
  request.method = .get ∧
    (request.uri.path = "/health/backends" ∧ P.config.debug.exposeBackendHealth = true ∨
      request.uri.path = "/metrics" ∧ P.config.debug.exposeMetrics = true) ∧
    ∀ token, P.config.debug.authToken = some token →
      (request.headers.get "authorization").bind HeaderValue.toStr = some s!"Bearer {token}"

theorem debugRequestAuthorized_iff (P : Setup) (request : Request) :
    debugRequestAuthorized P request = true ↔ ∀ token, P.config.debug.authToken = some token →
      (request.headers.get "authorization").bind HeaderValue.toStr = some s!"Bearer {token}" := by
  unfold debugRequestAuthorized
  cases P.config.debug.authToken <;> simp

theorem discloses_iff (P : Setup) (request : Request) :
    Discloses P request ↔ Authorized P request := by
  unfold Discloses Authorized
  rw [← debugRequestAuthorized_iff]
  unfold internalRoute
  by_cases hm : request.method = .get
  · by_cases hb : request.uri.path = "/health/backends"
    · cases P.config.debug.exposeBackendHealth <;> cases debugRequestAuthorized P request <;>
        simp [hm, hb]
    · by_cases ht : request.uri.path = "/metrics"
      · cases P.config.debug.exposeMetrics <;> cases debugRequestAuthorized P request <;>
          simp [hm, ht]
      · -- the answers to the other paths disclose nothing
        rw [if_neg (not_not.2 hm), if_neg hb, if_neg ht]
        split_ifs <;> simp [hb, ht]
  · simp [hm]

open Sys

/-- **The debug endpoints keep what they know.**  As long as no authorized request to an exposed
    debug endpoint arrives, whatever else happens, the proxy does and answers the same whatever its
    telemetry holds, and nobody has asked for the health of the backends. -/
theorem debug_guarded {P : Setup} {s s' : Sys} {es : List (ℕ × Event)}
    (hes : exec (Sys.step P) s es = some s')
    (hno : ∀ e ∈ es, ∀ id request, e.2 = .arrive id request → ¬ Authorized P request) :
    (∀ T, ∃ T', exec (Sys.step P) { s with telemetry := T } es =
      some { s' with telemetry := T' }) ∧
    ∃ os, s'.log = s.log ++ os ∧ ∀ o ∈ os, ∀ source, o.2 ≠ .health source .backendStatuses := by
  have hno' : ∀ e ∈ es, ∀ id request, e.2 = .arrive id request → ¬ Discloses P request :=
    fun e he id request hid hd => hno e he id request hid ((discloses_iff P request).1 hd)
  constructor
  · intro T
    have halike : Alike s { s with telemetry := T } := ⟨T, rfl⟩
    have hsim : ∀ r t e r', Alike r t →
        (∀ id request, e.2 = .arrive id request → ¬ Discloses P request) →
        Sys.step P r e = some r' → ∃ t', Sys.step P t e = some t' ∧ Alike r' t' :=
      fun _ _ _ _ h hok hs => h.step hok hs
    obtain ⟨s₁, hs₁, T', rfl⟩ := exec_simulates hsim hno' halike hes
    exact ⟨T', hs₁⟩
  · refine (Runs.of_forall hes hno').invariant
      (I := fun r => ∃ os, r.log = s.log ++ os ∧
        ∀ o ∈ os, ∀ source, o.2 ≠ .health source .backendStatuses)
      ⟨[], by simp, by simp⟩ ?_
    rintro r e r' ⟨os, hlog, hos⟩ hok hs
    obtain ⟨os', hlog', hwritten⟩ := step_entries hs
    refine ⟨os ++ os', by rw [hlog', hlog, List.append_assoc], ?_⟩
    refine List.forall_mem_append.2 ⟨hos, fun o ho source heq => ?_⟩
    have hw := hwritten o ho
    rw [heq] at hw
    obtain ⟨id, request, -, he, hd⟩ := hw
    exact hok id request he hd

/-- `/metrics` behind a token. -/
def guardedSetup : Setup :=
  let P := small ["http://127.0.0.1:3001"] 1 1 1
  { P with config := { P.config with
      debug := { exposeMetrics := true, authToken := some "secret" } } }

/-- A request to `/metrics` with a value of `Authorization`. -/
def scrape (value : String) : Request :=
  ⟨.get, ⟨"/metrics", none⟩, [("authorization", HeaderValue.ofString value)], none⟩

/-- A scrape with another token learns nothing; with the configured one it would be answered. -/
theorem debug_guarded_token : Authorized guardedSetup (scrape "Bearer secret") ∧
    ∃ s, exec (Sys.step guardedSetup) guardedSetup.initial [(1, .arrive 1 (scrape "Bearer other"))] =
        some s ∧
      (∀ T, ∃ T', exec (Sys.step guardedSetup) { guardedSetup.initial with telemetry := T }
        [(1, .arrive 1 (scrape "Bearer other"))] = some { s with telemetry := T' }) ∧
      ∃ os, s.log = guardedSetup.initial.log ++ os ∧
        ∀ o ∈ os, ∀ source, o.2 ≠ .health source .backendStatuses := by
  obtain ⟨s, hs, -⟩ := exists_of_exec_any (Sys.step guardedSetup) guardedSetup.initial
    [(1, .arrive 1 (scrape "Bearer other"))] (fun _ => true) (by decide +kernel)
  refine ⟨(discloses_iff ..).1 (by decide +kernel), s, hs, debug_guarded hs ?_⟩
  rintro e he id request hid hauth
  obtain rfl := List.mem_singleton.1 he
  obtain ⟨-, rfl⟩ := Event.arrive.inj hid
  exact absurd ((discloses_iff ..).2 hauth) (by decide +kernel)

end FerrumProxy
