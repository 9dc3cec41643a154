/-
  What the events of an execution say about a backend.

  The await of `forward` resolves, a response body breaks, or an active check
  completes: `Event.report` reads off such an event whether it is a failure of the
  backend.  The outcomes that the proxy records are exactly these reports, in their
  order (`outcomesOf_exec`), and a backend is ejected in the course of an execution
  iff the recorded calls eject it (`ejectedDuring_iff`).
-/
import FerrumProxy.Evidence
import FerrumProxy.Stories

namespace FerrumProxy

open Lib Sys

/-! ## Recorded outcomes -/

/-- The outcomes of `b` in a log, with their sources; `true` is a failure. -/
def outcomesOf (b : String) (log : List (ℕ × Obs)) : List (Source × Bool) :=
  log.filterMap fun e =>
    match e.2 with
    | .health src c => (c.verdict b).map (src, ·)
    | _ => none

/-- The outcomes of `b` in a log. -/
def callsOf (b : String) (log : List (ℕ × Obs)) : List Bool := (outcomesOf b log).map (·.2)

theorem outcomesOf_append (b : String) (log os : List (ℕ × Obs)) :
    outcomesOf b (log ++ os) = outcomesOf b log ++ outcomesOf b os := List.filterMap_append ..

@[simp] theorem callsOf_append (b : String) (log os : List (ℕ × Obs)) :
    callsOf b (log ++ os) = callsOf b log ++ callsOf b os := by
  unfold callsOf
  rw [outcomesOf_append, List.map_append]

theorem callsOf_eq_verdicts (b : String) (log : List (ℕ × Obs)) :
    callsOf b log = HealthManager.verdicts b (healthHistory log) := by
  induction log with
  | nil => rfl
  | cons e log ih =>
    obtain ⟨t, o⟩ := e
    rw [← List.singleton_append, callsOf_append, ih]
    cases o with
    | health src c =>
      rw [List.singleton_append, healthHistory_health, HealthManager.verdicts_cons]
      cases hv : c.verdict b <;> simp [callsOf, outcomesOf, hv]
    | _ => rfl

/-- Entries that record nothing about any backend. -/
def Obs.mute : Obs → Bool
  | .health _ (.recordSuccess _) | .health _ (.recordFailure _) => false
  | _ => true

theorem outcomesOf_mute {os : List (ℕ × Obs)} (h : ∀ o ∈ os, o.2.mute) (b : String) :
    outcomesOf b os = [] := by
  unfold outcomesOf
  rw [List.filterMap_eq_nil_iff]
  rintro ⟨t, o⟩ ho
  have hm := h _ ho
  rcases o with _ | ⟨_, _ | _ | _ | _⟩ | _ | _ | _ | _ <;>
    first | rfl | simp [Obs.mute] at hm

/-- The outcomes that the request `id` has. -/
def reportsOf (id : ℕ) (reports : List (Source × Bool)) : List Bool :=
  (reports.filter (·.1 = .request id)).map (·.2)

theorem callsOf_entriesOf (b : String) (id : ℕ) (log : List (ℕ × Obs)) :
    callsOf b (entriesOf id log) = reportsOf id (outcomesOf b log) := by
  have hsingle : ∀ e : ℕ × Obs, callsOf b (entriesOf id [e]) = reportsOf id (outcomesOf b [e]) := by
    rintro ⟨t, o⟩
    cases o with
    | health src c =>
      cases src with
      | request id' =>
        by_cases hid : id' = id
        · subst hid
          cases hv : c.verdict b <;> simp [callsOf, entriesOf, reportsOf, outcomesOf, Obs.id?, hv]
        · cases hv : c.verdict b <;>
            simp [callsOf, entriesOf, reportsOf, outcomesOf, Obs.id?, hv, hid]
      | check =>
        cases hv : c.verdict b <;>
          simp [callsOf, entriesOf, reportsOf, outcomesOf, Obs.id?, hv]
    | arrived id' | selected id' | attempt id' | pause id' | responded id' =>
      by_cases hid : id' = id <;> simp [callsOf, entriesOf, reportsOf, outcomesOf, Obs.id?, hid]
  induction log with
  | nil => rfl
  | cons e log ih =>
    rw [← List.singleton_append, entriesOf_append, callsOf_append, outcomesOf_append, hsingle, ih]
    simp [reportsOf]

/-! ## Reports -/

/-- The attempt fails with the head of the response: `forward` returns an error, or the status
    counts as a failure on the route. -/
def Setup.headFails (P : Setup) (job : Job) (b : String) (d : Dispatch) (r : Resolution) : Bool :=
  match forwardResult P job b d r with
  | .error _ => true
  | .ok response => isPassiveFailureStatus P.initial.health job.route response.status

/-- The body of a response fails on this item, after `seen` bytes: it breaks, it times out, or it
    exceeds the limit. -/
def Setup.bodyFails (P : Setup) (seen : ℕ) : StreamItem → Bool
  | .data bytes => P.config.upstream.maxResponseBodyBytes < seen + bytes.length
  | .readError _ | .idleElapsed => true

namespace Sys.Event

/-- The request that an event is about. -/
def id? : Event → Option ℕ
  | .arrive id _ | .body id _ | .resolved id _ | .wake id | .download id _ | .dropped id => some id
  | .checked _ _ => none

/-- What an event says about the backend `b`, if its request is in the state `old`: its source, and
    whether it is a failure. -/
def report (P : Setup) (b : String) (old : Option Task) : Event → Option (Source × Bool)
  | .resolved id r =>
    match old with
    | some (.forwarding job b' d) =>
      if b' = b then some (.request id, P.headFails job b' d r) else none
    | _ => none
  | .download id (some item) =>
    match old with
    | some (.responding _ b' seen) =>
      if b' = b ∧ P.bodyFails seen item then some (.request id, true) else none
    | _ => none
  | .checked b' status =>
    if b' = b then some (.check, !P.initial.health.isActiveSuccessStatus status) else none
  | _ => none

end Sys.Event

/-- What the events of an execution from `s` say about the backend `b`. -/
def Setup.reports (P : Setup) (b : String) : Sys → List (ℕ × Event) → List (Source × Bool)
  | _, [] => []
  | s, e :: es => (e.2.report P b (e.2.id?.bind s.tasks.get?)).toList ++
    (step P s e).elim [] fun s' => P.reports b s' es

/-! ## Reports are recorded -/

theorem HealthManager.SameSettings.isPassiveFailureStatus {m m' : HealthManager}
    (h : m.SameSettings m') (route : RouteConfig) (status : ℕ) :
    FerrumProxy.isPassiveFailureStatus m' route status =
      FerrumProxy.isPassiveFailureStatus m route status := by
  unfold HealthManager.SameSettings at h; rw [h]; rfl

section
variable {P : Setup} {m : HealthManager} {t id : ℕ} {e : Event} {old : Option Task}
  {os : List (ℕ × Obs)} {new : Task} {job : Job} {b : String}

theorem Trans.event_id (h : Trans P m t id e old os new) : e.id? = some id := by
  cases h <;> rfl

theorem Head.mute {attempted : List String} {n : ℕ} {body : Bytes}
    (h : Head P m t id job attempted n body os new) : ∀ o ∈ os, o.2.mute := by
  cases h <;> simp [Obs.mute, lookEntry]

/-- The entry for the outcome of an attempt. -/
theorem outcomesOf_outcomeEntry (hm : P.initial.health.SameSettings m) (b' : String) (d : Dispatch)
    (r : Resolution) : outcomesOf b [outcomeEntry P m t id job b' d r] =
      if b' = b then [(.request id, P.headFails job b' d r)] else [] := by
  unfold outcomeEntry outcome Setup.headFails
  cases forwardResult P job b' d r with
  | error err =>
    by_cases hb : b' = b <;> simp [outcomesOf, HealthManager.Event.verdict, hb]
  | ok response =>
    dsimp only
    rw [hm.isPassiveFailureStatus]
    cases isPassiveFailureStatus P.initial.health job.route response.status <;>
      by_cases hb : b' = b <;> simp [outcomesOf, HealthManager.Event.verdict, hb]

/-- `limit_body_stream` yields an error exactly when the body fails. -/
theorem limitItem_error_iff {context : String} {idle seen : ℕ} {item : StreamItem} :
    (∃ seen' err, limitItem P.config.upstream.maxResponseBodyBytes idle context seen item =
      (seen', .error err)) ↔ P.bodyFails seen item := by
  cases item with
  | data bytes =>
    simp only [limitItem, Setup.bodyFails, decide_eq_true_iff]
    split_ifs with hlimit <;> simp [hlimit]
  | readError text => simp [limitItem, Setup.bodyFails]
  | idleElapsed => simp [limitItem, Setup.bodyFails]

/-- **A transition records what its event says.** -/
theorem Trans.outcomesOf_eq (hm : P.initial.health.SameSettings m)
    (h : Trans P m t id e old os new) : outcomesOf b os = (e.report P b old).toList := by
  cases h with
  | answered _ hl _ =>
    refine outcomesOf_mute ?_ b
    rcases hl with rfl | rfl <;> simp [Obs.mute]
  | bufferedRetry hh => exact outcomesOf_mute hh.mute b
  | woken _ hh => exact outcomesOf_mute hh.mute b
  | @returned job b' d r _ _ _ =>
    rw [← List.singleton_append, outcomesOf_append, outcomesOf_outcomeEntry hm,
      outcomesOf_mute (by simp [Obs.mute]), List.append_nil, Event.report]
    split_ifs <;> rfl
  | @backoff job b' attempted n body r _ _ _ =>
    rw [← List.singleton_append, outcomesOf_append, outcomesOf_outcomeEntry hm,
      outcomesOf_mute (by simp [Obs.mute]), List.append_nil, Event.report]
    split_ifs <;> rfl
  | @again job b' attempted n body r os _ _ _ _ _ hh =>
    have hrest : ∀ o ∈ (t, Obs.pause id n 0 (P.totalTimeout - (t - job.started))) :: os, o.2.mute :=
      List.forall_mem_cons.2 ⟨rfl, hh.mute⟩
    rw [← List.singleton_append, outcomesOf_append, outcomesOf_outcomeEntry hm,
      outcomesOf_mute hrest, List.append_nil, Event.report]
    split_ifs <;> rfl
  | @download job b' seen item seen' bytes hitem =>
    have hok : P.bodyFails seen item = false := by
      rw [Bool.eq_false_iff]
      intro hfails
      obtain ⟨_, _, herr⟩ := limitItem_error_iff.2 hfails
      rw [hitem] at herr
      simp at herr
    simp [outcomesOf, Event.report, hok]
  | @downloadFailed job b' seen item seen' err hitem =>
    have hfails : P.bodyFails seen item := limitItem_error_iff.1 ⟨_, _, hitem⟩
    by_cases hb : b' = b <;>
      simp [outcomesOf, HealthManager.Event.verdict, Event.report, hfails, hb]
  | _ => exact outcomesOf_mute (by simp [Obs.mute, lookEntry]) b

end

/-- A step records what its event says. -/
theorem outcomesOf_step {P : Setup} {s s' : Sys} {e : ℕ × Event} (h : P.Reachable s)
    (hs : step P s e = some s') (b : String) : outcomesOf b s'.log =
      outcomesOf b s.log ++ (e.2.report P b (e.2.id?.bind s.tasks.get?)).toList := by
  have hm : P.initial.health.SameSettings s.health := by
    rw [h.replays.health]
    exact HealthManager.run_same ..
  obtain ⟨-, ⟨c, hc⟩ | ⟨id, os, new, hk⟩⟩ := step_cases hs
  · obtain ⟨b', status, he, -⟩ := hc.event
    rw [hc.log, outcomesOf_append, hc.call b' status he, he, hm.isActiveSuccessStatus]
    cases hok : P.initial.health.isActiveSuccessStatus status <;> by_cases hb : b' = b <;>
      simp [outcomesOf, HealthManager.Event.verdict, Event.report, hb, hok]
  · rw [hk.log, outcomesOf_append, hk.trans.event_id, hk.trans.outcomesOf_eq hm]
    rfl

/-- **Reports are recorded.**  The outcomes that an execution records for a backend are what its
    events say about it. -/
theorem outcomesOf_exec {P : Setup} {es : List (ℕ × Event)} {s s' : Sys} (h : P.Reachable s)
    (hes : exec (step P) s es = some s') (b : String) :
    outcomesOf b s'.log = outcomesOf b s.log ++ P.reports b s es := by
  induction es generalizing s with
  | nil =>
    obtain rfl := Option.some.inj hes
    exact (List.append_nil _).symm
  | cons e es ih =>
    obtain ⟨s₁, hs, hrest⟩ := Option.bind_eq_some_iff.1 hes
    rw [ih (h.tail trivial hs) hrest, outcomesOf_step h hs, Setup.reports, hs, List.append_assoc]
    rfl

/-! ## Ejection in the course of an execution -/

/-- In some state of the execution, `is_backend_ejected` says that `b` is ejected. -/
def EjectedDuring (P : Setup) (s : Sys) (es : List (ℕ × Event)) (b : String) : Prop :=
  ∃ s₁, Visits (step P) s es s₁ ∧ (s₁.health.isBackendEjected s₁.now b).2

/-- An ejection happens at the instant of some state. -/
theorem exists_state_of_ejection {P : Setup} {s s' : Sys} {es : List (ℕ × Event)} {b : String}
    (hes : exec (step P) s es = some s') : ∀ log, s'.log = s.log ++ log →
      ∀ w ∈ s.health.ejections b (healthHistory log), ∃ es₁ es₂ s₁ log₁, es = es₁ ++ es₂ ∧
        exec (step P) s es₁ = some s₁ ∧ s₁.log = s.log ++ log₁ ∧ s₁.now = w ∧
        w ∈ s.health.ejections b (healthHistory log₁) := by
  refine exec_rule (I := fun es s' => ∀ log, s'.log = s.log ++ log →
      ∀ w ∈ s.health.ejections b (healthHistory log), ∃ es₁ es₂ s₁ log₁, es = es₁ ++ es₂ ∧
        exec (step P) s es₁ = some s₁ ∧ s₁.log = s.log ++ log₁ ∧ s₁.now = w ∧
        w ∈ s.health.ejections b (healthHistory log₁)) ?_ ?_ hes
  · intro log hlog w hw
    obtain rfl : log = [] := by simpa using hlog
    simp [HealthManager.ejections] at hw
  · intro es s₁ e s₂ hes ih hs log hlog w hw
    obtain ⟨log₁, hlog₁⟩ := log_grows (Runs.of_exec .refl hes)
    obtain ⟨os, hos, hinstant, hnow⟩ := step_log hs
    obtain rfl : log = log₁ ++ os := by
      rw [hos, hlog₁, List.append_assoc] at hlog
      exact (List.append_cancel_left hlog).symm
    rw [healthHistory_append, HealthManager.ejections_append, List.mem_append] at hw
    rcases hw with hw | hw
    · obtain ⟨es₁, es₂, s', log', rfl, h⟩ := ih log₁ hlog₁ w hw
      exact ⟨es₁, es₂ ++ [e], s', log', by rw [List.append_assoc], h⟩
    · -- the last step ejects, at its instant
      obtain ⟨h₁, h₂, -, heq, -, -⟩ := HealthManager.exists_of_mem_ejections hw
      have hw' : w = e.1 := by
        obtain ⟨⟨t, o⟩, ho, hto⟩ := List.mem_filterMap.1
          (show (w, HealthManager.Event.recordFailure b) ∈ healthHistory os by simp [heq])
        cases o with
        | health src c =>
          obtain ⟨rfl, -⟩ := Prod.mk.inj (Option.some.inj hto)
          exact hinstant _ ho
        | _ => simp at hto
      refine ⟨es ++ [e], [], s₂, log₁ ++ os, by simp, ?_, hlog, by rw [hnow, hw'], ?_⟩
      · rw [exec_concat, hes]
        exact hs
      · rw [healthHistory_append, HealthManager.ejections_append]
        exact List.mem_append_right _ hw

/-- **Ejection in the course of an execution.**  From a state in which `b` has no window pending,
    some state has it ejected iff the calls recorded meanwhile eject it. -/
theorem ejectedDuring_iff {P : Setup} (hD : 0 < P.config.healthCheck.ejectionDurationMs) {s s' : Sys}
    (h : P.Reachable s) {es : List (ℕ × Event)} (hes : exec (step P) s es = some s') {b : String}
    {st : BackendHealth} (hst : s.health.backendHealth.get? b = some st)
    (hu : st.ejectedUntil = none) {log : List (ℕ × Obs)} (hlog : s'.log = s.log ++ log) :
    EjectedDuring P s es b ↔ s.health.ejections b (healthHistory log) ≠ [] := by
  have hhealth : ∀ {s₁ log₁}, P.Reachable s₁ → s₁.log = s.log ++ log₁ →
      s₁.health = s.health.run (healthHistory log₁) := by
    intro s₁ log₁ h₁ hlog₁
    rw [h₁.replays.health, h.replays.health, hlog₁, healthHistory_append, HealthManager.run_append]
  constructor
  · rintro ⟨s₁, ⟨es₁, es₂, rfl, hes₁⟩, hej⟩ hno
    have hes₂ : exec (step P) s₁ es₂ = some s' := by
      rw [exec_append, hes₁] at hes
      exact hes
    obtain ⟨log₁, hlog₁⟩ := log_grows (Runs.of_exec .refl hes₁)
    obtain ⟨log₂, hlog₂⟩ := log_grows (Runs.of_exec .refl hes₂)
    obtain rfl : log = log₁ ++ log₂ := by
      rw [hlog₂, hlog₁, List.append_assoc] at hlog
      exact (List.append_cancel_left hlog).symm
    rw [healthHistory_append, HealthManager.ejections_append, List.append_eq_nil_iff] at hno
    obtain ⟨st₁, hst₁, hu₁⟩ := HealthManager.unejected_run hst hu hno.1
    rw [HealthManager.isBackendEjected_snd, hhealth (Runs.of_exec h hes₁) hlog₁, hst₁] at hej
    simp [BackendHealth.ejected, hu₁] at hej
  · intro hne
    obtain ⟨w, hw⟩ := List.exists_mem_of_ne_nil _ hne
    obtain ⟨es₁, es₂, s₁, log₁, rfl, hes₁, hlog₁, rfl, hw₁⟩ :=
      exists_state_of_ejection hes log hlog w hw
    have h₁ : P.Reachable s₁ := Runs.of_exec h hes₁
    have hreplays := h₁.replays
    have hknown : ∃ r ∈ P.config.routes, b ∈ r.backends := by
      refine (P.fresh.isSome_iff (healthHistory s.log) b).1 ?_
      rw [← h.replays.health, hst]
      rfl
    obtain ⟨st₁, hst₁, htracks⟩ := P.fresh.tracks (chronological_healthHistory hreplays.ordered)
      (healthHistory_past hreplays.past) hknown
    have hcov : Covered P.initial.health.ejectionDuration
        (P.initial.health.ejections b (healthHistory s₁.log)) s₁.now := by
      refine ⟨s₁.now, ?_, ?_⟩
      · rw [hlog₁, healthHistory_append, HealthManager.ejections_append, ← h.replays.health]
        exact List.mem_append_right _ hw₁
      · show s₁.now < s₁.now + P.config.healthCheck.ejectionDurationMs * 1000000
        omega
    refine ⟨s₁, ⟨es₁, es₂, rfl, hes₁⟩, ?_⟩
    rw [HealthManager.isBackendEjected_snd, hreplays.health, hst₁, Option.any_some]
    cases htill : st₁.ejectedUntil with
    | none => exact absurd hcov (htracks.closed htill)
    | some till => simpa [BackendHealth.ejected, htill] using (htracks.pending till htill _).1 hcov

end FerrumProxy
