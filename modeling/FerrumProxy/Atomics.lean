/-
  The health state of a backend, one atomic access at a time.

  The fields of `BackendHealth` are atomics and a mutex around `ejected_until`.  The
  requests and the active checks run on several threads, so that calls of
  `record_success`, `record_failure` and the two queries overlap.  Here a step is one
  access to one field; accesses are sequentially consistent.

  `Health.lean` takes each call as a whole.  That is what a call does when no other
  one overlaps (`call_alone`), so that a history of whole calls is one of the orders
  in which the accesses can happen (`history_serial`).
-/
import FerrumProxy.Eligibility
import FerrumProxy.Lib.Logs
import FerrumProxy.Lib.Threads
import Mathlib.Data.Fintype.EquivFin

namespace FerrumProxy

open Lib

namespace Atomics

/-! ## Accesses -/

/-- The settings of `HealthManager` that the calls read. -/
structure Settings where
  failureThreshold : ℕ
  recoveryThreshold : ℕ
  ejectionDuration : ℕ

/-- The two callers of `is_backend_ejected`: the filter of `healthy_backends` and the map of
    `backend_statuses`. -/
inductive Query where
  | filter
  | status
deriving DecidableEq, Repr

/-- The calls on one backend. -/
inductive Call where
  | recordSuccess
  | recordFailure
  | query (q : Query)
deriving DecidableEq, Repr

/-- What happens under the mutex. -/
inductive Entry where
  /-- the assignment of `eject_backend` -/
  | ejected
  /-- the answer of `is_backend_ejected` -/
  | looked (answer : Bool)
deriving DecidableEq, Repr

/-- The shared fields of a backend, with a log of what happened under the mutex. -/
structure Cell where
  health : BackendHealth
  /-- the mutex of `ejected_until` is held between two steps -/
  locked : Bool
  now : ℕ
  log : List (ℕ × Entry)

/-- The next access in `record_success`. -/
inductive SuccessPoint where
  | start
  | probing
  | closeProbe
  | restore
  | restored
  | count
  | healthy (successes : ℕ)
  | recover
  | recovered
deriving DecidableEq, Repr

/-- The next access in `record_failure`. -/
inductive FailurePoint where
  | start
  | probing
  | closeProbe
  | ejectAgain
  | count
  | healthy (failures : ℕ)
  | fail
  | failed
  | eject
deriving DecidableEq, Repr

/-- The next access in a query; the instant is the one of the look. -/
inductive QueryPoint where
  | look
  /-- the window was over: `probing` is set before the mutex is released -/
  | reopen (t : ℕ)
  | healthy (t : ℕ) (ejected : Bool)
  | probing (t : ℕ) (ejected healthy : Bool)
deriving DecidableEq, Repr

/-- Where a call stands. -/
inductive Point where
  | success (p : SuccessPoint)
  | failure (p : FailurePoint)
  | query (q : Query) (p : QueryPoint)
  /-- the call has returned; a query with the instant of its look and its answer -/
  | returned (answer : Option (ℕ × Bool))
deriving DecidableEq, Repr

/-- The first access of a call. -/
def enter : Call → Point
  | .recordSuccess => .success .start
  | .recordFailure => .failure .start
  | .query q => .query q .look

namespace Cell

/-- An access to an atomic field. -/
def set (c : Cell) (f : BackendHealth → BackendHealth) : Cell := { c with health := f c.health }

/-- Write to the log. -/
def write (c : Cell) (e : Entry) : Cell := { c with log := c.log ++ [(c.now, e)] }

/-- `eject_backend`; it waits for the mutex. -/
def eject (S : Settings) (c : Cell) : Option Cell :=
  if c.locked then none
  else some ((c.set (·.eject S.ejectionDuration c.now)).write .ejected)

end Cell

/-- `record_success`, access by access. -/
def recordSuccess (S : Settings) (c : Cell) : SuccessPoint → Cell × Point
  | .start => (c.set ({ · with consecutiveFailures := 0 }), .success .probing)
  | .probing => (c, if c.health.probing then .success .closeProbe else .success .count)
  | .closeProbe => (c.set ({ · with probing := false }), .success .restore)
  | .restore => (c.set ({ · with healthy := true }), .success .restored)
  | .restored => (c.set ({ · with consecutiveSuccesses := 0 }), .returned none)
  | .count => (c.set fun st => { st with consecutiveSuccesses := st.consecutiveSuccesses + 1 },
      .success (.healthy (c.health.consecutiveSuccesses + 1)))
  | .healthy successes =>
    (c, if !c.health.healthy && S.recoveryThreshold ≤ successes then .success .recover
      else .returned none)
  | .recover => (c.set ({ · with healthy := true }), .success .recovered)
  | .recovered => (c.set ({ · with consecutiveSuccesses := 0 }), .returned none)

/-- `record_failure`, access by access. -/
def recordFailure (S : Settings) (c : Cell) : FailurePoint → Option (Cell × Point)
  | .start => some (c.set ({ · with consecutiveSuccesses := 0 }), .failure .probing)
  | .probing => some (c, if c.health.probing then .failure .closeProbe else .failure .count)
  | .closeProbe => some (c.set ({ · with probing := false }), .failure .ejectAgain)
  | .ejectAgain => (c.eject S).map (·, .returned none)
  | .count => some (c.set fun st => { st with consecutiveFailures := st.consecutiveFailures + 1 },
      .failure (.healthy (c.health.consecutiveFailures + 1)))
  | .healthy failures =>
    some (c, if c.health.healthy && S.failureThreshold ≤ failures then .failure .fail
      else .returned none)
  | .fail => some (c.set ({ · with healthy := false }), .failure .failed)
  | .failed => some (c.set ({ · with consecutiveFailures := 0 }), .failure .eject)
  | .eject => (c.eject S).map (·, .returned none)

/-- What a query does with the answer of `is_backend_ejected`: `healthy_backends` leaves the other
    two fields alone when the backend is ejected. -/
def Query.looked (q : Query) (t : ℕ) (ejected : Bool) : Point :=
  match q with
  | .filter => if ejected then .returned (some (t, false)) else .query q (.healthy t ejected)
  | .status => .query q (.healthy t ejected)

/-- A query, access by access.  The look and what follows from it happen under the mutex. -/
def query (q : Query) (c : Cell) : QueryPoint → Option (Cell × Point)
  | .look =>
    if c.locked then none
    else
      match c.health.ejectedUntil with
      | some till =>
        if c.now < till then some (c.write (.looked true), q.looked c.now true)
        else some ({ (c.set ({ · with ejectedUntil := none })).write (.looked false) with
          locked := true }, .query q (.reopen c.now))
      | none => some (c.write (.looked false), q.looked c.now false)
  | .reopen t =>
    some ({ c.set ({ · with probing := true }) with locked := false }, q.looked t false)
  | .healthy t ejected =>
    some (c, match q with
      | .filter =>
        if c.health.healthy then .returned (some (t, true)) else .query q (.probing t ejected false)
      | .status => .query q (.probing t ejected (c.health.healthy && !ejected)))
  | .probing t ejected healthy =>
    some (c, .returned (some (t, healthy || (c.health.probing && !ejected))))

/-- The next access of a call, at an instant not before the last one. -/
def action (S : Settings) (t : ℕ) (c : Cell) (p : Point) : Option (Cell × Point) :=
  if c.now ≤ t then
    match p with
    | .success p => some (recordSuccess S { c with now := t } p)
    | .failure p => recordFailure S { c with now := t } p
    | .query q p => query q { c with now := t } p
    | .returned _ => none
  else none

/-- One step of one call. -/
def step (S : Settings) : Pool Cell Point → Pool.Event Call ℕ → Option (Pool Cell Point) :=
  Pool.step enter (action S)

/-- A new backend, before the first call. -/
def initial : Pool Cell Point := ⟨⟨.initial, false, 0, []⟩, .empty⟩

/-- What can be reached, however the accesses of the calls are interleaved. -/
def Reachable (S : Settings) (s : Pool Cell Point) : Prop :=
  Runs (step S) (fun _ _ => True) initial s

/-- The call has returned. -/
def Point.isReturned : Point → Bool
  | .returned _ => true
  | _ => false

/-- No call is in progress. -/
def Quiet (s : Pool Cell Point) : Prop :=
  ∀ id p, s.points.get? id = some p → ∃ answer, p = .returned answer

instance (s : Pool Cell Point) : Decidable (Quiet s) :=
  decidable_of_iff (∀ id ∈ s.points.keys, (s.points.get? id).any Point.isReturned) <| by
    constructor
    · intro h id p hp
      have := h id ((s.points.mem_keys id).2 (by simp [hp]))
      rw [hp] at this
      cases p with
      | returned answer => exact ⟨answer, rfl⟩
      | _ => cases this
    · intro h id hid
      obtain ⟨p, hp⟩ := Option.isSome_iff_exists.1 ((s.points.mem_keys id).1 hid)
      obtain ⟨answer, rfl⟩ := h id p hp
      rw [hp]
      rfl

variable {S : Settings} {t : ℕ} {c c' : Cell} {p q : Point}

/-- The access of an action, at its instant. -/
theorem action_cases (h : action S t c p = some (c', q)) : c.now ≤ t ∧
    ((∃ p₀, p = .success p₀ ∧ recordSuccess S { c with now := t } p₀ = (c', q)) ∨
      (∃ p₀, p = .failure p₀ ∧ recordFailure S { c with now := t } p₀ = some (c', q)) ∨
      ∃ q₀ p₀, p = .query q₀ p₀ ∧ query q₀ { c with now := t } p₀ = some (c', q)) := by
  unfold action at h
  split_ifs at h with hle
  cases p with
  | success p₀ => exact ⟨hle, Or.inl ⟨p₀, rfl, Option.some.inj h⟩⟩
  | failure p₀ => exact ⟨hle, Or.inr (Or.inl ⟨p₀, rfl, h⟩)⟩
  | query q₀ p₀ => exact ⟨hle, Or.inr (Or.inr ⟨q₀, p₀, rfl, h⟩)⟩
  | returned answer => cases h

/-- What an ejection does. -/
theorem eject_cases (h : (c.eject S).map (·, Point.returned none) = some (c', q)) :
    c.locked = false ∧ c' = (c.set (·.eject S.ejectionDuration c.now)).write .ejected ∧
      q = .returned none := by
  obtain ⟨c₁, he, hc⟩ := Option.map_eq_some_iff.1 h
  obtain ⟨rfl, rfl⟩ := Prod.mk.inj hc
  unfold Cell.eject at he
  split_ifs at he with hl
  exact ⟨by simpa using hl, (Option.some.inj he).symm, rfl⟩

/-- What a look does. -/
theorem look_cases {q₀ : Query} (h : query q₀ c .look = some (c', q)) : c.locked = false ∧
    ((∃ till, c.health.ejectedUntil = some till ∧ c.now < till ∧ c' = c.write (.looked true) ∧
        q = q₀.looked c.now true) ∨
      (∃ till, c.health.ejectedUntil = some till ∧ till ≤ c.now ∧
        c' = { (c.set ({ · with ejectedUntil := none })).write (.looked false) with
          locked := true } ∧ q = .query q₀ (.reopen c.now)) ∨
      c.health.ejectedUntil = none ∧ c' = c.write (.looked false) ∧
        q = q₀.looked c.now false) := by
  simp only [query] at h
  split_ifs at h with hl
  refine ⟨by simpa using hl, ?_⟩
  split at h
  · rename_i till hu
    split_ifs at h with hlt
    · obtain ⟨rfl, rfl⟩ := Prod.mk.inj (Option.some.inj h)
      exact Or.inl ⟨till, hu, hlt, rfl, rfl⟩
    · obtain ⟨rfl, rfl⟩ := Prod.mk.inj (Option.some.inj h)
      exact Or.inr (Or.inl ⟨till, hu, not_lt.1 hlt, rfl, rfl⟩)
  · rename_i hu
    obtain ⟨rfl, rfl⟩ := Prod.mk.inj (Option.some.inj h)
    exact Or.inr (Or.inr ⟨hu, rfl, rfl⟩)

theorem recordSuccess_point {p₀ : SuccessPoint} (h : recordSuccess S c p₀ = (c', q)) :
    (∃ p', q = .success p') ∨ q = .returned none := by
  cases p₀ with
  | probing | healthy =>
    obtain ⟨-, rfl⟩ := Prod.mk.inj h
    split_ifs <;> simp
  | _ =>
    obtain ⟨-, rfl⟩ := Prod.mk.inj h
    simp

theorem recordFailure_point {p₀ : FailurePoint} (h : recordFailure S c p₀ = some (c', q)) :
    (∃ p', q = .failure p') ∨ q = .returned none := by
  cases p₀ with
  | ejectAgain | eject => exact Or.inr (eject_cases h).2.2
  | probing | healthy =>
    obtain ⟨-, rfl⟩ := Prod.mk.inj (Option.some.inj h)
    split_ifs <;> simp
  | _ =>
    obtain ⟨-, rfl⟩ := Prod.mk.inj (Option.some.inj h)
    simp

theorem Query.looked_point (q : Query) (t : ℕ) (ejected : Bool) :
    (∃ p', q.looked t ejected = .query q p') ∨ ∃ a, q.looked t ejected = .returned (some a) := by
  cases q <;> cases ejected <;> simp [Query.looked]

theorem query_point {q₀ : Query} {p₀ : QueryPoint} (h : query q₀ c p₀ = some (c', q)) :
    (∃ p', q = .query q₀ p') ∨ ∃ a, q = .returned (some a) := by
  cases p₀ with
  | look =>
    obtain ⟨-, ⟨till, -, -, -, rfl⟩ | ⟨till, -, -, -, rfl⟩ | ⟨-, -, rfl⟩⟩ := look_cases h
    · exact q₀.looked_point ..
    · exact Or.inl ⟨_, rfl⟩
    · exact q₀.looked_point ..
  | reopen t₀ =>
    obtain ⟨-, rfl⟩ := Prod.mk.inj (Option.some.inj h)
    exact q₀.looked_point ..
  | healthy t₀ ejected =>
    obtain ⟨-, rfl⟩ := Prod.mk.inj (Option.some.inj h)
    cases q₀ with
    | filter =>
      show (∃ p', (if c.health.healthy then _ else _) = _) ∨ _
      split_ifs <;> simp
    | status => exact Or.inl ⟨_, rfl⟩
  | probing t₀ ejected healthy =>
    obtain ⟨-, rfl⟩ := Prod.mk.inj (Option.some.inj h)
    exact Or.inr ⟨_, rfl⟩

/-- The log only grows. -/
theorem log_action (h : action S t c p = some (c', q)) : c.log ⊆ c'.log := by
  obtain ⟨-, ⟨p₀, rfl, hs⟩ | ⟨p₀, rfl, hf⟩ | ⟨q₀, p₀, rfl, hq⟩⟩ := action_cases h
  · obtain ⟨rfl, -⟩ := Prod.mk.inj hs
    cases p₀ <;> exact List.Subset.refl _
  · cases p₀ with
    | ejectAgain | eject =>
      obtain ⟨-, rfl, -⟩ := eject_cases hf
      exact List.subset_append_left ..
    | _ =>
      obtain ⟨rfl, -⟩ := Prod.mk.inj (Option.some.inj hf)
      exact List.Subset.refl _
  · cases p₀ with
    | look =>
      obtain ⟨-, ⟨till, -, -, rfl, -⟩ | ⟨till, -, -, rfl, -⟩ | ⟨-, rfl, -⟩⟩ := look_cases hq <;>
        exact List.subset_append_left ..
    | _ =>
      obtain ⟨rfl, -⟩ := Prod.mk.inj (Option.some.inj hq)
      exact List.Subset.refl _

/-! ## A call by itself -/

theorem recordSuccess_alone (hnow : c.now ≤ t) : ∃ n, Pool.iterate (action S) t n c
    (.success .start) = some ({ c with
      health := (c.health.recordSuccess S.recoveryThreshold).1, now := t }, .returned none) := by
  by_cases hp : c.health.probing
  · refine ⟨5, ?_⟩
    simp [Pool.iterate, action, recordSuccess, Cell.set, BackendHealth.recordSuccess, hp, hnow]
  · by_cases hr : c.health.healthy = false ∧ S.recoveryThreshold ≤ c.health.consecutiveSuccesses + 1
    · refine ⟨6, ?_⟩
      simp [Pool.iterate, action, recordSuccess, Cell.set, BackendHealth.recordSuccess, hp, hnow, hr]
    · refine ⟨4, ?_⟩
      simp [Pool.iterate, action, recordSuccess, Cell.set, BackendHealth.recordSuccess, hp, hnow, hr]

theorem recordFailure_alone (hnow : c.now ≤ t) (hfree : c.locked = false) :
    ∃ n, Pool.iterate (action S) t n c (.failure .start) = some ({ c with
      health := (c.health.recordFailure S.failureThreshold S.ejectionDuration t).1
      now := t
      log := c.log ++ if c.health.ejects S.failureThreshold then [(t, .ejected)] else [] },
        .returned none) := by
  by_cases hp : c.health.probing
  · refine ⟨4, ?_⟩
    simp [Pool.iterate, action, recordFailure, Cell.set, Cell.eject, Cell.write,
      BackendHealth.recordFailure, BackendHealth.ejects, BackendHealth.eject, hp, hnow, hfree]
  · by_cases hr : c.health.healthy = true ∧ S.failureThreshold ≤ c.health.consecutiveFailures + 1
    · refine ⟨7, ?_⟩
      simp [Pool.iterate, action, recordFailure, Cell.set, Cell.eject, Cell.write,
        BackendHealth.recordFailure, BackendHealth.ejects, BackendHealth.eject, hp, hnow, hfree, hr]
    · refine ⟨4, ?_⟩
      simp [Pool.iterate, action, recordFailure, Cell.set, Cell.eject, Cell.write,
        BackendHealth.recordFailure, BackendHealth.ejects, BackendHealth.eject, hp, hnow, hfree, hr]

/-- A query after its look. -/
theorem looked_alone (q : Query) (hnow : c.now = t) (ejected : Bool) :
    ∃ n, Pool.iterate (action S) t n c (q.looked t ejected) = some (c,
      .returned (some (t, !ejected && (c.health.healthy || c.health.probing)))) := by
  subst hnow
  cases q with
  | filter =>
    cases ejected with
    | true => exact ⟨0, rfl⟩
    | false =>
      cases hh : c.health.healthy with
      | true => exact ⟨1, by simp [Pool.iterate, action, query, Query.looked, hh]⟩
      | false => exact ⟨2, by simp [Pool.iterate, action, query, Query.looked, hh]⟩
  | status =>
    refine ⟨2, ?_⟩
    cases ejected <;> simp [Pool.iterate, action, query, Query.looked]

theorem query_alone (q : Query) (hnow : c.now ≤ t) (hfree : c.locked = false) :
    ∃ n, Pool.iterate (action S) t n c (.query q .look) = some ({ c with
      health := c.health.look t
      now := t
      log := c.log ++ [(t, .looked (c.health.ejected t))] },
        .returned (some (t, c.health.eligible t))) := by
  have hlook : ∃ n, Pool.iterate (action S) t n c (.query q .look) = some ({ c with
      health := c.health.look t
      now := t
      log := c.log ++ [(t, .looked (c.health.ejected t))] }, q.looked t (c.health.ejected t)) := by
    cases hu : c.health.ejectedUntil with
    | none =>
      refine ⟨1, ?_⟩
      simp [Pool.iterate, action, query, Cell.write, BackendHealth.ejected,
        BackendHealth.look_of_none hu, hnow, hfree, hu]
    | some till =>
      by_cases hlt : t < till
      · refine ⟨1, ?_⟩
        simp [Pool.iterate, action, query, Cell.write, BackendHealth.ejected,
          BackendHealth.look_of_open hu hlt, hnow, hfree, hu, hlt]
      · refine ⟨2, ?_⟩
        simp [Pool.iterate, action, query, Cell.write, Cell.set, BackendHealth.ejected,
          BackendHealth.look_of_over hu hlt, hnow, hfree, hu, hlt]
  obtain ⟨n, hn⟩ := hlook
  obtain ⟨k, hk⟩ := looked_alone (S := S) (c := { c with
      health := c.health.look t
      now := t
      log := c.log ++ [(t, .looked (c.health.ejected t))] }) q rfl (c.health.ejected t)
  refine ⟨n + k, (Pool.iterate_trans hn).trans ?_⟩
  rw [hk, BackendHealth.eligible]
  simp

/-! ## Histories of whole calls -/

/-- The settings of a manager. -/
def settings (m : HealthManager) : Settings :=
  ⟨m.failureThreshold, m.recoveryThreshold, m.ejectionDuration⟩

/-- The call on `b` in a call of the manager. -/
def callOn (b : String) : HealthManager.Event → Option Call
  | .recordSuccess b' => if b = b' then some .recordSuccess else none
  | .recordFailure b' => if b = b' then some .recordFailure else none
  | .healthyBackends r => if b ∈ r.backends then some (.query .filter) else none
  | .backendStatuses => some (.query .status)

/-- What the manager says about `b` in a call. -/
def answerOn (b : String) (m : HealthManager) (e : ℕ × HealthManager.Event) : Option (ℕ × Bool) :=
  match e.2 with
  | .recordSuccess _ | .recordFailure _ => none
  | .healthyBackends r => some (e.1, b ∈ (m.healthyBackends e.1 r).2)
  | .backendStatuses => some (e.1, (b, true) ∈ (m.backendStatuses e.1).2)

/-- The calls on `b` in a history, with their answers. -/
def observed (b : String) : HealthManager → HealthManager.History →
    List (ℕ × Call × Option (ℕ × Bool))
  | _, [] => []
  | m, e :: h =>
    ((callOn b e.2).toList.map fun call => (e.1, call, answerOn b m e)) ++ observed b (m.step e) h

/-- The calls are made one after the other: each returns before the next one starts. -/
inductive Serial (S : Settings) : Pool Cell Point → List (ℕ × Call × Option (ℕ × Bool)) →
    Pool Cell Point → Prop
  | nil {s : Pool Cell Point} : Serial S s [] s
  | cons {s s₁ s' : Pool Cell Point} {id t n : ℕ} {call : Call} {answer : Option (ℕ × Bool)}
      {calls : List (ℕ × Call × Option (ℕ × Bool))} :
      exec (step S) s (.start id call :: List.replicate n (.act id t)) = some s₁ →
      s₁.points.get? id = some (.returned answer) → Serial S s₁ calls s' →
      Serial S s ((t, call, answer) :: calls) s'

/-- The instants of the ejections in a log. -/
def ejectionsOf (log : List (ℕ × Entry)) : List ℕ :=
  log.filterMap fun e => if e.2 = .ejected then some e.1 else none

@[simp] theorem ejectionsOf_ejected (log : List (ℕ × Entry)) (t : ℕ) :
    ejectionsOf (log ++ [(t, .ejected)]) = ejectionsOf log ++ [t] := by
  simp [ejectionsOf, List.filterMap_append]

@[simp] theorem ejectionsOf_looked (log : List (ℕ × Entry)) (t : ℕ) (a : Bool) :
    ejectionsOf (log ++ [(t, .looked a)]) = ejectionsOf log := by
  simp [ejectionsOf, List.filterMap_append]

/-- **A call by itself.** -/
theorem call_alone {m : HealthManager} {b : String} {e : ℕ × HealthManager.Event} {call : Call}
    (hcall : callOn b e.2 = some call) (hb : m.backendHealth.get? b = some c.health)
    (hnow : c.now ≤ e.1) (hfree : c.locked = false) :
    ∃ n c', Pool.iterate (action (settings m)) e.1 n c (enter call) =
        some (c', .returned (answerOn b m e)) ∧
      c'.health = m.stepOne b c.health e ∧ c'.now = e.1 ∧ c'.locked = false ∧
      ejectionsOf c'.log = ejectionsOf c.log ++
        if e.2 = .recordFailure b ∧ m.wouldEject b then [e.1] else [] := by
  obtain ⟨t, e⟩ := e
  cases e with
  | recordSuccess b' =>
    obtain ⟨rfl, rfl⟩ : b = b' ∧ .recordSuccess = call := by simpa [callOn] using hcall
    obtain ⟨n, hn⟩ := recordSuccess_alone (S := settings m) hnow
    refine ⟨n, _, hn, ?_, rfl, hfree, by simp⟩
    simp [HealthManager.stepOne, settings]
  | recordFailure b' =>
    obtain ⟨rfl, rfl⟩ : b = b' ∧ .recordFailure = call := by simpa [callOn] using hcall
    obtain ⟨n, hn⟩ := recordFailure_alone (S := settings m) hnow hfree
    refine ⟨n, _, hn, ?_, rfl, hfree, ?_⟩
    · simp [HealthManager.stepOne, settings]
    · have hw : m.wouldEject b = c.health.ejects m.failureThreshold := by
        simp [HealthManager.wouldEject, hb]
      by_cases he : c.health.ejects m.failureThreshold <;> simp [hw, he, settings]
  | healthyBackends r =>
    obtain ⟨hmem, rfl⟩ : b ∈ r.backends ∧ .query .filter = call := by simpa [callOn] using hcall
    obtain ⟨n, hn⟩ := query_alone (S := settings m) .filter hnow hfree
    have hanswer : decide (b ∈ (m.healthyBackends t r).2) = c.health.eligible t := by
      rw [HealthManager.healthyBackends_eq]
      simp [hmem, hb]
    rw [← hanswer] at hn
    exact ⟨n, _, hn, by simp [HealthManager.stepOne, hmem], rfl, hfree, by simp⟩
  | backendStatuses =>
    obtain rfl : .query .status = call := by simpa [callOn] using hcall
    obtain ⟨n, hn⟩ := query_alone (S := settings m) .status hnow hfree
    have hanswer : decide ((b, true) ∈ (m.backendStatuses t).2) = c.health.eligible t := by
      simp [HealthManager.mem_backendStatuses, hb]
    rw [← hanswer] at hn
    exact ⟨n, _, hn, by simp [HealthManager.stepOne], rfl, hfree, by simp⟩

theorem stepOne_of_none {m : HealthManager} {b : String} {e : ℕ × HealthManager.Event}
    (h : callOn b e.2 = none) (st : BackendHealth) : m.stepOne b st e = st := by
  obtain ⟨t, e⟩ := e
  cases e with
  | recordSuccess b' | recordFailure b' | healthyBackends r =>
    exact if_neg fun heq => by simp [callOn, heq] at h
  | backendStatuses => cases h

theorem settings_step (m : HealthManager) (e : ℕ × HealthManager.Event) :
    settings (m.step e) = settings m := by
  have h := m.step_same e
  simp only [settings, h.failureThreshold, h.recoveryThreshold, h.ejectionDuration]

/-- **Histories are schedules.** A history of whole calls of the manager is an execution of the
    accesses in which the calls on a backend do not overlap: it leaves the same state, ejects at the
    same instants, and each query gives the same answer. -/
theorem history_serial (b : String) (m : HealthManager) (h : HealthManager.History)
    (hchron : HealthManager.Chronological h) (s : Pool Cell Point)
    (hnow : ∀ e ∈ h, s.shared.now ≤ e.1) (hfree : s.shared.locked = false)
    (hb : m.backendHealth.get? b = some s.shared.health) :
    ∃ s', Serial (settings m) s (observed b m h) s' ∧
      (m.run h).backendHealth.get? b = some s'.shared.health ∧
      ejectionsOf s'.shared.log = ejectionsOf s.shared.log ++ m.ejections b h := by
  induction h generalizing m s with
  | nil => exact ⟨s, .nil, hb, (List.append_nil _).symm⟩
  | cons e h ih =>
    obtain ⟨hle, hchron⟩ := List.pairwise_cons.1 hchron
    have hstep : (m.step e).backendHealth.get? b = some (m.stepOne b s.shared.health e) := by
      rw [HealthManager.get?_step, hb, Option.map_some]
    cases hcall : callOn b e.2 with
    | none =>
      have hsame := stepOne_of_none (m := m) hcall s.shared.health
      have hnot : ¬ (e.2 = .recordFailure b ∧ m.wouldEject b) := by
        rintro ⟨he, -⟩
        simp [he, callOn] at hcall
      obtain ⟨s', hserial, hrun, hlog⟩ := ih (m.step e) hchron s
        (fun e' he' => hnow e' (List.mem_cons_of_mem _ he')) hfree (hsame ▸ hstep)
      refine ⟨s', ?_, hrun, ?_⟩
      · rw [settings_step] at hserial
        simpa [observed, hcall] using hserial
      · rw [hlog, HealthManager.ejections, if_neg hnot, List.nil_append]
    | some call =>
      obtain ⟨n, c', hiter, hhealth, hnow', hfree', hejected⟩ :=
        call_alone hcall hb (hnow e (List.mem_cons_self ..)) hfree
      obtain ⟨id, hid⟩ := Infinite.exists_notMem_finset s.points.keys.toFinset
      have hnone : s.points.get? id = none := by
        simpa [s.points.mem_keys] using hid
      obtain ⟨s₁, hexec, rfl, hp, -⟩ := Pool.exec_alone enter
        (s := { s with points := s.points.insert id (enter call) })
        (Table.get?_insert_self ..) hiter
      obtain ⟨s', hserial, hrun, hlog⟩ := ih (m.step e) hchron s₁
        (fun e' he' => hnow' ▸ hle e' he') hfree' (hhealth ▸ hstep)
      refine ⟨s', ?_, hrun, ?_⟩
      · rw [settings_step] at hserial
        rw [observed, hcall]
        have hcons : exec (step (settings m)) s (.start id call :: List.replicate n (.act id e.1)) =
            some s₁ := by
          rw [exec, step, Pool.step, if_pos hnone]
          exact hexec
        exact .cons hcons hp hserial
      · rw [hlog, hejected, HealthManager.ejections, List.append_assoc]

/-- A failure under a threshold of one, a query in the window and one after it. -/
theorem history_serial_ejected_and_back : ∃ s',
    Serial ⟨1, 2, 30⟩ initial [(10, .recordFailure, none), (20, .query .filter, some (20, false)),
      (40, .query .filter, some (40, true))] s' ∧ ejectionsOf s'.shared.log = [10] := by
  let route : RouteConfig := { pathPrefix := "/", backends := ["a"] }
  obtain ⟨s', hserial, -, hlog⟩ := history_serial "a"
    (HealthManager.withTelemetry [route] 1 2 30 200 399 500 599 true)
    [(10, .recordFailure "a"), (20, .healthyBackends route), (40, .healthyBackends route)]
    (by simp [HealthManager.Chronological]) initial (by simp [initial]) rfl (by decide)
  exact ⟨s', hserial, hlog⟩

end Atomics

end FerrumProxy
