/-
  Histories of the health manager, and what each call does to one backend.

  `healthyBackends_eq` and `mem_backendStatuses` say what the two queries answer,
  with their lazy expiry read off; `recordSuccess_cases`, `recordFailure_cases`
  and `look_cases` say once what an operation can do to the state of a backend.
  A call acts on each backend by itself (`get?_step`), so that everything about a
  run can be proved one backend at a time.
-/
import FerrumProxy.Health

namespace FerrumProxy

open Lib

namespace BackendHealth

/-- What `healthy_backends` and `backend_statuses` decide about a backend. -/
def eligible (now : ℕ) (st : BackendHealth) : Bool :=
  !st.ejected now && (st.healthy || (st.look now).probing)

/-! ## Looking at a backend -/

theorem look_of_none {now : ℕ} {st : BackendHealth} (h : st.ejectedUntil = none) :
    st.look now = st := by
  simp [look, h]

theorem look_of_open {now till : ℕ} {st : BackendHealth} (h : st.ejectedUntil = some till)
    (ht : now < till) : st.look now = st := by
  simp [look, h, ht]

theorem look_of_over {now till : ℕ} {st : BackendHealth} (h : st.ejectedUntil = some till)
    (ht : ¬ now < till) : st.look now = { st with ejectedUntil := none, probing := true } := by
  simp [look, h, ht]

/-- A look changes the state only when it finds a window that is over. -/
theorem look_cases (now : ℕ) (st : BackendHealth) :
    st.look now = st ∨ ∃ till, st.ejectedUntil = some till ∧ till ≤ now ∧
      st.look now = { st with ejectedUntil := none, probing := true } := by
  rcases h : st.ejectedUntil with _ | till
  · exact Or.inl (look_of_none h)
  · by_cases ht : now < till
    · exact Or.inl (look_of_open h ht)
    · exact Or.inr ⟨till, rfl, not_lt.1 ht, look_of_over h ht⟩

@[simp] theorem look_healthy (now : ℕ) (st : BackendHealth) : (st.look now).healthy = st.healthy := by
  rcases look_cases now st with h | ⟨_, -, -, h⟩ <;> rw [h]

/-- Looking twice at one instant is looking once. -/
@[simp] theorem look_look (now : ℕ) (st : BackendHealth) :
    (st.look now).look now = st.look now := by
  rcases look_cases now st with h | ⟨_, -, -, h⟩
  · rw [h, h]
  · rw [h]; rfl

@[simp] theorem ejected_look (now : ℕ) (st : BackendHealth) :
    (st.look now).ejected now = st.ejected now := by
  rcases look_cases now st with h | ⟨till, hu, ht, h⟩
  · rw [h]
  · rw [h]; simp [ejected, hu, ht]

@[simp] theorem eligible_look (now : ℕ) (st : BackendHealth) :
    (st.look now).eligible now = st.eligible now := by
  simp [eligible]

/-! ## Recording an outcome -/

/-- What `record_success` can do. -/
theorem recordSuccess_cases (recovery : ℕ) (st : BackendHealth) :
    ((st.probing ∨ st.healthy = false ∧ recovery ≤ st.consecutiveSuccesses + 1) ∧
      (st.recordSuccess recovery).1 = ⟨true, 0, 0, st.ejectedUntil, false⟩) ∨
    (st.probing = false ∧ (st.healthy ∨ st.consecutiveSuccesses + 1 < recovery) ∧
      (st.recordSuccess recovery).1 = { st with
        consecutiveFailures := 0, consecutiveSuccesses := st.consecutiveSuccesses + 1 }) := by
  obtain ⟨healthy, failures, successes, till, probing⟩ := st
  cases probing <;> cases healthy <;> simp [recordSuccess]
  by_cases h : recovery ≤ successes + 1
  · simp [h]
  · simp [h]; omega

/-- What `record_failure` can do. -/
theorem recordFailure_cases (threshold D now : ℕ) (st : BackendHealth) :
    (st.ejects threshold ∧ st.probing ∧ (st.recordFailure threshold D now).1 = { st with
      consecutiveSuccesses := 0, probing := false, ejectedUntil := some (now + D) }) ∨
    (st.ejects threshold ∧ st.probing = false ∧ st.healthy ∧
      threshold ≤ st.consecutiveFailures + 1 ∧
      (st.recordFailure threshold D now).1 = ⟨false, 0, 0, some (now + D), false⟩) ∨
    (st.ejects threshold = false ∧ st.probing = false ∧
      (st.healthy = false ∨ st.consecutiveFailures + 1 < threshold) ∧
      (st.recordFailure threshold D now).1 = { st with
        consecutiveSuccesses := 0, consecutiveFailures := st.consecutiveFailures + 1 }) := by
  obtain ⟨healthy, failures, successes, till, probing⟩ := st
  cases probing <;> cases healthy <;> simp [recordFailure, ejects, eject]
  by_cases h : threshold ≤ failures + 1
  · simp [h]
  · simp [h]; omega

/-- A failure that ejects opens a window at its instant. -/
theorem recordFailure_of_ejects {st : BackendHealth} {threshold : ℕ} (h : st.ejects threshold)
    (D now : ℕ) : (st.recordFailure threshold D now).1.ejectedUntil = some (now + D) := by
  rcases st.recordFailure_cases threshold D now with
    ⟨-, -, heq⟩ | ⟨-, -, -, -, heq⟩ | ⟨hej, -, -, -⟩
  · rw [heq]
  · rw [heq]
  · simp [hej] at h

/-- Any other failure changes the counters only. -/
theorem recordFailure_of_not_ejects {st : BackendHealth} {threshold : ℕ}
    (h : st.ejects threshold = false) (D now : ℕ) :
    (st.recordFailure threshold D now).1.ejectedUntil = st.ejectedUntil ∧
      (st.recordFailure threshold D now).1.healthy = st.healthy := by
  rcases st.recordFailure_cases threshold D now with
    ⟨hej, -, -⟩ | ⟨hej, -, -, -, -⟩ | ⟨-, -, -, heq⟩
  · simp [hej] at h
  · simp [hej] at h
  · rw [heq]
    exact ⟨rfl, rfl⟩

/-- A failure never makes a backend healthy. -/
theorem recordFailure_healthy {st : BackendHealth} (hh : st.healthy = false)
    (threshold D now : ℕ) : (st.recordFailure threshold D now).1.healthy = false := by
  rcases st.recordFailure_cases threshold D now with
    ⟨-, -, heq⟩ | ⟨-, -, -, -, heq⟩ | ⟨-, -, -, heq⟩ <;> rw [heq]
  · exact hh
  · exact hh

/-- When a success makes a backend healthy again. -/
theorem recordSuccess_healthy_iff {st : BackendHealth} (hh : st.healthy = false) {recovery : ℕ}
    (hlt : st.consecutiveSuccesses < recovery) :
    (st.recordSuccess recovery).1.healthy ↔
      st.probing ∨ st.consecutiveSuccesses + 1 = recovery := by
  rcases st.recordSuccess_cases recovery with ⟨hev, heq⟩ | ⟨hp, hev, heq⟩
  · rw [heq]
    refine iff_of_true rfl (hev.imp_right fun hle => ?_)
    omega
  · rw [heq]
    have hlt : st.consecutiveSuccesses + 1 < recovery := hev.resolve_left (by simp [hh])
    refine iff_of_false (by simp [hh]) ?_
    rintro (hp' | hm)
    · simp [hp] at hp'
    · omega

end BackendHealth

namespace HealthManager

/-! ## Operations, backend by backend -/

theorem update_of_none {m : HealthManager} {b : String} (h : m.backendHealth.get? b = none)
    (f : BackendHealth → BackendHealth) : m.update b f = m := by
  unfold update
  rw [Table.modify_eq_self]
  simp [h]

theorem recordSuccess_fst (m : HealthManager) (b : String) :
    (m.recordSuccess b).1 = m.update b fun st => (st.recordSuccess m.recoveryThreshold).1 := by
  unfold recordSuccess; split
  · rename_i h; rw [update_of_none h]
  · rfl

theorem recordFailure_fst (m : HealthManager) (now : ℕ) (b : String) :
    (m.recordFailure now b).1 =
      m.update b fun st => (st.recordFailure m.failureThreshold m.ejectionDuration now).1 := by
  unfold recordFailure; split
  · rename_i h; rw [update_of_none h]
  · rfl

theorem isBackendEjected_fst (m : HealthManager) (now : ℕ) (b : String) :
    (m.isBackendEjected now b).1 = m.update b (·.look now) := by
  unfold isBackendEjected; split
  · rename_i h; rw [update_of_none h]
  · rfl

theorem isBackendEjected_snd (m : HealthManager) (now : ℕ) (b : String) :
    (m.isBackendEjected now b).2 = (m.backendHealth.get? b).any (·.ejected now) := by
  unfold isBackendEjected; split
  · rename_i h; simp [h]
  · rename_i h; simp [h]

theorem get?_update (m : HealthManager) (b b' : String) (f : BackendHealth → BackendHealth) :
    (m.update b f).backendHealth.get? b' =
      if b' = b then (m.backendHealth.get? b).map f else m.backendHealth.get? b' :=
  Table.get?_modify ..

/-- Look at each of the backends `bs`. -/
def lookAll (now : ℕ) (m : HealthManager) (bs : List String) : HealthManager :=
  bs.foldl (fun m b => m.update b (·.look now)) m

theorem get?_lookAll (now : ℕ) (bs : List String) (m : HealthManager) (b : String) :
    (m.lookAll now bs).backendHealth.get? b =
      if b ∈ bs then (m.backendHealth.get? b).map (·.look now) else m.backendHealth.get? b := by
  induction bs generalizing m with
  | nil => simp [lookAll]
  | cons a bs ih =>
    rw [show m.lookAll now (a :: bs) = (m.update a (·.look now)).lookAll now bs from rfl, ih,
      get?_update]
    by_cases hab : b = a
    · subst hab
      cases m.backendHealth.get? b <;> simp
    · simp [hab]

/-- The decision on one backend, when its state has been looked at. -/
theorem keep_eq (m : HealthManager) (now : ℕ) (b : String) :
    (!(m.isBackendEjected now b).2 && ((m.isBackendEjected now b).1.isBackendHealthy b ||
      (m.isBackendEjected now b).1.isBackendProbing b)) =
      (m.backendHealth.get? b).any (·.eligible now) := by
  rw [isBackendEjected_fst, isBackendEjected_snd]
  simp only [isBackendHealthy, isBackendProbing, get?_update, if_true]
  cases m.backendHealth.get? b with
  | none => rfl
  | some st => simp [BackendHealth.eligible]

theorem any_eligible_look (m : HealthManager) (now : ℕ) (a b : String) :
    ((m.update a (·.look now)).backendHealth.get? b).any (·.eligible now) =
      (m.backendHealth.get? b).any (·.eligible now) := by
  rw [get?_update]
  split_ifs with h
  · subst h; cases m.backendHealth.get? b <;> simp
  · rfl

theorem filterHealthy_eq (now : ℕ) (bs : List String) (m : HealthManager) :
    m.filterHealthy now bs = (m.lookAll now bs,
      bs.filter fun b => (m.backendHealth.get? b).any (·.eligible now)) := by
  induction bs generalizing m with
  | nil => rfl
  | cons a bs ih =>
    have hk := keep_eq m now a
    simp only [filterHealthy, ih, List.filter_cons, hk]
    rw [isBackendEjected_fst]
    refine Prod.ext rfl ?_
    simp only [any_eligible_look]

theorem mapStatuses_eq (now : ℕ) (bs : List String) (m : HealthManager) :
    m.mapStatuses now bs = (m.lookAll now bs,
      bs.map fun b => (b, (m.backendHealth.get? b).any (·.eligible now))) := by
  induction bs generalizing m with
  | nil => rfl
  | cons a bs ih =>
    have hk := keep_eq m now a
    rw [Bool.and_or_distrib_left, Bool.and_comm, Bool.and_comm (!_) (isBackendProbing _ _)] at hk
    simp only [mapStatuses, ih, List.map_cons, hk]
    rw [isBackendEjected_fst]
    refine Prod.ext rfl ?_
    simp only [any_eligible_look]

/-- **`healthy_backends`** looks at the backends of the route and keeps the eligible ones. -/
theorem healthyBackends_eq (m : HealthManager) (now : ℕ) (r : RouteConfig) :
    m.healthyBackends now r = (m.lookAll now r.backends,
      r.backends.filter fun b => (m.backendHealth.get? b).any (·.eligible now)) :=
  filterHealthy_eq now r.backends m

theorem backendStatuses_fst (m : HealthManager) (now : ℕ) :
    (m.backendStatuses now).1 = m.lookAll now m.backendHealth.keys := by
  simp only [backendStatuses, mapStatuses_eq]

/-- **`backend_statuses`** reports each backend of the table with its eligibility. -/
theorem mem_backendStatuses (m : HealthManager) (now : ℕ) (b : String) (v : Bool) :
    (b, v) ∈ (m.backendStatuses now).2 ↔
      ∃ st, m.backendHealth.get? b = some st ∧ st.eligible now = v := by
  simp only [backendStatuses, mapStatuses_eq]
  rw [List.mem_insertionSort, List.mem_map]
  constructor
  · rintro ⟨b', hb', he⟩
    obtain ⟨rfl, he⟩ := Prod.mk.inj he
    obtain ⟨st, hst⟩ := Option.isSome_iff_exists.1 ((m.backendHealth.mem_keys b').1 hb')
    exact ⟨st, hst, by simpa [hst] using he⟩
  · rintro ⟨st, hst, he⟩
    exact ⟨b, (m.backendHealth.mem_keys b).2 (by simp [hst]), by simp [hst, he]⟩

/-! ## Histories -/

/-- The calls that read or change the health state. -/
inductive Event where
  | recordSuccess (backend : String)
  | recordFailure (backend : String)
  | healthyBackends (route : RouteConfig)
  | backendStatuses
deriving DecidableEq, Repr

/-- Calls with the instants at which they are made. -/
abbrev History := List (ℕ × Event)

/-- The instants do not decrease. -/
def Chronological (h : History) : Prop := h.Pairwise fun e e' => e.1 ≤ e'.1

/-- The state after one call. -/
def step (m : HealthManager) (e : ℕ × Event) : HealthManager :=
  match e.2 with
  | .recordSuccess b => (m.recordSuccess b).1
  | .recordFailure b => (m.recordFailure e.1 b).1
  | .healthyBackends r => (m.healthyBackends e.1 r).1
  | .backendStatuses => (m.backendStatuses e.1).1

/-- The state after a history. -/
def run (m : HealthManager) (h : History) : HealthManager := h.foldl step m

@[simp] theorem run_nil (m : HealthManager) : m.run [] = m := rfl

@[simp] theorem run_cons (m : HealthManager) (e : ℕ × Event) (h : History) :
    m.run (e :: h) = (m.step e).run h := rfl

theorem run_append (m : HealthManager) (h h' : History) : m.run (h ++ h') = (m.run h).run h' :=
  List.foldl_append ..

/-- `record_failure(b)` would take an ejecting branch. -/
def wouldEject (m : HealthManager) (b : String) : Bool :=
  (m.backendHealth.get? b).any (·.ejects m.failureThreshold)

/-- The instants at which a history ejects `b`. -/
def ejections (m : HealthManager) (b : String) : History → List ℕ
  | [] => []
  | e :: h =>
    (if e.2 = .recordFailure b ∧ m.wouldEject b then [e.1] else []) ++ (m.step e).ejections b h

theorem ejections_append (m : HealthManager) (b : String) (h h' : History) :
    m.ejections b (h ++ h') = m.ejections b h ++ (m.run h).ejections b h' := by
  induction h generalizing m with
  | nil => rfl
  | cons e h ih => simp [ejections, ih]

/-- What one call does to the state of `b`, under the settings of `m`. -/
def stepOne (m : HealthManager) (b : String) (st : BackendHealth) (e : ℕ × Event) :
    BackendHealth :=
  match e.2 with
  | .recordSuccess b' => if b = b' then (st.recordSuccess m.recoveryThreshold).1 else st
  | .recordFailure b' =>
    if b = b' then (st.recordFailure m.failureThreshold m.ejectionDuration e.1).1 else st
  | .healthyBackends r => if b ∈ r.backends then st.look e.1 else st
  | .backendStatuses => st.look e.1

/-- **A call acts on each backend by itself.** -/
theorem get?_step (m : HealthManager) (e : ℕ × Event) (b : String) :
    (m.step e).backendHealth.get? b = (m.backendHealth.get? b).map (m.stepOne b · e) := by
  obtain ⟨t, e⟩ := e
  cases e with
  | recordSuccess b' =>
    simp only [step, stepOne, recordSuccess_fst, get?_update]
    split_ifs with h
    · rw [h]
    · simp
  | recordFailure b' =>
    simp only [step, stepOne, recordFailure_fst, get?_update]
    split_ifs with h
    · rw [h]
    · simp
  | healthyBackends r =>
    simp only [step, stepOne, healthyBackends_eq, get?_lookAll]
    split_ifs <;> simp
  | backendStatuses =>
    simp only [step, stepOne, backendStatuses_fst, get?_lookAll, m.backendHealth.mem_keys]
    cases m.backendHealth.get? b <;> simp

/-- The set of known backends never changes. -/
theorem isSome_run (m : HealthManager) (h : History) (b : String) :
    ((m.run h).backendHealth.get? b).isSome = (m.backendHealth.get? b).isSome := by
  induction h generalizing m with
  | nil => rfl
  | cons e h ih => rw [run_cons, ih, get?_step, Option.isSome_map]

/-- Two managers that differ in their table only. -/
def SameSettings (m m' : HealthManager) : Prop := m' = { m with backendHealth := m'.backendHealth }

namespace SameSettings

variable {m m' m'' : HealthManager}

theorem trans (h : m.SameSettings m') (h' : m'.SameSettings m'') : m.SameSettings m'' := by
  unfold SameSettings at h h' ⊢
  rw [h']; rw [h]

theorem failureThreshold (h : m.SameSettings m') : m'.failureThreshold = m.failureThreshold := by
  unfold SameSettings at h; rw [h]

theorem recoveryThreshold (h : m.SameSettings m') :
    m'.recoveryThreshold = m.recoveryThreshold := by
  unfold SameSettings at h; rw [h]

theorem ejectionDuration (h : m.SameSettings m') : m'.ejectionDuration = m.ejectionDuration := by
  unfold SameSettings at h; rw [h]

theorem isActiveSuccessStatus (h : m.SameSettings m') (status : ℕ) :
    m'.isActiveSuccessStatus status = m.isActiveSuccessStatus status := by
  unfold SameSettings at h; rw [h]; rfl

end SameSettings

theorem lookAll_same (now : ℕ) (bs : List String) (m : HealthManager) :
    m.SameSettings (m.lookAll now bs) := by
  induction bs generalizing m with
  | nil => rfl
  | cons a bs ih =>
    have h : m.SameSettings (m.update a (·.look now)) := rfl
    exact h.trans (ih _)

theorem step_same (m : HealthManager) (e : ℕ × Event) : m.SameSettings (m.step e) := by
  obtain ⟨t, e⟩ := e
  cases e with
  | recordSuccess b => simp only [step, recordSuccess_fst]; rfl
  | recordFailure b => simp only [step, recordFailure_fst]; rfl
  | healthyBackends r => simp only [step, healthyBackends_eq]; exact lookAll_same ..
  | backendStatuses => simp only [step, backendStatuses_fst]; exact lookAll_same ..

theorem run_same (m : HealthManager) (h : History) : m.SameSettings (m.run h) := by
  induction h generalizing m with
  | nil => rfl
  | cons e h ih => exact (m.step_same e).trans (ih _)

/-- What a history does to the state of `b`. -/
def runOne (m : HealthManager) (b : String) (st : BackendHealth) (h : History) : BackendHealth :=
  h.foldl (m.stepOne b) st

theorem SameSettings.stepOne {m m' : HealthManager} (h : m.SameSettings m') (b : String) :
    m'.stepOne b = m.stepOne b := by
  funext st e
  simp only [HealthManager.stepOne, h.failureThreshold, h.recoveryThreshold, h.ejectionDuration]

theorem SameSettings.runOne {m m' : HealthManager} (h : m.SameSettings m') (b : String) :
    m'.runOne b = m.runOne b := by
  unfold HealthManager.runOne; rw [h.stepOne]

/-- **A history acts on each backend by itself.** -/
theorem get?_run (m : HealthManager) (h : History) (b : String) :
    (m.run h).backendHealth.get? b = (m.backendHealth.get? b).map (m.runOne b · h) := by
  induction h generalizing m with
  | nil => simp [runOne]
  | cons e h ih =>
    rw [run_cons, ih, get?_step, (m.step_same e).runOne, Option.map_map]
    rfl

end HealthManager

end FerrumProxy
