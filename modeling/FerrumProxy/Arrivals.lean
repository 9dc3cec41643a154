/-
  The arrival of a request, and the health state without it.

  A request arrives once, with the first of its entries (`arrivesIn_of_exec`,
  `Reachable.arrival_unique`).  Its handler may look at backends then (`LooksAt`), and a
  look changes the state of a backend exactly if its window is over and nobody has
  noticed yet (`Trans.unchanged_iff`).

  `Unaffected` compares the health state with the one that the calls of all others
  would have led to.
-/
import FerrumProxy.Attempts

namespace FerrumProxy

open Lib Sys

/-! ## Looks at the arrival -/

/-- The request makes `handle_request` look at the backend `b` when it arrives: it reads the
    statuses of all backends, or it is forwarded without retries to a route that has `b`. -/
def LooksAt (P : Setup) (req : Request) (b : String) : Prop :=
  ReadsStatuses P req ∨ ¬ AnsweredFirst P req ∧ P.shouldRetryRequest req.method = false ∧
    ∃ route, matchRoute req.uri.path P.config.routes = some route ∧ b ∈ route.backends

/-- The request that arrives at `t`, when `log` is the log before, is the first to look at a backend
    whose window is over. -/
def FindsOver (P : Setup) (log : List (ℕ × Obs)) (t : ℕ) (req : Request) : Prop :=
  ∃ b st till, (P.initial.health.run (healthHistory log)).backendHealth.get? b = some st ∧
    st.ejectedUntil = some till ∧ till ≤ t ∧ LooksAt P req b

/-- Before anything has happened, there is no window. -/
theorem not_findsOver_nil {P : Setup} {t : ℕ} {req : Request} : ¬ FindsOver P [] t req := by
  rintro ⟨b, st, till, hst, hu, -⟩
  have hinitial : P.initial.health.backendHealth =
      .ofKeys (P.config.routes.flatMap (·.backends)) fun _ => .initial := P.fresh
  rw [healthHistory_nil, HealthManager.run_nil, hinitial, Table.get?_ofKeys] at hst
  split_ifs at hst
  obtain rfl := Option.some.inj hst
  cases hu

section
variable {P : Setup} {m : HealthManager} {t id : ℕ} {e : Event} {old : Option Task} {new : Task}
  {os : List (ℕ × Obs)}

/-- The arrival of a request looks at the backends of `LooksAt`, once. -/
theorem Trans.looks {req : Request} (ht : Trans P m t id (.arrive id req) none os new) :
    (∃ c, healthHistory os = [(t, c)] ∧ ∀ b st, m.backendHealth.get? b = some st →
      (LooksAt P req b ∧ m.stepOne b st (t, c) = st.look t ∨
        ¬ LooksAt P req b ∧ m.stepOne b st (t, c) = st)) ∨
      healthHistory os = [] ∧ ∀ b, ¬ LooksAt P req b := by
  have hroute : ∀ {job : Job}, Enters P t req job → P.shouldRetryRequest req.method = false →
      ∀ b st, m.backendHealth.get? b = some st →
      (LooksAt P req b ∧ m.stepOne b st (t, .healthyBackends job.route) = st.look t ∨
        ¬ LooksAt P req b ∧ m.stepOne b st (t, .healthyBackends job.route) = st) := by
    intro job henter hretry b st _
    have hno : ¬ ReadsStatuses P req := fun h =>
      henter.passed (Or.inl (by rcases h with h | h <;> simp [h]))
    by_cases hb : b ∈ job.route.backends
    · exact Or.inl ⟨Or.inr ⟨henter.passed, hretry, job.route, henter.route, hb⟩, if_pos hb⟩
    · refine Or.inr ⟨?_, if_neg hb⟩
      rintro (h | ⟨-, -, route, hroute, hmem⟩)
      · exact hno h
      · rw [henter.route, Option.some.injEq] at hroute
        exact hb (hroute ▸ hmem)
  cases ht with
  | @answered _ response looks ha hl hreads =>
    rcases hl with rfl | rfl
    · refine Or.inr ⟨rfl, ?_⟩
      rintro b (h | ⟨hpassed, -⟩)
      · exact hreads.2 h rfl
      · exact hpassed ha
    · have h : ReadsStatuses P req := hreads.1 (List.cons_ne_nil _ _)
      exact Or.inl ⟨.backendStatuses, rfl, fun b st _ => Or.inl ⟨Or.inl h, rfl⟩⟩
  | noPermit henter hretry | startRetry henter hretry =>
    refine Or.inr ⟨rfl, ?_⟩
    rintro b (h | ⟨-, hno, -⟩)
    · exact henter.passed (Or.inl (by rcases h with h | h <;> simp [h]))
    · simp [hretry] at hno
  | noBackend henter hretry _ => exact Or.inl ⟨_, rfl, hroute henter hretry⟩
  | noPermitChosen henter hretry _ _ | startPrebuffer henter hretry _ _
  | startStream henter hretry _ _ => exact Or.inl ⟨_, rfl, hroute henter hretry⟩

/-- The arrival changes no backend iff it finds no window over. -/
theorem Trans.unchanged_iff {req : Request} (ht : Trans P m t id (.arrive id req) none os new) :
    (∀ b, (m.run (healthHistory os)).backendHealth.get? b = m.backendHealth.get? b) ↔
      ¬ ∃ b st till, m.backendHealth.get? b = some st ∧ st.ejectedUntil = some till ∧ till ≤ t ∧
        LooksAt P req b := by
  rcases ht.looks with ⟨c, hc, hlook⟩ | ⟨hnil, hnone⟩
  · rw [hc]
    constructor
    · rintro hsame ⟨b, st, till, hst, hu, hle, hlooks⟩
      have hb := hsame b
      rcases hlook b st hst with ⟨-, hstep⟩ | ⟨hno, -⟩
      · rw [HealthManager.run_cons, HealthManager.run_nil, HealthManager.get?_step, hst,
          Option.map_some, hstep, BackendHealth.look_of_over hu (not_lt.2 hle)] at hb
        have := congrArg BackendHealth.ejectedUntil (Option.some.inj hb)
        rw [hu] at this
        simp at this
      · exact hno hlooks
    · intro hnone b
      rw [HealthManager.run_cons, HealthManager.run_nil, HealthManager.get?_step]
      cases hst : m.backendHealth.get? b with
      | none => rfl
      | some st =>
        rw [Option.map_some]
        rcases hlook b st hst with ⟨hlooks, hstep⟩ | ⟨-, hstep⟩ <;> rw [hstep]
        rcases st.look_cases t with heq | ⟨till, hu, hle, -⟩
        · rw [heq]
        · exact absurd ⟨b, st, till, hst, hu, hle, hlooks⟩ hnone
  · refine iff_of_true (fun b => by rw [hnil]; rfl) ?_
    rintro ⟨b, -, -, -, -, -, hlooks⟩
    exact hnone b hlooks

end

/-! ## Arrivals -/

section
variable {P : Setup} {m : HealthManager} {t id : ℕ} {e : Event} {old : Option Task} {new : Task}
  {os : List (ℕ × Obs)}

/-- Entries without an arrival. -/
theorem atEach_of_no_arrival {os : List (ℕ × Obs)} {Q : List (ℕ × Obs) → ℕ → Request → Prop}
    (h : ∀ o ∈ os, ∀ id req, o.2 ≠ .arrived id req) :
    AtEach (fun l o => ∀ id req, o.2 = .arrived id req → Q l id req) os :=
  fun _ o _ heq id req ho => absurd ho (h o (by simp [heq]) id req)

/-- A request arrives with its first entry. -/
theorem Trans.arrived (ht : Trans P m t id e old os new) : AtEach (fun l o => ∀ id' req,
    o.2 = .arrived id' req → l = [] ∧ id' = id ∧ e = .arrive id req ∧ old = none) os := by
  have hhead : ∀ {job attempted n body os new m}, Head P m t id job attempted n body os new →
      ∀ o ∈ os, ∀ id req, o.2 ≠ .arrived id req := by
    intro job attempted n body os new m hh
    cases hh <;> simp [lookEntry]
  cases ht with
  | answered _ hl _ => rcases hl with rfl | rfl <;> simp
  | bufferedRetry hh => exact atEach_of_no_arrival (hhead hh)
  | again _ _ _ _ hh =>
    exact atEach_of_no_arrival (List.forall_mem_cons.2 ⟨by simp [outcomeEntry],
      List.forall_mem_cons.2 ⟨by simp, hhead hh⟩⟩)
  | woken _ hh => exact atEach_of_no_arrival (hhead hh)
  | _ => simp [lookEntry, outcomeEntry]

end

/-- In the execution of `es`, the request `req` arrives at `t` as `id`, after `log` was written. -/
def ArrivesIn (P : Setup) (es : List (ℕ × Event)) (log : List (ℕ × Obs)) (t id : ℕ)
    (req : Request) : Prop :=
  ∃ es₁ es₂ s₁ s₂ os new, es = es₁ ++ (t, .arrive id req) :: es₂ ∧
    exec (step P) P.initial es₁ = some s₁ ∧ s₁.log = log ∧
    step P s₁ (t, .arrive id req) = some s₂ ∧ s₂.log = log ++ os ∧
    s₂.health = s₁.health.run (healthHistory os) ∧
    Trans P s₁.health t id (.arrive id req) none os new

theorem ArrivesIn.concat {P : Setup} {es : List (ℕ × Event)} {log : List (ℕ × Obs)} {t id : ℕ}
    {req : Request} (h : ArrivesIn P es log t id req) (e : ℕ × Event) :
    ArrivesIn P (es ++ [e]) log t id req := by
  obtain ⟨es₁, es₂, s₁, s₂, os, new, rfl, hmore⟩ := h
  exact ⟨es₁, es₂ ++ [e], s₁, s₂, os, new, by simp, hmore⟩

/-- An arrival in the log is the step of the request that arrives. -/
theorem arrivesIn_of_exec {P : Setup} {es : List (ℕ × Event)} {s : Sys}
    (h : exec (step P) P.initial es = some s) : ∀ log₁ log₂ t id req,
      s.log = log₁ ++ (t, .arrived id req) :: log₂ → ArrivesIn P es log₁ t id req := by
  refine exec_rule (I := fun es s => ∀ log₁ log₂ t id req,
      s.log = log₁ ++ (t, .arrived id req) :: log₂ → ArrivesIn P es log₁ t id req) ?_ ?_ h
  · intro log₁ log₂ t id req hlog
    simp [Setup.initial] at hlog
  · intro es s e s' hes ih hs log₁ log₂ t id req hlog
    have hwritten : ∀ os, s'.log = s.log ++ os →
        (∃ rest, s.log = log₁ ++ (t, .arrived id req) :: rest) ∨
        ∃ p, log₁ = s.log ++ p ∧ os = p ++ (t, .arrived id req) :: log₂ := by
      intro os hlog'
      rw [hlog', List.append_eq_append_iff] at hlog
      rcases hlog with ⟨p, rfl, hp⟩ | ⟨p, hp, hrest⟩
      · exact Or.inr ⟨p, rfl, hp⟩
      · cases p with
        | nil => exact Or.inr ⟨[], by simpa using hp.symm, by simpa using hrest.symm⟩
        | cons a p =>
          obtain ⟨rfl, -⟩ := List.cons.inj hrest
          exact Or.inl ⟨p, hp⟩
    obtain ⟨ht, ⟨c, hc⟩ | ⟨id', os, new, hk⟩⟩ := step_cases hs
    · rcases hwritten _ hc.log with ⟨rest, hrest⟩ | ⟨p, -, hp⟩
      · exact (ih log₁ rest t id req hrest).concat e
      · cases p with
        | nil => simp at hp
        | cons a p => simp at hp
    · rcases hwritten os hk.log with ⟨rest, hrest⟩ | ⟨p, rfl, rfl⟩
      · exact (ih log₁ rest t id req hrest).concat e
      · -- the step writes the arrival, with the first of its entries
        obtain ⟨rfl, rfl, he, hnone⟩ := hk.trans.arrived p _ log₂ rfl id req rfl
        obtain ⟨t', e⟩ := e
        obtain rfl : e = .arrive id req := he
        have htrans := hk.trans
        rw [hnone] at htrans
        have hinstant : t = t' := htrans.instant (t, .arrived id req) (by simp)
        subst hinstant
        exact ⟨es, [], s, s', _, new, rfl, hes, by simp, hs, by simpa using hk.log, hk.health,
          htrans⟩

/-- A request arrives once. -/
theorem Setup.Reachable.arrival_unique {P : Setup} {s : Sys} (h : P.Reachable s) {id t u : ℕ}
    {req req' : Request} {l₁ l₂ m₁ m₂ : List (ℕ × Obs)}
    (hl : s.log = l₁ ++ (t, .arrived id req) :: l₂)
    (hm : s.log = m₁ ++ (u, .arrived id req') :: m₂) : l₁ = m₁ ∧ t = u ∧ req = req' := by
  -- no entry of the request comes before an arrival
  have hfirst : ∀ {k₁ k₂ : List (ℕ × Obs)} {v r}, s.log = k₁ ++ (v, .arrived id r) :: k₂ →
      entriesOf id k₁ = [] := by
    intro k₁ k₂ v r hk
    have hmem : (v, Obs.arrived id r) ∈ s.log := by simp [hk]
    obtain ⟨task, -, hc⟩ := h.course hmem
    obtain ⟨rest, hrest, hno⟩ := hc.arrived
    have hcons : entriesOf id ((v, Obs.arrived id r) :: k₂) =
        (v, Obs.arrived id r) :: entriesOf id k₂ := List.filter_cons_of_pos (by simp [Obs.id?])
    rw [hk, entriesOf_append, hcons] at hrest
    cases hk₁ : entriesOf id k₁ with
    | nil => rfl
    | cons a k =>
      rw [hk₁] at hrest
      obtain ⟨-, hrest⟩ := List.cons.inj hrest
      exact absurd rfl (hno (v, .arrived id r) (by simp [← hrest]) r)
  have hshort : ∀ {k₁ k₂ n₁ n₂ : List (ℕ × Obs)} {v w r r'},
      s.log = k₁ ++ (v, .arrived id r) :: k₂ → s.log = n₁ ++ (w, .arrived id r') :: n₂ →
      ¬ k₁.length < n₁.length := by
    intro k₁ k₂ n₁ n₂ v w r r' hk hn hlt
    obtain ⟨rest, rfl⟩ := concat_isPrefix_of_lt hk hn hlt
    have hmem : (v, Obs.arrived id r) ∈ entriesOf id (k₁ ++ [(v, .arrived id r)] ++ rest) :=
      mem_entriesOf (by simp) rfl
    rw [hfirst hn] at hmem
    cases hmem
  have hlen : l₁.length = m₁.length := by
    have := hshort hl hm
    have := hshort hm hl
    omega
  obtain ⟨rfl, hcons⟩ := List.append_inj (hl.symm.trans hm) hlen
  simp only [List.cons.injEq, Prod.mk.injEq, Obs.arrived.injEq, true_and] at hcons
  exact ⟨rfl, hcons.1⟩

/-! ## The health state without a request -/

/-- The log without the entries of the request `id`. -/
def without (id : ℕ) (log : List (ℕ × Obs)) : List (ℕ × Obs) :=
  log.filter fun e => e.2.id? ≠ some id

theorem without_append (id : ℕ) (log os : List (ℕ × Obs)) :
    without id (log ++ os) = without id log ++ without id os := List.filter_append ..

theorem without_own {id : ℕ} {os : List (ℕ × Obs)} (h : ∀ o ∈ os, o.2.id? = some id) :
    without id os = [] := by
  unfold without
  rw [List.filter_eq_nil_iff]
  exact fun o ho => by simp [h o ho]

theorem without_other {id : ℕ} {os : List (ℕ × Obs)} (h : ∀ o ∈ os, o.2.id? ≠ some id) :
    without id os = os := by
  unfold without
  rw [List.filter_eq_self]
  exact fun o ho => decide_eq_true (h o ho)

/-- Every backend is in the state that the calls of all others lead to. -/
def Unaffected (P : Setup) (id : ℕ) (s : Sys) : Prop :=
  ∀ b, s.health.backendHealth.get? b =
    (P.initial.health.run (healthHistory (without id s.log))).backendHealth.get? b

/-- A history goes on from what another one has made of a backend. -/
theorem HealthManager.get?_run_run (m : HealthManager) (h h' : History) (b : String) :
    ((m.run h).run h').backendHealth.get? b =
      ((m.run h).backendHealth.get? b).map (m.runOne b · h') := by
  rw [get?_run, (m.run_same h).runOne]

section
variable {P : Setup} {id : ℕ} {s s' : Sys} {os : List (ℕ × Obs)}

/-- The others go on. -/
theorem Unaffected.others (h : Unaffected P id s) (hr : Replays P s)
    (hos : ∀ o ∈ os, o.2.id? ≠ some id) (hlog : s'.log = s.log ++ os)
    (hhealth : s'.health = s.health.run (healthHistory os)) : Unaffected P id s' := by
  intro b
  have hb := h b
  rw [hr.health] at hb
  rw [hhealth, hlog, without_append, without_other hos, healthHistory_append,
    HealthManager.run_append, hr.health, HealthManager.get?_run_run, HealthManager.get?_run_run, hb]

/-- The request goes on without changing the state of a backend. -/
theorem Unaffected.own (h : Unaffected P id s) (hos : ∀ o ∈ os, o.2.id? = some id)
    (hlog : s'.log = s.log ++ os)
    (hsame : ∀ b, s'.health.backendHealth.get? b = s.health.backendHealth.get? b) :
    Unaffected P id s' := by
  intro b
  rw [hsame, h b, hlog, without_append, without_own hos, List.append_nil]

end

end FerrumProxy
