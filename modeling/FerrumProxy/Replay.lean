/-
  The log of a run determines the health state.

  Replaying the health calls of the log from the fresh manager gives the manager
  of the current state, and the entries of the log are in the order of time
  (`Reachable.replays`).  Hence the results about histories of the manager apply
  to every reachable state of the proxy: what `select_backend` chooses is never
  inside an ejection window (`Reachable.chosen`).
-/
import FerrumProxy.Eligibility
import FerrumProxy.Transitions
import FerrumProxy.Lib.Logs

namespace FerrumProxy

open Lib Sys

/-! ## Entries of a transition -/

section
variable {P : Setup} {m : HealthManager} {t id : ℕ} {e : Event} {old : Option Task}
  {os : List (ℕ × Obs)} {new : Task}

theorem Head.instant {job : Job} {attempted : List String} {n : ℕ} {body : Bytes}
    (h : Head P m t id job attempted n body os new) : ∀ o ∈ os, o.1 = t := by
  cases h <;> simp [lookEntry]

/-- All entries of a transition are written at its instant. -/
theorem Trans.instant (h : Trans P m t id e old os new) : ∀ o ∈ os, o.1 = t := by
  cases h with
  | answered _ hl => rcases hl with rfl | rfl <;> simp
  | bufferedRetry hh => exact hh.instant
  | again _ _ _ _ hh =>
    intro o ho
    rcases List.mem_cons.1 ho with rfl | ho
    · rfl
    rcases List.mem_cons.1 ho with rfl | ho
    · rfl
    · exact hh.instant o ho
  | woken _ hh => exact hh.instant
  | _ => simp [lookEntry, outcomeEntry]

theorem mem_candidatesAt {route : RouteConfig} {attempted : List String} {b : String}
    (h : b ∈ candidatesAt m t route attempted) : b ∈ route.backends ∧ b ∉ attempted := by
  unfold candidatesAt at h
  rw [HealthManager.healthyBackends_eq] at h
  obtain ⟨hb, ha⟩ := List.mem_filter.1 h
  exact ⟨(List.mem_filter.1 hb).1, by simpa using ha⟩

/-- A choice of a transition: it follows a look at the route, and the backend is a candidate after
    the calls made so far. -/
def Choice (m : HealthManager) (t id : ℕ) (os : List (ℕ × Obs)) (o : ℕ × Obs) : Prop :=
  ∀ id' b, o.2 = .selected id' b → id' = id ∧ ∃ os₁ route attempted,
    os = os₁ ++ [lookEntry t id route] ∧
      b ∈ candidatesAt (m.run (healthHistory os₁)) t route attempted

/-- An attempt of a transition: it follows the choice of its backend, or it ends a pre-buffered
    upload. -/
def Attempt (t id : ℕ) (old : Option Task) (os : List (ℕ × Obs)) (o : ℕ × Obs) : Prop :=
  ∀ id' b d upstream elapsed, o.2 = .attempt id' b d upstream elapsed → id' = id ∧
    ((∃ os₁, os = os₁ ++ [(t, .selected id b)]) ∨
      ∃ body job, d = .prebuffer body ∧ old = some (.buffering job (some b) body))

theorem Head.choices {job : Job} {attempted : List String} {n : ℕ} {body : Bytes}
    (h : Head P m t id job attempted n body os new) : AtEach (Choice m t id) os := by
  cases h with
  | late _ => simp [Choice]
  | exhausted _ _ => simp [Choice, lookEntry]
  | attempt _ hb =>
    refine atEach_cons.2 ⟨by simp [Choice, lookEntry], atEach_cons.2 ⟨?_, by simp [Choice]⟩⟩
    rintro id' b ⟨⟩
    exact ⟨rfl, [], job.route, attempted, rfl, hb⟩

theorem Head.attempts {job : Job} {attempted : List String} {n : ℕ} {body : Bytes}
    (h : Head P m t id job attempted n body os new) (old : Option Task) :
    AtEach (Attempt t id old) os := by
  cases h with
  | late _ => simp [Attempt]
  | exhausted _ _ => simp [Attempt, lookEntry]
  | attempt _ hb =>
    simp only [atEach_cons, atEach_nil, and_true]
    refine ⟨by simp [Attempt, lookEntry], by simp [Attempt], ?_⟩
    rintro id' b d upstream elapsed ⟨⟩
    exact ⟨rfl, Or.inl ⟨[_], rfl⟩⟩

/-- Every choice of a transition is a candidate at its instant. -/
theorem Trans.choices (h : Trans P m t id e old os new) : AtEach (Choice m t id) os := by
  cases h with
  | answered _ hl => rcases hl with rfl | rfl <;> simp [Choice]
  | startPrebuffer _ _ _ hb =>
    simp only [atEach_cons, atEach_nil, and_true]
    refine ⟨by simp [Choice], by simp [Choice, lookEntry], ?_⟩
    rintro id' b ⟨⟩
    exact ⟨rfl, [_], _, _, rfl, hb⟩
  | noPermitChosen _ _ _ hb | startStream _ _ _ hb =>
    simp only [atEach_cons, atEach_nil, and_true]
    refine ⟨by simp [Choice], by simp [Choice, lookEntry], ?_, by simp [Choice]⟩
    rintro id' b ⟨⟩
    exact ⟨rfl, [_], _, _, rfl, hb⟩
  | bufferedRetry hh => exact hh.choices
  | again _ _ _ _ hh =>
    simp only [atEach_cons]
    refine ⟨by simp [Choice, outcomeEntry], by simp [Choice], hh.choices.imp ?_⟩
    rintro os₁ o - ho id' b hob
    obtain ⟨hid, os₂, route, attempted', rfl, hb⟩ := ho id' b hob
    exact ⟨hid, _ :: _ :: os₂, route, attempted', rfl, hb⟩
  | woken _ hh => exact hh.choices
  | _ => simp [Choice, lookEntry, outcomeEntry]

/-- Every attempt of a transition follows the choice of its backend or ends an upload. -/
theorem Trans.attempts (h : Trans P m t id e old os new) : AtEach (Attempt t id old) os := by
  cases h with
  | answered _ hl => rcases hl with rfl | rfl <;> simp [Attempt]
  | startStream _ _ _ hb =>
    simp only [atEach_cons, atEach_nil, and_true]
    refine ⟨by simp [Attempt], by simp [Attempt, lookEntry], by simp [Attempt], ?_⟩
    rintro id' b d upstream elapsed ⟨⟩
    exact ⟨rfl, Or.inl ⟨[_, _], rfl⟩⟩
  | bufferedRetry hh => exact hh.attempts _
  | bufferedPrebuffer =>
    simp only [atEach_cons, atEach_nil, and_true]
    rintro id' b d upstream elapsed ⟨⟩
    exact ⟨rfl, Or.inr ⟨_, _, rfl, rfl⟩⟩
  | again _ _ _ _ hh =>
    simp only [atEach_cons]
    refine ⟨by simp [Attempt, outcomeEntry], by simp [Attempt], (hh.attempts none).imp ?_⟩
    rintro os₁ o - ho id' b d upstream elapsed hob
    obtain ⟨hid, ⟨os₂, rfl⟩ | hbuf⟩ := ho id' b d upstream elapsed hob
    · exact ⟨hid, Or.inl ⟨_ :: _ :: os₂, rfl⟩⟩
    · obtain ⟨_, _, _, hnone⟩ := hbuf
      simp at hnone
  | woken _ hh => exact hh.attempts _
  | _ => simp [Attempt, lookEntry, outcomeEntry]

end

/-! ## The growing log -/

/-- A step adds entries of its instant to the log. -/
theorem step_log {P : Setup} {s s' : Sys} {e : ℕ × Event} (h : step P s e = some s') :
    ∃ os, s'.log = s.log ++ os ∧ (∀ o ∈ os, o.1 = e.1) ∧ s'.now = e.1 := by
  obtain ⟨-, ⟨c, hc⟩ | ⟨id, os, new, hk⟩⟩ := step_cases h
  · exact ⟨_, hc.log, by simp, hc.now⟩
  · exact ⟨os, hk.log, hk.trans.instant, hk.now⟩

/-- The log only grows. -/
theorem log_grows {P : Setup} {ok : Sys → ℕ × Event → Prop} {s s' : Sys}
    (h : Runs (step P) ok s s') : ∃ os, s'.log = s.log ++ os := by
  refine Runs.invariant (I := fun s' : Sys => ∃ os, s'.log = s.log ++ os) h ⟨[], by simp⟩ ?_
  rintro s₁ e s₂ ⟨os, hlog⟩ - hs
  obtain ⟨os', hlog', -, -⟩ := step_log hs
  exact ⟨os ++ os', by rw [hlog', hlog, List.append_assoc]⟩

/-! ## Replaying -/

/-- The state `s` agrees with its log. -/
structure Replays (P : Setup) (s : Sys) : Prop where
  health : s.health = P.initial.health.run (healthHistory s.log)
  ordered : s.log.Pairwise (·.1 ≤ ·.1)
  past : ∀ e ∈ s.log, e.1 ≤ s.now

theorem ordered_append {log os : List (ℕ × Obs)} {now t : ℕ} (ho : log.Pairwise (·.1 ≤ ·.1))
    (hp : ∀ e ∈ log, e.1 ≤ now) (ht : now ≤ t) (hos : ∀ e ∈ os, e.1 = t) :
    (log ++ os).Pairwise (·.1 ≤ ·.1) ∧ ∀ e ∈ log ++ os, e.1 ≤ t := by
  constructor
  · refine List.pairwise_append.2 ⟨ho, ?_, fun e he e' he' => ?_⟩
    · exact List.pairwise_of_forall_mem_list fun e he e' he' => by rw [hos e he, hos e' he']
    · rw [hos e' he']; exact (hp e he).trans ht
  · intro e he
    rcases List.mem_append.1 he with he | he
    · exact (hp e he).trans ht
    · exact (hos e he).le

theorem Replays.step {P : Setup} {s s' : Sys} {e : ℕ × Event} (h : Replays P s)
    (hs : Sys.step P s e = some s') : Replays P s' := by
  obtain ⟨ht, ⟨c, hc⟩ | ⟨id, os, new, hk⟩⟩ := step_cases hs
  · have hone : ∀ e' ∈ [(e.1, Obs.health .check c)], e'.1 = e.1 := by simp
    obtain ⟨ho, hp⟩ := ordered_append h.ordered h.past ht hone
    refine ⟨?_, by rwa [hc.log], by rwa [hc.log, hc.now]⟩
    rw [hc.health, hc.log, healthHistory_append, HealthManager.run_append, ← h.health]
    rfl
  · obtain ⟨ho, hp⟩ := ordered_append h.ordered h.past ht hk.trans.instant
    refine ⟨?_, by rwa [hk.log], by rwa [hk.log, hk.now]⟩
    rw [hk.health, hk.log, healthHistory_append, HealthManager.run_append, ← h.health]

/-- **Replay.** Every reachable state agrees with its log. -/
theorem Setup.Reachable.replays {P : Setup} {s : Sys} (h : P.Reachable s) : Replays P s :=
  Runs.invariant h ⟨rfl, List.Pairwise.nil, by simp [Setup.initial]⟩
    fun _ _ _ hI _ hs => hI.step hs

theorem Setup.fresh (P : Setup) : P.initial.health.Fresh P.config.routes := rfl

theorem chronological_healthHistory {log : List (ℕ × Obs)} (h : log.Pairwise (·.1 ≤ ·.1)) :
    HealthManager.Chronological (healthHistory log) := by
  unfold HealthManager.Chronological healthHistory
  rw [List.pairwise_filterMap]
  refine h.imp fun {a a'} hle b hb b' hb' => ?_
  revert hb hb'
  split <;> split <;> simp
  rintro rfl rfl
  exact hle

theorem healthHistory_past {log : List (ℕ × Obs)} {t : ℕ} (h : ∀ e ∈ log, e.1 ≤ t) :
    ∀ e ∈ healthHistory log, e.1 ≤ t := by
  intro e he
  obtain ⟨a, ha, hae⟩ := List.mem_filterMap.1 he
  revert hae
  split
  · rintro ⟨⟩; exact h a ha
  · simp

/-! ## Ejection windows -/

/-- By the calls in `log`, the backend `b` is inside an ejection window at `t`. -/
def InWindow (P : Setup) (log : List (ℕ × Obs)) (b : String) (t : ℕ) : Prop :=
  Covered P.initial.health.ejectionDuration (P.initial.health.ejections b (healthHistory log)) t

instance (P : Setup) (log : List (ℕ × Obs)) (b : String) (t : ℕ) : Decidable (InWindow P log b t) :=
  inferInstanceAs (Decidable (Covered _ _ _))

/-- The health state of a backend of the configuration, read as its windows. -/
theorem eligible_iff_not_inWindow {P : Setup} {log : List (ℕ × Obs)} {t : ℕ} {route : RouteConfig}
    {b : String} (ho : log.Pairwise (·.1 ≤ ·.1)) (hp : ∀ e ∈ log, e.1 ≤ t)
    (hr : route ∈ P.config.routes) (hb : b ∈ route.backends) :
    ((P.initial.health.run (healthHistory log)).backendHealth.get? b).any (·.eligible t) ↔
      ¬ InWindow P log b t := by
  obtain ⟨st, hst⟩ := Option.isSome_iff_exists.1
    ((P.fresh.isSome_iff (healthHistory log) b).2 ⟨route, hr, hb⟩)
  rw [hst, Option.any_some]
  exact P.fresh.eligible_iff (chronological_healthHistory ho) (healthHistory_past hp) hst

/-- What `select_backend` chooses from is outside every ejection window. -/
theorem not_inWindow_of_candidate {P : Setup} {log : List (ℕ × Obs)} {t : ℕ} {route : RouteConfig}
    {attempted : List String} {b : String} (ho : log.Pairwise (·.1 ≤ ·.1))
    (hp : ∀ e ∈ log, e.1 ≤ t)
    (hb : b ∈ candidatesAt (P.initial.health.run (healthHistory log)) t route attempted) :
    ¬ InWindow P log b t := by
  unfold candidatesAt at hb
  rw [HealthManager.healthyBackends_eq] at hb
  have hany := (List.mem_filter.1 (List.mem_filter.1 hb).1).2
  cases hst : (P.initial.health.run (healthHistory log)).backendHealth.get? b with
  | none => simp [hst] at hany
  | some st =>
    rw [hst, Option.any_some] at hany
    exact (P.fresh.eligible_iff (chronological_healthHistory ho) (healthHistory_past hp) hst).1 hany

/-! ## Windows in a growing log -/

/-- Only `record_failure` ejects. -/
theorem HealthManager.ejections_eq_nil {b : String} {h : History}
    (hb : ∀ e ∈ h, e.2 ≠ .recordFailure b) (m : HealthManager) : m.ejections b h = [] := by
  induction h generalizing m with
  | nil => rfl
  | cons e h ih =>
    rw [ejections, if_neg fun he => hb e (by simp) he.1, ih fun e he => hb e (by simp [he])]
    rfl

section
variable {P : Setup} {log os : List (ℕ × Obs)} {b : String} {t : ℕ}

theorem inWindow_append : InWindow P (log ++ os) b t ↔ InWindow P log b t ∨
    Covered P.initial.health.ejectionDuration
      ((P.initial.health.run (healthHistory log)).ejections b (healthHistory os)) t := by
  unfold InWindow
  rw [healthHistory_append, HealthManager.ejections_append, covered_append]

/-- A look opens no window. -/
theorem inWindow_look {id : ℕ} {route : RouteConfig} :
    InWindow P (log ++ [lookEntry t id route]) b t ↔ InWindow P log b t := by
  rw [inWindow_append, HealthManager.ejections_eq_nil (by simp [lookEntry])]
  simp

end

/-! ## Choices in the log -/

/-- A choice follows a look at a route of the backend, which is outside its windows. -/
def Chosen (P : Setup) (log : List (ℕ × Obs)) (e : ℕ × Obs) : Prop :=
  ∀ id b, e.2 = .selected id b → ¬ InWindow P log b e.1 ∧
    ∃ log₁ route, log = log₁ ++ [lookEntry e.1 id route] ∧ b ∈ route.backends

theorem Trans.chosen {P : Setup} {log os : List (ℕ × Obs)} {t id : ℕ} {e : Event}
    {old : Option Task} {new : Task} (ho : log.Pairwise (·.1 ≤ ·.1)) (hp : ∀ e ∈ log, e.1 ≤ t)
    (h : Trans P (P.initial.health.run (healthHistory log)) t id e old os new) :
    AtEach (fun os₁ => Chosen P (log ++ os₁)) os := by
  rintro os₁ o os₂ hos id' b hob
  have ht : o.1 = t := h.instant o (by simp [hos])
  obtain ⟨rfl, os₀, route, attempted, rfl, hb⟩ := h.choices os₁ o os₂ hos id' b hob
  have hos₀ : ∀ e ∈ os₀, e.1 = t := fun e he => h.instant e (by simp [hos, he])
  obtain ⟨ho', hp'⟩ := ordered_append ho hp le_rfl hos₀
  rw [← HealthManager.run_append, ← healthHistory_append] at hb
  rw [ht, ← List.append_assoc, inWindow_look]
  exact ⟨not_inWindow_of_candidate ho' hp' hb, log ++ os₀, route, rfl, (mem_candidatesAt hb).1⟩

/-- **Selection.** In every reachable state, every choice was made outside the windows of its
    backend, right after a look at a route of it. -/
theorem Setup.Reachable.chosen {P : Setup} {s : Sys} (h : P.Reachable s) :
    AtEach (Chosen P) s.log := by
  refine Runs.invariant₂ (I := fun s : Sys => AtEach (Chosen P) s.log) h atEach_nil
    (fun _ hr => Setup.Reachable.replays hr) fun s e s' hr hI _ hs => ?_
  obtain ⟨ht, ⟨c, hc⟩ | ⟨id, os, new, hk⟩⟩ := step_cases hs
  · rw [hc.log, atEach_append]
    exact ⟨hI, by simp [Chosen]⟩
  · have htr := hk.trans
    rw [hr.health] at htr
    rw [hk.log, atEach_append]
    exact ⟨hI, htr.chosen hr.ordered fun e' he' => (hr.past e' he').trans ht⟩

end FerrumProxy
