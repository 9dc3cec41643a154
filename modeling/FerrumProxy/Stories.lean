/-
  One request at a time.

  A request meets the others only through the health state.  What it does by
  itself is a `Story`: a sequence of its own transitions, each under an arbitrary
  health manager, with the entries it writes.  In any interleaving every request
  lives such a story (`story_of_runs`), so that a result about single stories holds
  for every request of every run.
-/
import FerrumProxy.Replay

namespace FerrumProxy

open Lib Sys

/-! ## The entries of a request -/

/-- The request on whose account an entry is written. -/
def Obs.id? : Obs → Option ℕ
  | .arrived id _ | .selected id _ | .attempt id _ _ _ _ | .pause id _ _ _ | .responded id _ => some id
  | .health (.request id) _ => some id
  | .health .check _ => none

/-- The entries of a request. -/
def entriesOf (id : ℕ) (log : List (ℕ × Obs)) : List (ℕ × Obs) :=
  log.filter fun e => e.2.id? = some id

theorem entriesOf_append (id : ℕ) (log os : List (ℕ × Obs)) :
    entriesOf id (log ++ os) = entriesOf id log ++ entriesOf id os := List.filter_append ..

theorem mem_entriesOf {id : ℕ} {e : ℕ × Obs} {log : List (ℕ × Obs)} (h : e ∈ log)
    (hid : e.2.id? = some id) : e ∈ entriesOf id log :=
  List.mem_filter.2 ⟨h, decide_eq_true hid⟩

theorem entriesOf_own {id : ℕ} {os : List (ℕ × Obs)} (h : ∀ o ∈ os, o.2.id? = some id) :
    entriesOf id os = os := by
  unfold entriesOf
  rw [List.filter_eq_self]
  exact fun o ho => decide_eq_true (h o ho)

theorem entriesOf_other {id id' : ℕ} {os : List (ℕ × Obs)} (h : ∀ o ∈ os, o.2.id? = some id)
    (hne : id' ≠ id) : entriesOf id' os = [] := by
  unfold entriesOf
  rw [List.filter_eq_nil_iff]
  intro o ho
  simpa [h o ho] using hne.symm

section
variable {P : Setup} {m : HealthManager} {t id : ℕ} {e : Event} {old : Option Task}
  {os : List (ℕ × Obs)} {new : Task}

theorem Head.own {job : Job} {attempted : List String} {n : ℕ} {body : Bytes}
    (h : Head P m t id job attempted n body os new) : ∀ o ∈ os, o.2.id? = some id := by
  cases h <;> simp [lookEntry, Obs.id?]

/-- A transition writes entries of its request only. -/
theorem Trans.own (h : Trans P m t id e old os new) : ∀ o ∈ os, o.2.id? = some id := by
  cases h with
  | answered _ hl => rcases hl with rfl | rfl <;> simp [Obs.id?]
  | bufferedRetry hh => exact hh.own
  | again _ _ _ _ hh =>
    exact List.forall_mem_cons.2 ⟨rfl, List.forall_mem_cons.2 ⟨rfl, hh.own⟩⟩
  | woken _ hh => exact hh.own
  | _ => simp [lookEntry, outcomeEntry, Obs.id?]

end

/-! ## Stories -/

/-- What the request `id` can have lived through, with transitions that meet `ok`: where it stands
    and what it has written. -/
inductive Story (P : Setup) (id : ℕ) (ok : Option Task → Event → Prop) :
    Option Task → List (ℕ × Obs) → Prop
  | start : Story P id ok none []
  | next {m : HealthManager} {t : ℕ} {e : Event} {old : Option Task} {log os : List (ℕ × Obs)}
      {new : Task} : Story P id ok old log → (∀ o ∈ log, o.1 ≤ t) → ok old e →
      Trans P m t id e old os new → Story P id ok (some new) (log ++ os)

/-- A request that has not arrived has written nothing. -/
theorem Story.eq_nil {P : Setup} {id : ℕ} {ok : Option Task → Event → Prop} {log : List (ℕ × Obs)}
    (h : Story P id ok none log) : log = [] := by
  cases h
  rfl

/-- Induction over stories: the arrival of the request, and then one transition after the other. -/
theorem Story.rule {P : Setup} {id : ℕ} {ok : Option Task → Event → Prop}
    {I : Task → List (ℕ × Obs) → Prop} {task : Task} {log : List (ℕ × Obs)}
    (h : Story P id ok (some task) log)
    (harrive : ∀ m t e os new, Trans P m t id e none os new → I new os)
    (hnext : ∀ m t e old log os new, Story P id ok (some old) log → I old log → ok (some old) e →
      Trans P m t id e (some old) os new → I new (log ++ os)) : I task log := by
  generalize hnow : some task = now at h
  induction h generalizing task with
  | start => simp at hnow
  | @next m t e old log os new hstory _ hok ht ih =>
    obtain rfl := Option.some.inj hnow
    cases old with
    | none =>
      rw [hstory.eq_nil, List.nil_append]
      exact harrive m t e os task ht
    | some old => exact hnext m t e old log os task hstory (ih rfl) hok ht

/-- **Stories.** In every run, every request lives a story. -/
theorem story_of_runs {P : Setup} {guard : Sys → ℕ × Event → Prop} {s : Sys} (id : ℕ)
    (ok : Option Task → Event → Prop) (h : Runs (step P) guard P.initial s)
    (hok : ∀ s e, guard s e → ok (s.tasks.get? id) e.2) :
    Story P id ok (s.tasks.get? id) (entriesOf id s.log) := by
  have hr : ∀ s, Runs (step P) guard P.initial s → Replays P s := fun s hs =>
    Setup.Reachable.replays (hs.mono fun _ _ _ => trivial)
  refine Runs.invariant₂ (I := fun s : Sys => Story P id ok (s.tasks.get? id) (entriesOf id s.log))
    h .start hr fun s e s' hr hI hg hs => ?_
  obtain ⟨ht, ⟨c, hc⟩ | ⟨id', os, new, hk⟩⟩ := step_cases hs
  · rw [hc.tasks, hc.log, entriesOf_append]
    simpa [entriesOf, Obs.id?] using hI
  · rw [hk.tasks, hk.log, entriesOf_append]
    by_cases hid : id = id'
    · subst hid
      rw [Table.get?_insert_self, entriesOf_own hk.trans.own]
      refine .next hI (fun o ho => ?_) (hok s e hg) hk.trans
      exact (hr.past o (List.mem_of_mem_filter ho)).trans ht
    · rw [Table.get?_insert_ne _ _ hid, entriesOf_other hk.trans.own hid, List.append_nil]
      exact hI

/-- The story of a request up to a reachable state. -/
theorem Setup.Reachable.story {P : Setup} {s : Sys} (h : P.Reachable s) (id : ℕ) :
    Story P id (fun _ _ => True) (s.tasks.get? id) (entriesOf id s.log) :=
  story_of_runs id _ h fun _ _ _ => trivial

end FerrumProxy
