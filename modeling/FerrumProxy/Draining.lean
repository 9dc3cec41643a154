/-
  Draining on shutdown (`ConnectionTracker` in `src/server/mod.rs`).

  The accept loop and the connection tasks share the counter `active` and the
  `Notify` `drained` with the shutdown task, which runs `wait_for_zero`.  A step is
  one access to the shared state.  Of tokio's `Notify` this is assumed:
  `notify_waiters` wakes the `Notified` futures that have been created before, and
  stores nothing for later ones.

  A wake-up is lost when the last `close` notifies after the shutdown task has read
  the counter and before it has created its future (`LosesWakeup`).  In all other
  orders the shutdown task is woken (`Waited`).
-/
import FerrumProxy.Lib.Runs
import FerrumProxy.Lib.Table

namespace FerrumProxy

open Lib

namespace Draining

/-! ## Steps -/

/-- A connection task. -/
inductive Conn where
  /-- it has not called `close` -/
  | opened
  /-- in `close`, after the decrement from 1 and before `notify_waiters` -/
  | notifying
  | closed
deriving DecidableEq, Repr

/-- The task of `run_with_shutdown_kind`. -/
inductive Waiter where
  /-- in the accept loop, before the shutdown signal -/
  | serving
  /-- at `if self.active() == 0` of `wait_for_zero` -/
  | checking
  /-- at `while self.active() != 0` -/
  | looping
  /-- `active` was not zero; `self.drained.notified()` is not called yet -/
  | registering
  /-- the future is created; it may have been notified -/
  | created (notified : Bool)
  /-- the future has been polled and is pending; it may have been notified since -/
  | parked (notified : Bool)
  /-- `wait_for_zero` has returned -/
  | returned (drained : Bool)
deriving DecidableEq, Repr

/-- `ConnectionTracker` with the tasks that use it. -/
structure Tracker where
  active : ℕ
  conns : Table ℕ Conn
  waiter : Waiter

/-- `ConnectionTracker::default`, before the first connection. -/
def Tracker.initial : Tracker := ⟨0, .empty, .serving⟩

/-- The accesses to the shared state. -/
inductive Event where
  /-- a connection is accepted: `open` -/
  | accept (id : ℕ)
  /-- the shutdown signal arrives -/
  | shutdown
  /-- `fetch_sub` of `close` -/
  | decrement (id : ℕ)
  /-- `notify_waiters` of `close` -/
  | notify (id : ℕ)
  /-- the first check of `wait_for_zero` -/
  | check
  /-- the condition of the loop -/
  | read
  /-- `notified()` -/
  | create
  /-- the first poll of the future -/
  | poll
  /-- the pending future is woken -/
  | wake
  /-- the timeout of `wait_for_zero` -/
  | elapse
deriving DecidableEq, Repr

/-- `notify_waiters`: the future of the shutdown task, if it is created. -/
def Waiter.notify : Waiter → Waiter
  | .created _ => .created true
  | .parked _ => .parked true
  | w => w

/-- One access; `none` when it cannot happen. -/
def step (s : Tracker) : Event → Option Tracker
  | .accept id =>
    -- the accept loop ends with the shutdown signal
    if s.waiter = .serving ∧ s.conns.get? id = none then
      some { s with active := s.active + 1, conns := s.conns.insert id .opened }
    else none
  | .shutdown => if s.waiter = .serving then some { s with waiter := .checking } else none
  | .decrement id =>
    if s.conns.get? id = some .opened then
      some { s with
        active := s.active - 1
        conns := s.conns.insert id (if s.active = 1 then .notifying else .closed) }
    else none
  | .notify id =>
    if s.conns.get? id = some .notifying then
      some { s with conns := s.conns.insert id .closed, waiter := s.waiter.notify }
    else none
  | .check =>
    if s.waiter = .checking then
      some { s with waiter := if s.active = 0 then .returned true else .looping }
    else none
  | .read =>
    if s.waiter = .looping then
      some { s with waiter := if s.active = 0 then .returned true else .registering }
    else none
  | .create =>
    if s.waiter = .registering then some { s with waiter := .created false } else none
  | .poll =>
    if s.waiter = .created true then some { s with waiter := .looping }
    else if s.waiter = .created false then some { s with waiter := .parked false }
    else none
  | .wake => if s.waiter = .parked true then some { s with waiter := .looping } else none
  | .elapse =>
    if s.waiter = .parked false then some { s with waiter := .returned false } else none

/-- The states that can be reached, in any order of the accesses. -/
def Reachable (s : Tracker) : Prop := Runs step (fun _ _ => True) .initial s

/-! ## What a step can do -/

/-- The moves of the shutdown task, by the value of `active`. -/
inductive Moves (active : ℕ) : Waiter → Waiter → Prop
  | signalled : Moves active .serving .checking
  | empty : active = 0 → Moves active .checking (.returned true)
  | busy : active ≠ 0 → Moves active .checking .looping
  | drained : active = 0 → Moves active .looping (.returned true)
  | waits : active ≠ 0 → Moves active .looping .registering
  | creates : Moves active .registering (.created false)
  | ready : Moves active (.created true) .looping
  | parks : Moves active (.created false) (.parked false)
  | woken : Moves active (.parked true) .looping
  | elapsed : Moves active (.parked false) (.returned false)

/-- **What a step can do.** -/
theorem step_cases {s s' : Tracker} {e : Event} (hs : step s e = some s') :
    (∃ id, e = .accept id ∧ s.waiter = .serving ∧ s.conns.get? id = none ∧
      s' = { s with active := s.active + 1, conns := s.conns.insert id .opened }) ∨
    (∃ id, e = .decrement id ∧ s.conns.get? id = some .opened ∧
      s' = { s with
        active := s.active - 1
        conns := s.conns.insert id (if s.active = 1 then .notifying else .closed) }) ∨
    (∃ id, e = .notify id ∧ s.conns.get? id = some .notifying ∧
      s' = { s with conns := s.conns.insert id .closed, waiter := s.waiter.notify }) ∨
    ∃ w, Moves s.active s.waiter w ∧ s' = { s with waiter := w } := by
  have hmove : ∀ {w : Waiter}, some { s with waiter := w } = some s' → Moves s.active s.waiter w →
      ∃ w, Moves s.active s.waiter w ∧ s' = { s with waiter := w } :=
    fun he hm => ⟨_, hm, (Option.some.inj he).symm⟩
  cases e with
  | accept id =>
    obtain ⟨⟨hw, hnone⟩, he⟩ := Option.ite_none_right_eq_some.1 hs
    exact Or.inl ⟨id, rfl, hw, hnone, (Option.some.inj he).symm⟩
  | decrement id =>
    obtain ⟨hold, he⟩ := Option.ite_none_right_eq_some.1 hs
    exact Or.inr (Or.inl ⟨id, rfl, hold, (Option.some.inj he).symm⟩)
  | notify id =>
    obtain ⟨hold, he⟩ := Option.ite_none_right_eq_some.1 hs
    exact Or.inr (Or.inr (Or.inl ⟨id, rfl, hold, (Option.some.inj he).symm⟩))
  | shutdown =>
    obtain ⟨hw, he⟩ := Option.ite_none_right_eq_some.1 hs
    exact Or.inr (Or.inr (Or.inr (hmove he (hw ▸ .signalled))))
  | check =>
    obtain ⟨hw, he⟩ := Option.ite_none_right_eq_some.1 hs
    refine Or.inr (Or.inr (Or.inr (hmove he ?_)))
    rw [hw]
    split_ifs with h0
    · exact .empty h0
    · exact .busy h0
  | read =>
    obtain ⟨hw, he⟩ := Option.ite_none_right_eq_some.1 hs
    refine Or.inr (Or.inr (Or.inr (hmove he ?_)))
    rw [hw]
    split_ifs with h0
    · exact .drained h0
    · exact .waits h0
  | create =>
    obtain ⟨hw, he⟩ := Option.ite_none_right_eq_some.1 hs
    exact Or.inr (Or.inr (Or.inr (hmove he (hw ▸ .creates))))
  | poll =>
    unfold step at hs
    dsimp only at hs
    split_ifs at hs with hw hw'
    · exact Or.inr (Or.inr (Or.inr (hmove hs (hw ▸ .ready))))
    · exact Or.inr (Or.inr (Or.inr (hmove hs (hw' ▸ .parks))))
  | wake =>
    obtain ⟨hw, he⟩ := Option.ite_none_right_eq_some.1 hs
    exact Or.inr (Or.inr (Or.inr (hmove he (hw ▸ .woken))))
  | elapse =>
    obtain ⟨hw, he⟩ := Option.ite_none_right_eq_some.1 hs
    exact Or.inr (Or.inr (Or.inr (hmove he (hw ▸ .elapsed))))

/-! ## The counter -/

/-- `active` counts the connections that have not called `close`, so that `fetch_sub` never
    wraps. -/
def Counts (s : Tracker) : Prop := s.active = s.conns.count (· = .opened)

theorem counts_step {s s' : Tracker} {e : Event} (h : Counts s) (hs : step s e = some s') :
    Counts s' := by
  unfold Counts at h ⊢
  rcases step_cases hs with ⟨id, -, -, hnone, rfl⟩ | ⟨id, -, hold, rfl⟩ | ⟨id, -, hold, rfl⟩ |
    ⟨w, -, rfl⟩
  · have hcount := s.conns.count_insert id .opened (· = .opened)
    rw [hnone] at hcount
    simp only [Table.ind_none, Table.ind_some, decide_true, if_true] at hcount
    dsimp only
    omega
  · have hcount := s.conns.count_insert id (if s.active = 1 then .notifying else .closed)
      (· = .opened)
    rw [hold] at hcount
    have hgone : (if s.active = 1 then Conn.notifying else .closed) ≠ .opened := by
      split_ifs <;> simp
    simp only [Table.ind_some, decide_true, if_true, hgone, decide_false, Bool.false_eq_true,
      if_false] at hcount
    dsimp only
    omega
  · have hcount := s.conns.count_insert id .closed (· = .opened)
    rw [hold] at hcount
    simp only [Table.ind_some, reduceCtorEq, decide_false, Bool.false_eq_true, if_false] at hcount
    dsimp only
    omega
  · exact h

theorem Reachable.counts {s : Tracker} (h : Reachable s) : Counts s :=
  Runs.invariant h rfl fun _ _ _ hI _ hs => counts_step hI hs

/-! ## Waking the shutdown task -/

/-- `wait_for_zero` is parked without a wake-up, although nothing is left to be drained and no
    `close` is in progress: only its timeout can end it. -/
def Stuck (s : Tracker) : Prop :=
  s.active = 0 ∧ (∀ id, s.conns.get? id ≠ some .notifying) ∧ s.waiter = .parked false

/-- The event is the last outstanding `notify_waiters`, everything is drained, and the shutdown task
    has read `active` but has not created its future. -/
def LosesWakeup (s : Tracker) (e : Event) : Prop :=
  s.waiter = .registering ∧ s.active = 0 ∧
    ∃ id, e = .notify id ∧ ∀ id', s.conns.get? id' = some .notifying → id' = id

/-- Someone will still notify. -/
def Pending (s : Tracker) : Prop := 0 < s.active ∨ ∃ id, s.conns.get? id = some .notifying

/-- While the shutdown task is on its way to park, or parked without a wake-up, someone will still
    notify it. -/
def Waited (s : Tracker) : Prop :=
  s.waiter = .registering ∨ s.waiter = .created false ∨ s.waiter = .parked false → Pending s

theorem waited_step {s s' : Tracker} {e : Event} (h : Waited s) (hok : ¬ LosesWakeup s e)
    (hs : step s e = some s') : Waited s' := by
  rcases step_cases hs with ⟨id, -, hw, -, rfl⟩ | ⟨id, -, hopen, rfl⟩ | ⟨id, he, -, rfl⟩ |
    ⟨w, hm, rfl⟩
  · intro hw'
    simp [hw] at hw'
  · -- the last decrement is followed by a notification
    intro hw
    rcases h hw with hpos | ⟨id', hid'⟩
    · by_cases h1 : s.active = 1
      · exact Or.inr ⟨id, by simp [h1]⟩
      · exact Or.inl (Nat.sub_pos_of_lt (by omega))
    · have hne : id' ≠ id := by
        rintro rfl
        simp [hopen] at hid'
      exact Or.inr ⟨id', by rwa [Table.get?_insert_ne _ _ hne]⟩
  · -- a future that exists is notified; otherwise another notification is outstanding
    intro hw'
    have hw : s.waiter = .registering := by
      rcases hold : s.waiter with _ | _ | _ | _ | notified | notified | drained <;>
        simp [hold, Waiter.notify] at hw' ⊢
    by_cases hpos : 0 < s.active
    · exact Or.inl hpos
    · have hother : ∃ id', s.conns.get? id' = some .notifying ∧ id' ≠ id := by
        by_contra hnone
        refine hok ⟨hw, by omega, id, he, fun id' hid' => ?_⟩
        by_contra hne
        exact hnone ⟨id', hid', hne⟩
      obtain ⟨id', hid', hne⟩ := hother
      exact Or.inr ⟨id', by rwa [Table.get?_insert_ne _ _ hne]⟩
  · -- a task on its way to park has read a counter that was not zero
    intro hw'
    generalize hold : s.waiter = old at hm
    cases hm with
    | waits hne => exact Or.inl (Nat.pos_of_ne_zero hne)
    | creates => exact h (Or.inl hold)
    | parks => exact h (Or.inr (Or.inl hold))
    | _ => simp at hw'

/-- **Draining misses its wake-up only in one order.**  A run in which no step loses the wake-up
    does not get stuck; but a step that loses it leaves the shutdown task stuck as soon as the task
    goes on. -/
theorem drains_unless_wakeup_lost {s : Tracker}
    (hs : Runs step (fun s e => ¬ LosesWakeup s e) .initial s) :
    ¬ Stuck s ∧ ∀ e s', LosesWakeup s e → step s e = some s' →
      ∃ s'', exec step s' [.create, .poll] = some s'' ∧ Stuck s'' := by
  constructor
  · rintro ⟨hzero, hnone, hw⟩
    have hwaited : Waited s :=
      Runs.invariant hs (by simp [Waited, Tracker.initial])
        fun _ _ _ hI hok hs => waited_step hI hok hs
    rcases hwaited (Or.inr (Or.inr hw)) with hpos | ⟨id, hid⟩
    · omega
    · exact hnone id hid
  · rintro e s' ⟨hw, hzero, id, rfl, honly⟩ hstep
    obtain ⟨hid, he⟩ := Option.ite_none_right_eq_some.1 hstep
    obtain rfl := Option.some.inj he
    refine ⟨{ s with conns := s.conns.insert id .closed, waiter := .parked false }, ?_, hzero, ?_,
      rfl⟩
    · simp [exec, step, hw, Waiter.notify]
    · intro id' hid'
      by_cases hne : id' = id
      · subst hne
        simp at hid'
      · rw [Table.get?_insert_ne _ _ hne] at hid'
        exact hne (honly id' hid')

/-- The connection closes after the shutdown task has parked: it is woken and reports that all is
    drained. -/
theorem drained_after_wakeup :
    ∃ s, Runs step (fun s e => ¬ LosesWakeup s e) .initial s ∧ s.waiter = .returned true ∧
      ¬ Stuck s := by
  obtain ⟨s, hs, hw⟩ := exists_of_exec_any
    (guarded step fun s e => s.waiter = .registering → e = .create) .initial
    [.accept 1, .shutdown, .check, .read, .create, .poll, .decrement 1, .notify 1, .wake, .read]
    (·.waiter = .returned true) (by decide)
  have hrun : Runs step (fun s e => ¬ LosesWakeup s e) .initial s := by
    refine (Runs.of_guarded (.of_exec .refl hs)).mono ?_
    rintro s e hok ⟨hreg, -, id, rfl, -⟩
    simp at hok
    exact hok hreg
  exact ⟨s, hrun, of_decide_eq_true hw, (drains_unless_wakeup_lost hrun).1⟩

/-- The only connection closes between the read and the registration of the shutdown task. -/
theorem wakeup_lost :
    ∃ s, exec step .initial [.accept 1, .shutdown, .check, .read, .decrement 1, .notify 1, .create,
      .poll] = some s ∧ Reachable s ∧ Stuck s := by
  obtain ⟨s, hs, hp⟩ := exists_of_exec_any step .initial [.accept 1, .shutdown, .check, .read,
    .decrement 1, .notify 1, .create, .poll]
    (fun s => s.active = 0 ∧ (∀ id ∈ s.conns.keys, s.conns.get? id ≠ some .notifying) ∧
      s.waiter = .parked false) (by decide)
  obtain ⟨hzero, hnone, hw⟩ := of_decide_eq_true hp
  refine ⟨s, hs, .of_exec .refl hs, hzero, fun id hid => ?_, hw⟩
  exact hnone id ((s.conns.mem_keys id).2 (by simp [hid])) hid

end Draining

end FerrumProxy
