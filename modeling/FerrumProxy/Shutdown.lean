/-
  The end of the server (`run_with_shutdown_kind` and `wait_for_zero` in
  `src/server/mod.rs`).

  The lines of `run_with_shutdown_kind` in the log show how far it is (`Progress`).  A
  rank of the shutdown task, with four for each notification that can still come
  (`work`), bounds the turns it has left while it drains: every shutdown comes to its
  end, and the last line tells the truth (`shutdown_completes`).
-/
import FerrumProxy.Server

namespace FerrumProxy

open Lib Telemetry

namespace Server

/-! ## What the log tells -/

/-- The lines that `run_with_shutdown_kind` writes, without those about single routes. -/
def lifecycle (log : List LogEntry) : List LogEntry :=
  log.filter fun entry =>
    entry.event ∈ ["server_start", "control_signal", "shutdown_started", "shutdown_complete"]

section
variable (P : Setup) (parse : String → Except String String)

/-- The lines up to the signal. -/
def signalLines (addr : String) (reason : ShutdownReason) : List LogEntry :=
  [logServerStart addr P.config.routes.length,
    logControlSignal reason.signalName reason.actionName,
    logShutdownStarted (fromMillis P.config.server.gracefulShutdownTimeoutMs)]

/-- How far the server is, by the lines it has written. -/
inductive Progress : Main → Draining.Waiter → List LogEntry → Prop
  | resolving {w : Draining.Waiter} : Progress .resolving w []
  | binding {w : Draining.Waiter} {addr : String} :
      P.config.server.socketAddr parse = .ok addr → Progress (.binding addr) w []
  | checking {w : Draining.Waiter} {addr : String} :
      P.config.server.socketAddr parse = .ok addr → Progress (.checking addr) w []
  | accepting {w : Draining.Waiter} {addr : String} :
      P.config.server.socketAddr parse = .ok addr →
      Progress .accepting w [logServerStart addr P.config.routes.length]
  | draining {w : Draining.Waiter} {addr : String} (reason : ShutdownReason) :
      P.config.server.socketAddr parse = .ok addr →
      Progress .draining w (signalLines P addr reason)
  | failed {w : Draining.Waiter} {err : String} : Progress (.finished (.error err)) w []
  | stopped {w : Draining.Waiter} {addr err : String} :
      P.config.server.socketAddr parse = .ok addr →
      Progress (.finished (.error err)) w [logServerStart addr P.config.routes.length]
  | completed {addr : String} {drained : Bool} {remaining : ℕ} (reason : ShutdownReason) :
      P.config.server.socketAddr parse = .ok addr → (drained = true → remaining = 0) →
      Progress (.finished (.ok ())) (.returned drained)
        (signalLines P addr reason ++ [logShutdownComplete drained remaining])

end

section
variable {P : Setup} {parse : String → Except String String} {s s' : Server}
  {t t' : Draining.Tracker} {e : Draining.Event} {id : ℕ}

theorem lifecycle_append (log entries : List LogEntry) :
    lifecycle (log ++ entries) = lifecycle log ++ lifecycle entries := by
  simp [lifecycle]

theorem lifecycle_warnings (W : List (String × String)) :
    lifecycle (W.map fun w => logStartupWarning w.1 w.2) = [] := by
  refine List.filter_eq_nil_iff.2 fun entry he => ?_
  obtain ⟨w, -, rfl⟩ := List.mem_map.1 he
  simp [logStartupWarning]

theorem lifecycle_errors {entries : List LogEntry}
    (h : ∀ entry ∈ entries, entry.event = "connection_error") : lifecycle entries = [] := by
  refine List.filter_eq_nil_iff.2 fun entry he => ?_
  rw [h entry he]
  simp

theorem CheckerMoves.silent {w : Watch Bool} {c c' : Checker} {entries : List LogEntry}
    (h : CheckerMoves w c c' entries) : lifecycle entries = [] := by
  cases h <;> simp [lifecycle, logBackgroundTaskFailure]

/-- How `wait_for_zero` has ended matters to the last line only. -/
theorem Progress.waiter {m : Main} {w w' : Draining.Waiter} {lines : List LogEntry}
    (h : Progress P parse m w lines) (hw : m ≠ .finished (.ok ()) ∨ w' = w) :
    Progress P parse m w' lines := by
  cases h with
  | resolving => exact .resolving
  | binding ha => exact .binding ha
  | checking ha => exact .checking ha
  | accepting ha => exact .accepting ha
  | draining reason ha => exact .draining reason ha
  | failed => exact .failed
  | stopped ha => exact .stopped ha
  | completed reason ha hd =>
    obtain rfl := hw.resolve_left fun hne => hne rfl
    exact .completed reason ha hd

theorem Progress.notify {m : Main} {w : Draining.Waiter} {lines : List LogEntry}
    (h : Progress P parse m w lines) : Progress P parse m w.notify lines := by
  refine h.waiter ?_
  cases h with
  | completed => exact Or.inr rfl
  | _ => exact Or.inl (by simp)

/-- The progress of a server. -/
def Tells (P : Setup) (parse : String → Except String String) (s : Server) : Prop :=
  Progress P parse s.main s.tracker.waiter (lifecycle s.log)

theorem Tells.main {e : MainEvent} (h : s.Tells P parse) (hst : s.Steady)
    (hs : s.mainStep P parse e = some s') : s'.Tells P parse := by
  unfold Tells at h
  cases mainStep_cases hs with
  | resolved hm ha =>
    show Progress P parse (.binding _) s.tracker.waiter (lifecycle s.log)
    rw [hm] at h
    generalize lifecycle s.log = lines at h ⊢
    cases h
    exact .binding ha
  | bound hm =>
    show Progress P parse (.checking _) s.tracker.waiter (lifecycle s.log)
    rw [hm] at h
    generalize lifecycle s.log = lines at h ⊢
    cases h with
    | binding ha => exact .checking ha
  | started hm =>
    show Progress P parse .accepting s.tracker.waiter (lifecycle (_ ++ _ ++ _))
    rw [lifecycle_append, lifecycle_append, lifecycle_warnings, List.append_nil]
    rw [hm] at h
    generalize lifecycle s.log = lines at h ⊢
    cases h with
    | checking ha => exact .accepting ha
  | failed hm =>
    show Progress P parse (.finished (.error _)) s.tracker.waiter (lifecycle (_ ++ _))
    rw [lifecycle_append, lifecycle_warnings, List.append_nil]
    generalize s.main = m at h hm
    generalize s.tracker.waiter = w at h ⊢
    generalize lifecycle s.log = lines at h ⊢
    cases h with
    | resolving => exact .failed
    | binding => exact .failed
    | checking => exact .failed
    | accepting ha => exact .stopped ha
    | _ => cases hm
  | accepted hm haccept =>
    refine Progress.waiter h (Or.inl ?_)
    rw [hm]
    simp
  | @signalled reason _ hm hsignal =>
    show Progress P parse .draining _ (lifecycle (_ ++ _))
    rw [lifecycle_append]
    rw [hm] at h
    generalize lifecycle s.log = lines at h ⊢
    cases h with
    | accepting ha => exact .draining reason ha
  | waited hm hof hwait =>
    refine Progress.waiter h (Or.inl ?_)
    rw [hm]
    simp
  | completed hm hw =>
    show Progress P parse (.finished (.ok ())) s.tracker.waiter (lifecycle (_ ++ _))
    rw [lifecycle_append]
    rw [hm] at h
    generalize lifecycle s.log = lines at h ⊢
    cases h with
    | draining reason ha =>
      rw [hw]
      exact .completed reason ha fun hd => hst.empty (by rw [hw, hd])

theorem Tells.conn {e : ConnEvent} (h : s.Tells P parse) (hs : s.connStep id e = some s') :
    s'.Tells P parse := by
  cases connStep_cases hs with
  | ended _ _ herr =>
    show Progress P parse s.main s.tracker.waiter (lifecycle (_ ++ _))
    rw [lifecycle_append, lifecycle_errors herr, List.append_nil]
    exact h
  | heeded _ _ _ => exact h
  | tracked he ht =>
    rcases step_ofConn (he.imp And.left fun h => h) ht with ⟨c, -, -, rfl, -⟩ | ⟨-, rfl⟩
    · exact h
    · exact Progress.notify h

theorem Tells.checks {e : CheckerEvent} (h : s.Tells P parse) (hs : s.checkerStep e = some s') :
    s'.Tells P parse := by
  obtain ⟨checker, entries, hm, rfl⟩ := checkerStep_cases hs
  show Progress P parse s.main s.tracker.waiter (lifecycle (_ ++ _))
  rw [lifecycle_append, hm.silent, List.append_nil]
  exact h

theorem Reachable.tells (h : Reachable P parse s) : s.Tells P parse := by
  refine Runs.invariant₂ h .resolving (fun s hr => Reachable.steady hr) fun s e s' hJ hI _ hs => ?_
  cases e with
  | main e => exact hI.main hJ hs
  | conn id e => exact hI.conn hs
  | checker e => exact hI.checks hs

/-! ## How long draining takes -/

/-- The accesses that `wait_for_zero` has left if it is not notified again. -/
def waiterRank : Draining.Waiter → ℕ
  | .serving => 0
  | .checking => 5
  | .looping => 4
  | .registering => 3
  | .created notified => if notified then 5 else 2
  | .parked notified => if notified then 5 else 1
  | .returned _ => 0

/-- The calls of `notify_waiters` that are still to come when no connection is accepted. -/
def notifications (t : Draining.Tracker) : ℕ :=
  t.conns.count (· = .notifying) + min 1 t.active

/-- A bound of the turns that `run_with_shutdown_kind` has left while it drains. -/
def work (s : Server) : ℕ :=
  match s.main with
  | .draining => 1 + waiterRank s.tracker.waiter + 4 * notifications s.tracker
  | _ => 0

theorem waiterRank_lt {active : ℕ} {w w' : Draining.Waiter} (h : Draining.Moves active w w')
    (hw : w ≠ .serving) : waiterRank w' < waiterRank w := by
  cases h with
  | signalled => exact absurd rfl hw
  | _ => simp [waiterRank]

/-- A notification sends the shutdown task back to its look at `active`. -/
theorem waiterRank_notify (w : Draining.Waiter) : waiterRank w.notify ≤ waiterRank w + 4 := by
  cases w with
  | created notified => cases notified <;> simp [Draining.Waiter.notify, waiterRank]
  | parked notified => cases notified <;> simp [Draining.Waiter.notify, waiterRank]
  | _ => simp [Draining.Waiter.notify]

theorem rank_ofConn (he : e = .decrement id ∨ e = .notify id) (h : Draining.step t e = some t') :
    waiterRank t'.waiter + 4 * notifications t' ≤ waiterRank t.waiter + 4 * notifications t := by
  unfold notifications
  rcases step_ofConn he h with ⟨c, hold, hnew, rfl, hlast⟩ | ⟨hold, rfl⟩
  · have hcount := t.conns.count_insert id c (· = .notifying)
    rw [hold] at hcount
    simp only [Table.ind_some, reduceCtorEq, decide_false, Bool.false_eq_true, if_false] at hcount
    dsimp only
    by_cases h1 : t.active = 1
    · -- the last decrement leaves the notification to be made
      obtain rfl := hlast.2 h1
      simp only [decide_true, if_true] at hcount
      omega
    · have hne : ¬ c = .notifying := fun hc => h1 (hlast.1 hc)
      simp only [hne, decide_false, Bool.false_eq_true, if_false] at hcount
      omega
  · have hcount := t.conns.count_insert id .closed (· = .notifying)
    rw [hold] at hcount
    simp only [Table.ind_some, decide_true, if_true, reduceCtorEq, decide_false,
      Bool.false_eq_true, if_false] at hcount
    have hwaiter := waiterRank_notify t.waiter
    dsimp only
    omega

/-- A turn of `run_with_shutdown_kind`. -/
def Event.ofMain : Event → Bool
  | .main _ => true
  | _ => false

/-- The accept loop has been left after a signal. -/
structure Leaving (s : Server) : Prop where
  steady : s.Steady
  main : s.main = .draining ∨ s.main = .finished (.ok ())

theorem Leaving.left (h : s.Leaving) : s.main.left = true := by
  rcases h.main with hm | hm <;> rw [hm] <;> rfl

theorem Leaving.step {e : Event} (h : s.Leaving) (hs : s.step P parse e = some s') :
    s'.Leaving := by
  have hleft := h.left
  cases e with
  | main e =>
    refine ⟨h.steady.main hs, ?_⟩
    cases mainStep_cases hs with
    | waited hm _ _ => exact Or.inl hm
    | completed => exact Or.inr rfl
    | failed hm =>
      rw [hleft] at hm
      cases hm
    | _ hm =>
      rw [hm] at hleft
      cases hleft
  | conn id e =>
    refine ⟨h.steady.conn hs, ?_⟩
    cases connStep_cases hs <;> exact h.main
  | checker e =>
    refine ⟨h.steady.checker hs, ?_⟩
    obtain ⟨checker, entries, -, rfl⟩ := checkerStep_cases hs
    exact h.main

/-- The turns of `run_with_shutdown_kind` while it drains. -/
theorem Leaving.work_main {e : MainEvent} (h : s.Leaving) (hs : s.mainStep P parse e = some s') :
    work s' < work s := by
  have hst := h.steady
  have hleft := h.left
  cases mainStep_cases hs with
  | waited hm hof hwait =>
    obtain ⟨w, hmoves, rfl⟩ := step_ofWaiter hof hwait
    have hw := hst.waiter
    rw [hm] at hw
    have hlt := waiterRank_lt hmoves hw
    simp only [work, hm, notifications]
    omega
  | completed hm hw =>
    simp [work, hm, finish]
  | failed hm =>
    rw [hleft] at hm
    cases hm
  | _ hm =>
    rw [hm] at hleft
    cases hleft

theorem Leaving.work_le {e : Event} (h : s.Leaving) (hs : s.step P parse e = some s') :
    work s' ≤ work s := by
  cases e with
  | main e => exact (h.work_main hs).le
  | conn id e =>
    cases connStep_cases hs with
    | ended _ _ _ => exact Nat.le_refl _
    | heeded _ _ _ => exact Nat.le_refl _
    | tracked he ht =>
      have hrank := rank_ofConn (he.imp And.left fun h => h) ht
      cases hm : s.main with
      | draining =>
        simp only [work, hm]
        omega
      | _ => simp [work, hm]
  | checker e =>
    obtain ⟨checker, entries, -, rfl⟩ := checkerStep_cases hs
    exact Nat.le_refl _

/-- `run_with_shutdown_kind` never gets stuck while it drains. -/
theorem Steady.goes_on (h : s.Steady) (hm : s.main = .draining) :
    ∃ e, (s.mainStep P parse e).isSome := by
  have hw := h.waiter
  rw [hm] at hw
  cases hwait : s.tracker.waiter with
  | serving => exact absurd hwait hw
  | checking => exact ⟨.wait .check, by simp [mainStep, hm, ofWaiter, Draining.step, hwait]⟩
  | looping => exact ⟨.wait .read, by simp [mainStep, hm, ofWaiter, Draining.step, hwait]⟩
  | registering => exact ⟨.wait .create, by simp [mainStep, hm, ofWaiter, Draining.step, hwait]⟩
  | created notified =>
    exact ⟨.wait .poll, by cases notified <;> simp [mainStep, hm, ofWaiter, Draining.step, hwait]⟩
  | parked notified =>
    cases notified with
    | true => exact ⟨.wait .wake, by simp [mainStep, hm, ofWaiter, Draining.step, hwait]⟩
    | false => exact ⟨.wait .elapse, by simp [mainStep, hm, ofWaiter, Draining.step, hwait]⟩
  | returned drained => exact ⟨.complete, by simp [mainStep, hm, hwait]⟩

/-- No connection is accepted any more. -/
theorem Leaving.links {e : Event} (h : s.Leaving) (hs : s.step P parse e = some s') (id : ℕ) :
    (s'.links.get? id).isSome = (s.links.get? id).isSome := by
  have hleft := h.left
  have hown : ∀ {id' l l'}, s.links.get? id' = some l →
      ((s.links.insert id' l').get? id).isSome = (s.links.get? id).isSome := by
    intro id' l l' hl
    by_cases hid : id = id'
    · rw [hid, Table.get?_insert_self, hl]
      rfl
    · rw [Table.get?_insert_ne _ _ hid]
  cases e with
  | main e =>
    cases mainStep_cases hs with
    | accepted hm _ =>
      rw [hm] at hleft
      cases hleft
    | _ => rfl
  | conn id' e =>
    cases connStep_cases hs with
    | ended hl _ _ => exact hown hl
    | heeded hl _ _ => exact hown hl
    | tracked _ _ => rfl
  | checker e =>
    obtain ⟨checker, entries, -, rfl⟩ := checkerStep_cases hs
    rfl

/-- When `wait_for_zero` has returned `true`, every connection is over. -/
theorem all_ended (hst : s.Steady) (hh : s.Heard) (hw : s.tracker.waiter = .returned true) (id : ℕ)
    (l : Link) (hl : s.links.get? id = some l) : l.ended = true := by
  by_contra hended
  rw [Bool.not_eq_true] at hended
  have hopen := hh.opened id l hl hended
  have hcounts := hst.tracker.counts
  unfold Draining.Counts at hcounts
  have hpos := Table.count_pos hopen (P := (· = .opened)) (by simp)
  have hzero := hst.empty hw
  omega

/-- **Every shutdown comes to its end.**  After the signal the server accepts nothing more, and
    whatever the other tasks do it can always go on and has at most a bounded number of turns left:
    a handful, and four for each notification under way.  It returns successfully, having written
    its four lines, and reports that all is drained only when every connection is over. -/
theorem shutdown_completes (h : Reachable P parse s) (hm : s.main = .draining) {es : List Event}
    (hes : exec (step P parse) s es = some s') :
    es.countP Event.ofMain ≤ 10 + 4 * s.tracker.conns.count (· = .notifying) ∧
    (∀ id, (s'.links.get? id).isSome = (s.links.get? id).isSome) ∧
    ((s'.main = .draining ∧ ∃ e, (step P parse s' (.main e)).isSome) ∨
      s'.main = .finished (.ok ()) ∧ ∃ addr reason drained remaining,
        P.config.server.socketAddr parse = .ok addr ∧
        lifecycle s'.log =
          signalLines P addr reason ++ [logShutdownComplete drained remaining] ∧
        (drained = true → remaining = 0 ∧ ∀ id l, s'.links.get? id = some l → l.ended = true)) := by
  have hleaving : s.Leaving := ⟨h.steady, Or.inl hm⟩
  have hreach : Reachable P parse s' := .of_exec h hes
  have hrun := Runs.of_exec .refl hes
  have hleaving' : s'.Leaving := hrun.invariant hleaving fun _ _ _ hI _ hs => hI.step hs
  refine ⟨?_, fun id => ?_, ?_⟩
  · have hwork : es.countP Event.ofMain + work s' ≤ work s := by
      refine exec_countP_le (J := Leaving) (fun _ _ _ hJ hs => hJ.step hs) ?_
        (fun _ _ _ hJ hs => hJ.work_le hs) hes hleaving
      intro s e s' hJ hmine hs
      cases e with
      | main e => exact hJ.work_main hs
      | conn => cases hmine
      | checker => cases hmine
    have hrank : waiterRank s.tracker.waiter ≤ 5 := by
      cases s.tracker.waiter with
      | created notified => cases notified <;> simp [waiterRank]
      | parked notified => cases notified <;> simp [waiterRank]
      | _ => simp [waiterRank]
    have hbound : work s = 1 + waiterRank s.tracker.waiter + 4 * notifications s.tracker := by
      simp [work, hm]
    unfold notifications at hbound
    omega
  · have hlinks : s'.Leaving ∧ (s'.links.get? id).isSome = (s.links.get? id).isSome :=
      hrun.invariant
        (I := fun r => r.Leaving ∧ (r.links.get? id).isSome = (s.links.get? id).isSome)
        ⟨hleaving, rfl⟩ fun _ _ _ hI _ hs => ⟨hI.1.step hs, (hI.1.links hs id).trans hI.2⟩
    exact hlinks.2
  · rcases hleaving'.main with hm' | hm'
    · exact Or.inl ⟨hm', hleaving'.steady.goes_on hm'⟩
    · refine Or.inr ⟨hm', ?_⟩
      have hall := all_ended hreach.steady hreach.heard
      have htells := hreach.tells
      unfold Tells at htells
      rw [hm'] at htells
      generalize s'.tracker.waiter = w at htells hall
      generalize lifecycle s'.log = lines at htells ⊢
      cases htells with
      | @completed addr drained remaining reason ha hd =>
        refine ⟨addr, reason, drained, remaining, ha, rfl, fun htrue => ⟨hd htrue, ?_⟩⟩
        exact hall (by rw [htrue])

end

/-- Two connections end while the server drains, one of them before `wait_for_zero` looks. -/
theorem shutdown_completes_drained : let P := small ["http://127.0.0.1:3001"] 1 1 1
    ∃ s s', Reachable P .ok s ∧ s.main = .draining ∧
      exec (step P .ok) s [.conn 1 (.ends "10.0.0.1:5000" (.ok ())), .conn 1 .decrement,
        .main (.wait .check), .main (.wait .read), .main (.wait .create), .conn 2 .heed,
        .conn 2 (.ends "10.0.0.2:5000" (.error "reset")), .conn 2 .decrement, .conn 2 .notify,
        .main (.wait .poll), .main (.wait .read), .main .complete] = some s' ∧
      6 ≤ 10 + 4 * s.tracker.conns.count (· = .notifying) ∧ s'.main = .finished (.ok ()) ∧
      s'.log.getLast? = some (logShutdownComplete true 0) := by
  intro P
  obtain ⟨s', hs', hp'⟩ := exists_of_exec_any (step P .ok) initial
    ((smallStart ++ [.main (.accept 1), .main (.accept 2), .main (.signal (.reload "sighup"))]) ++
      [.conn 1 (.ends "10.0.0.1:5000" (.ok ())), .conn 1 .decrement, .main (.wait .check),
        .main (.wait .read), .main (.wait .create), .conn 2 .heed,
        .conn 2 (.ends "10.0.0.2:5000" (.error "reset")), .conn 2 .decrement, .conn 2 .notify,
        .main (.wait .poll), .main (.wait .read), .main .complete])
    (fun s => s.flag.sender == false && s.log.getLast? == some (logShutdownComplete true 0))
    (by decide +kernel)
  obtain ⟨s, hs, hp⟩ := exists_of_exec_any (step P .ok) initial
    (smallStart ++ [.main (.accept 1), .main (.accept 2), .main (.signal (.reload "sighup"))])
    (fun s => match s.main with | .draining => true | _ => false) (by decide +kernel)
  rw [exec_append, hs, Option.bind_some] at hs'
  simp only [Bool.and_eq_true, beq_iff_eq] at hp'
  have hreach : Reachable P .ok s := .of_exec .refl hs
  have hm : s.main = .draining := by
    split at hp
    next hm => exact hm
    next => cases hp
  obtain ⟨hcount, -, hend⟩ := shutdown_completes hreach hm hs'
  refine ⟨s, s', hreach, hm, hs', hcount, ?_, hp'.2⟩
  rcases hend with ⟨hm', -⟩ | ⟨hm', -⟩
  · have hreach' : Reachable P .ok s' := .of_exec hreach hs'
    have hflag := hreach'.steady.flag
    rw [hm'] at hflag
    rw [hflag] at hp'
    cases hp'.1
  · exact hm'

end Server

end FerrumProxy
