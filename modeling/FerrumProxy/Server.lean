/-
  The life of the server (`run_with_shutdown_kind` in `src/server/mod.rs`,
  `spawn_active_checks` in `src/health/mod.rs`).

  Three kinds of task run next to each other: that of `run_with_shutdown_kind`, one for
  each accepted connection, and that of the health checks.  The first tells the others to
  stop through a `watch` channel, by sending `true` or by dropping the sender, and waits
  for the connections in `wait_for_zero` (`Draining`).  A step is one turn of one task;
  the environment decides whose.

  However the turns fall, a task that has not been told is told at its next look
  (`Heard`), and the lines of the log show how far the server is (`Progress`).
-/
import FerrumProxy.Draining
import FerrumProxy.Logging
import FerrumProxy.Startup
import FerrumProxy.Lib.Watch

namespace FerrumProxy

open Lib Telemetry

/-- `ConfigError`'s `Display`. -/
def ConfigError.display : ConfigError → String
  | .validation err => s!"invalid config: {err}"

/-- `ServerConfig::socket_addr`, where `parse` is the `FromStr` of `SocketAddr`, with the text of the
    address. -/
def ServerConfig.socketAddr (parse : String → Except String String) (c : ServerConfig) :
    Except ConfigError String :=
  match parse s!"{c.host}:{c.port}" with
  | .ok addr => .ok addr
  | .error err =>
    .error (.validation s!"server host/port must form a valid socket address: {err}")

namespace Server

/-- `ShutdownReason` -/
inductive ShutdownReason where
  | terminate (signal : String)
  | reload (signal : String)
deriving DecidableEq, Repr

def ShutdownReason.signalName : ShutdownReason → String
  | .terminate signal => signal
  | .reload signal => signal

def ShutdownReason.actionName : ShutdownReason → String
  | .terminate _ => "shutdown"
  | .reload _ => "graceful_shutdown"

/-! ## Tasks -/

/-- Where `run_with_shutdown_kind` is. -/
inductive Main where
  /-- at `config.server.socket_addr()` -/
  | resolving
  /-- at `TcpListener::bind` -/
  | binding (addr : String)
  /-- at `run_startup_health_check` -/
  | checking (addr : String)
  /-- in the accept loop -/
  | accepting
  /-- in `wait_for_zero` -/
  | draining
  | finished (result : Except String Unit)

/-- What a connection task has besides the connection. -/
structure Link where
  /-- the version that its `shutdown_rx` has seen -/
  seen : ℕ := 0
  /-- the number of calls of `graceful_shutdown` -/
  told : ℕ := 0
  /-- the connection is over: the task has left its `select!` -/
  ended : Bool := false
deriving DecidableEq, Repr

/-- `graceful_shutdown` is called when the flag is heeded. -/
def Link.look (l : Link) (r : Bool × ℕ) : Link :=
  { l with seen := r.2, told := if r.1 then l.told + 1 else l.told }

/-- The task of `spawn_active_checks` and the one that awaits it. -/
inductive Checker where
  | absent
  /-- at its `select!`, with the version that `shutdown` has seen -/
  | idle (seen : ℕ)
  /-- in a pass -/
  | passing (seen : ℕ)
  | stopped
  /-- the task has panicked; `reported` when the other task has logged it -/
  | panicked (panic : String) (reported : Bool)
deriving DecidableEq, Repr

end Server

/-- The tasks with what they share. -/
structure Server where
  main : Server.Main
  flag : Watch Bool
  tracker : Draining.Tracker
  links : Table ℕ Server.Link
  checker : Server.Checker
  log : List LogEntry

namespace Server

def initial : Server := ⟨.resolving, .channel false, .initial, .empty, .absent, []⟩

/-! ## Steps -/

/-- The turns of `run_with_shutdown_kind`, with what they get from outside. -/
inductive MainEvent where
  | resolve
  | bind (result : Except String Unit)
  /-- the startup check, over the application's state at that time -/
  | startup (state : Sys) (checks : List Check) (t : ℕ)
  | accept (id : ℕ)
  | acceptFails (err : String)
  | signal (reason : ShutdownReason)
  /-- an access of `wait_for_zero` -/
  | wait (e : Draining.Event)
  /-- what follows `wait_for_zero` -/
  | complete

/-- The turns of a connection task. -/
inductive ConnEvent where
  /-- the connection is over -/
  | ends (remoteAddr : String) (result : Except String Unit)
  | decrement
  | notify
  /-- `shutdown_rx.changed()` is ready -/
  | heed

/-- The turns of the health checks. -/
inductive CheckerEvent where
  | tick
  | passed
  | panic (text : String)
  | heed
  | report
deriving DecidableEq, Repr

inductive Event where
  | main (e : MainEvent)
  | conn (id : ℕ) (e : ConnEvent)
  | checker (e : CheckerEvent)

def print (s : Server) (entries : List LogEntry) : Server := { s with log := s.log ++ entries }

/-- `run_with_shutdown_kind` returns, and `shutdown_tx` is dropped. -/
def finish (s : Server) (result : Except String Unit) : Server :=
  { s with main := .finished result, flag := s.flag.dropSender }

/-- The accesses that `wait_for_zero` makes. -/
def ofWaiter (e : Draining.Event) : Bool :=
  e ∈ [Draining.Event.check, .read, .create, .poll, .wake, .elapse]

section
variable (P : Setup) (parse : String → Except String String)

/-- A turn of `run_with_shutdown_kind`; `none` when it waits. -/
def mainStep (s : Server) (e : MainEvent) : Option Server :=
  match s.main, e with
  | .resolving, .resolve =>
    match P.config.server.socketAddr parse with
    | .error err => some (s.finish (.error err.display))
    -- the channel is made and the background tasks are spawned before the listener is bound
    | .ok addr => some { s with main := .binding addr, checker := .idle 0 }
  | .binding addr, .bind result =>
    match result with
    | .error err => some (s.finish (.error err))
    | .ok () => some { s with main := .checking addr }
  | .checking addr, .startup state checks t =>
    let report := state.runStartupHealthCheck P checks t
    let s := s.print (report.warnings.map fun w => logStartupWarning w.1 w.2)
    match report.result with
    | .error err => some (s.finish (.error err))
    | .ok () =>
      some { s.print [logServerStart addr P.config.routes.length] with main := .accepting }
  | .accepting, .accept id =>
    (Draining.step s.tracker (.accept id)).map fun tracker =>
      { s with tracker := tracker, links := s.links.insert id {} }
  | .accepting, .acceptFails err => some (s.finish (.error err))
  | .accepting, .signal reason =>
    (Draining.step s.tracker .shutdown).map fun tracker =>
      { s.print [logControlSignal reason.signalName reason.actionName,
          logShutdownStarted (fromMillis P.config.server.gracefulShutdownTimeoutMs)] with
        main := .draining
        flag := s.flag.send true
        tracker := tracker }
  | .draining, .wait e =>
    if ofWaiter e then (Draining.step s.tracker e).map fun tracker => { s with tracker := tracker }
    else none
  | .draining, .complete =>
    match s.tracker.waiter with
    | .returned drained =>
      some ((s.print [logShutdownComplete drained s.tracker.active]).finish (.ok ()))
    | _ => none
  | _, _ => none

/-- A turn of the connection task `id`; `none` when it waits. -/
def connStep (s : Server) (id : ℕ) : ConnEvent → Option Server
  | .ends remoteAddr result => (s.links.get? id).bind fun l =>
    if l.ended then none
    else
      let s := { s with links := s.links.insert id { l with ended := true } }
      match result with
      | .ok () => some s
      | .error err => some (s.print [logConnectionError remoteAddr err])
  | .decrement => (s.links.get? id).bind fun l =>
    if l.ended then
      (Draining.step s.tracker (.decrement id)).map fun tracker => { s with tracker := tracker }
    else none
  | .notify =>
    (Draining.step s.tracker (.notify id)).map fun tracker => { s with tracker := tracker }
  | .heed => (s.links.get? id).bind fun l =>
    if l.ended then none
    else (s.flag.heeds l.seen).map fun r => { s with links := s.links.insert id (l.look r) }

/-- A turn of the health checks; `none` when they wait. -/
def checkerStep (s : Server) (e : CheckerEvent) : Option Server :=
  match s.checker, e with
  | .idle seen, .tick => some { s with checker := .passing seen }
  | .idle seen, .heed => (s.flag.heeds seen).map fun r =>
    { s with checker := if r.1 then .stopped else .idle r.2 }
  | .passing seen, .passed => some { s with checker := .idle seen }
  | .passing _, .panic text => some { s with checker := .panicked text false }
  | .panicked text false, .report =>
    some { s.print [logBackgroundTaskFailure "health_checks" text] with
      checker := .panicked text true }
  | _, _ => none

/-- One turn of one task. -/
def step (s : Server) : Event → Option Server
  | .main e => s.mainStep P parse e
  | .conn id e => s.connStep id e
  | .checker e => s.checkerStep e

/-- The states that can be reached, in any order of the turns. -/
def Reachable (s : Server) : Prop := Runs (step P parse) (fun _ _ => True) initial s

variable {P parse} {s s' : Server} {id : ℕ}

/-! ## What a turn can do -/

/-- The accept loop has been left. -/
def Main.left : Main → Bool
  | .draining => true
  | .finished _ => true
  | _ => false

/-- The turns of `run_with_shutdown_kind`. -/
inductive MainMoves (P : Setup) (parse : String → Except String String) (s : Server) : Server → Prop
  | resolved {addr : String} : s.main = .resolving →
      P.config.server.socketAddr parse = .ok addr →
      MainMoves P parse s { s with main := .binding addr, checker := .idle 0 }
  | bound {addr : String} : s.main = .binding addr →
      MainMoves P parse s { s with main := .checking addr }
  | started {addr : String} {W : List (String × String)} : s.main = .checking addr →
      MainMoves P parse s { (s.print (W.map fun w => logStartupWarning w.1 w.2)).print
        [logServerStart addr P.config.routes.length] with main := .accepting }
  | failed {err : String} {W : List (String × String)} : s.main.left = false →
      MainMoves P parse s
        ((s.print (W.map fun w => logStartupWarning w.1 w.2)).finish (.error err))
  | accepted {id : ℕ} {tracker : Draining.Tracker} : s.main = .accepting →
      Draining.step s.tracker (.accept id) = some tracker →
      MainMoves P parse s { s with tracker := tracker, links := s.links.insert id {} }
  | signalled {reason : ShutdownReason} {tracker : Draining.Tracker} : s.main = .accepting →
      Draining.step s.tracker .shutdown = some tracker →
      MainMoves P parse s { s.print [logControlSignal reason.signalName reason.actionName,
          logShutdownStarted (fromMillis P.config.server.gracefulShutdownTimeoutMs)] with
        main := .draining
        flag := s.flag.send true
        tracker := tracker }
  | waited {e : Draining.Event} {tracker : Draining.Tracker} : s.main = .draining →
      ofWaiter e = true → Draining.step s.tracker e = some tracker →
      MainMoves P parse s { s with tracker := tracker }
  | completed {drained : Bool} : s.main = .draining → s.tracker.waiter = .returned drained →
      MainMoves P parse s
        ((s.print [logShutdownComplete drained s.tracker.active]).finish (.ok ()))

@[simp] theorem print_nil (s : Server) : s.print [] = s := by simp [print]

theorem mainStep_cases {e : MainEvent} (h : s.mainStep P parse e = some s') :
    MainMoves P parse s s' := by
  have hfail : ∀ err, s.main.left = false → MainMoves P parse s (s.finish (.error err)) :=
    fun err hm => by simpa using MainMoves.failed (W := []) hm
  unfold mainStep at h
  split at h
  next hm =>
    split at h
    · exact Option.some.inj h ▸ hfail _ (by rw [hm]; rfl)
    next haddr => exact Option.some.inj h ▸ .resolved hm haddr
  next hm =>
    split at h
    · exact Option.some.inj h ▸ hfail _ (by rw [hm]; rfl)
    · exact Option.some.inj h ▸ .bound hm
  next hm =>
    dsimp only at h
    split at h
    · exact Option.some.inj h ▸ .failed (by rw [hm]; rfl)
    · exact Option.some.inj h ▸ .started hm
  next hm =>
    obtain ⟨tracker, hs, he⟩ := Option.map_eq_some_iff.1 h
    exact he ▸ .accepted hm hs
  next hm => exact Option.some.inj h ▸ hfail _ (by rw [hm]; rfl)
  next hm =>
    obtain ⟨tracker, hs, he⟩ := Option.map_eq_some_iff.1 h
    exact he ▸ .signalled hm hs
  next hm =>
    obtain ⟨hof, h⟩ := Option.ite_none_right_eq_some.1 h
    obtain ⟨tracker, hs, he⟩ := Option.map_eq_some_iff.1 h
    exact he ▸ .waited hm hof hs
  next hm =>
    split at h
    next hw => exact Option.some.inj h ▸ .completed hm hw
    next => cases h
  next => cases h

/-- The turns of the connection task `id`. -/
inductive ConnMoves (s : Server) (id : ℕ) : Server → Prop
  | ended {l : Link} {entries : List LogEntry} : s.links.get? id = some l → l.ended = false →
      (∀ entry ∈ entries, entry.event = "connection_error") →
      ConnMoves s id
        (({ s with links := s.links.insert id { l with ended := true } } : Server).print entries)
  | tracked {e : Draining.Event} {tracker : Draining.Tracker} :
      (e = .decrement id ∧ ∃ l, s.links.get? id = some l ∧ l.ended = true) ∨ e = .notify id →
      Draining.step s.tracker e = some tracker → ConnMoves s id { s with tracker := tracker }
  | heeded {l : Link} {r : Bool × ℕ} : s.links.get? id = some l → l.ended = false →
      s.flag.heeds l.seen = some r →
      ConnMoves s id { s with links := s.links.insert id (l.look r) }

theorem connStep_cases {e : ConnEvent} (h : s.connStep id e = some s') : ConnMoves s id s' := by
  cases e with
  | ends remoteAddr result =>
    obtain ⟨l, hl, h⟩ := Option.bind_eq_some_iff.1 h
    obtain ⟨hended, h⟩ := Option.ite_none_left_eq_some.1 h
    rw [Bool.not_eq_true] at hended
    cases result with
    | ok =>
      have hmove := ConnMoves.ended (l := l) hl hended (List.forall_mem_nil _)
      rw [print_nil] at hmove
      exact Option.some.inj h ▸ hmove
    | error err => exact Option.some.inj h ▸ .ended hl hended (by simp [logConnectionError])
  | decrement =>
    obtain ⟨l, hl, h⟩ := Option.bind_eq_some_iff.1 h
    obtain ⟨hended, h⟩ := Option.ite_none_right_eq_some.1 h
    obtain ⟨tracker, hs, he⟩ := Option.map_eq_some_iff.1 h
    exact he ▸ .tracked (Or.inl ⟨rfl, l, hl, hended⟩) hs
  | notify =>
    obtain ⟨tracker, hs, he⟩ := Option.map_eq_some_iff.1 h
    exact he ▸ .tracked (Or.inr rfl) hs
  | heed =>
    obtain ⟨l, hl, h⟩ := Option.bind_eq_some_iff.1 h
    obtain ⟨hended, h⟩ := Option.ite_none_left_eq_some.1 h
    rw [Bool.not_eq_true] at hended
    obtain ⟨r, hr, he⟩ := Option.map_eq_some_iff.1 h
    exact he ▸ .heeded hl hended hr

/-- The turns of the health checks, with the lines they write. -/
inductive CheckerMoves (w : Watch Bool) : Checker → Checker → List LogEntry → Prop
  | starts {seen : ℕ} : CheckerMoves w (.idle seen) (.passing seen) []
  | heeded {seen : ℕ} {r : Bool × ℕ} : w.heeds seen = some r →
      CheckerMoves w (.idle seen) (if r.1 then .stopped else .idle r.2) []
  | ends {seen : ℕ} : CheckerMoves w (.passing seen) (.idle seen) []
  | panics {seen : ℕ} {text : String} : CheckerMoves w (.passing seen) (.panicked text false) []
  | reports {text : String} : CheckerMoves w (.panicked text false) (.panicked text true)
      [logBackgroundTaskFailure "health_checks" text]

theorem checkerStep_cases {e : CheckerEvent} (h : s.checkerStep e = some s') :
    ∃ checker entries, CheckerMoves s.flag s.checker checker entries ∧
      s' = { s.print entries with checker := checker } := by
  unfold checkerStep at h
  split at h
  next hc =>
    refine ⟨_, [], ?_, by rw [print_nil]; exact (Option.some.inj h).symm⟩
    rw [hc]
    exact .starts
  next hc =>
    obtain ⟨r, hr, he⟩ := Option.map_eq_some_iff.1 h
    refine ⟨_, [], ?_, by rw [print_nil]; exact he.symm⟩
    rw [hc]
    exact .heeded hr
  next hc =>
    refine ⟨_, [], ?_, by rw [print_nil]; exact (Option.some.inj h).symm⟩
    rw [hc]
    exact .ends
  next hc =>
    refine ⟨_, [], ?_, by rw [print_nil]; exact (Option.some.inj h).symm⟩
    rw [hc]
    exact .panics
  next hc =>
    refine ⟨_, _, ?_, (Option.some.inj h).symm⟩
    rw [hc]
    exact .reports
  next => cases h

/-! ## The flag and the tracker -/

/-- The flag at each point of `run_with_shutdown_kind`. -/
def Main.flag : Main → Watch Bool
  | .draining => (Watch.channel false).send true
  | .finished (.ok _) => ((Watch.channel false).send true).dropSender
  | .finished (.error _) => (Watch.channel false).dropSender
  | _ => .channel false

/-- Where `wait_for_zero` is at each point of `run_with_shutdown_kind`. -/
def Main.Agrees : Main → Draining.Waiter → Prop
  | .draining, w => w ≠ .serving
  | .finished (.ok _), w => ∃ drained, w = .returned drained
  | _, w => w = .serving

theorem Main.latched_flag (m : Main) : m.flag.Latched := by
  cases m with
  | finished result => cases result <;> rfl
  | _ => rfl

theorem Main.raised_flag (m : Main) : m.flag.Raised ↔ m.left = true := by
  cases m with
  | finished result => cases result <;> simp [flag, left, Watch.Raised, Watch.dropSender]
  | _ => simp [flag, left, Watch.Raised, Watch.channel, Watch.send]

theorem Main.flag_of_not_left {m : Main} (h : m.left = false) : m.flag = .channel false := by
  cases m <;> first | rfl | cases h

theorem Main.Agrees.of_not_left {m : Main} {w : Draining.Waiter} (h : m.Agrees w)
    (hm : m.left = false) : w = .serving := by
  cases m <;> first | exact h | cases hm

/-- Notifying the shutdown task neither starts nor ends its wait. -/
theorem notify_eq_serving (w : Draining.Waiter) : w.notify = .serving ↔ w = .serving := by
  cases w <;> simp [Draining.Waiter.notify]

theorem notify_eq_returned (w : Draining.Waiter) (drained : Bool) :
    w.notify = .returned drained ↔ w = .returned drained := by
  cases w <;> simp [Draining.Waiter.notify]

theorem Main.Agrees.notify {m : Main} {w : Draining.Waiter} (h : m.Agrees w) : m.Agrees w.notify := by
  cases m with
  | draining => exact fun hw => h ((notify_eq_serving w).1 hw)
  | finished result =>
    cases result with
    | ok =>
      obtain ⟨drained, hw⟩ := h
      exact ⟨drained, (notify_eq_returned w drained).2 hw⟩
    | error => exact (notify_eq_serving w).2 h
  | _ => exact (notify_eq_serving w).2 h

/-- What the tracker and the flag are, by the point of `run_with_shutdown_kind`. -/
structure Steady (s : Server) : Prop where
  flag : s.flag = s.main.flag
  waiter : s.main.Agrees s.tracker.waiter
  tracker : Draining.Reachable s.tracker
  /-- `wait_for_zero` has returned `true` only when nothing was left -/
  empty : s.tracker.waiter = .returned true → s.tracker.active = 0

end

section
variable {P : Setup} {parse : String → Except String String} {s s' : Server}
  {t t' : Draining.Tracker} {e : Draining.Event} {id : ℕ}

theorem moves_ne_serving {active : ℕ} {w w' : Draining.Waiter} (h : Draining.Moves active w w') :
    w' ≠ .serving := by
  cases h <;> simp

theorem moves_returned {active : ℕ} {w : Draining.Waiter}
    (h : Draining.Moves active w (.returned true)) : active = 0 := by
  cases h with
  | empty h0 => exact h0
  | drained h0 => exact h0

/-- An access of `wait_for_zero` moves the shutdown task only. -/
theorem step_ofWaiter (he : ofWaiter e = true) (h : Draining.step t e = some t') :
    ∃ w, Draining.Moves t.active t.waiter w ∧ t' = { t with waiter := w } := by
  rcases Draining.step_cases h with ⟨id, rfl, -⟩ | ⟨id, rfl, -⟩ | ⟨id, rfl, -⟩ | hmoves
  · simp [ofWaiter] at he
  · simp [ofWaiter] at he
  · simp [ofWaiter] at he
  · exact hmoves

/-- What a connection task does to the tracker. -/
theorem step_ofConn (he : e = .decrement id ∨ e = .notify id) (h : Draining.step t e = some t') :
    (∃ c, t.conns.get? id = some .opened ∧ c ≠ .opened ∧
      t' = { t with active := t.active - 1, conns := t.conns.insert id c } ∧
      (c = .notifying ↔ t.active = 1)) ∨
    (t.conns.get? id = some .notifying ∧
      t' = { t with conns := t.conns.insert id .closed, waiter := t.waiter.notify }) := by
  rcases he with rfl | rfl
  · obtain ⟨hopen, h⟩ := Option.ite_none_right_eq_some.1 h
    refine Or.inl ⟨_, hopen, ?_, (Option.some.inj h).symm, ?_⟩
    · split_ifs <;> simp
    · by_cases h1 : t.active = 1 <;> simp [h1]
  · obtain ⟨hold, h⟩ := Option.ite_none_right_eq_some.1 h
    exact Or.inr ⟨hold, (Option.some.inj h).symm⟩

theorem Steady.main {e : MainEvent} (h : s.Steady) (hs : s.mainStep P parse e = some s') :
    s'.Steady := by
  obtain ⟨hflag, hwaiter, htracker, hempty⟩ := h
  cases mainStep_cases hs with
  | resolved hm _ =>
    rw [hm] at hflag hwaiter
    exact ⟨hflag, hwaiter, htracker, hempty⟩
  | bound hm =>
    rw [hm] at hflag hwaiter
    exact ⟨hflag, hwaiter, htracker, hempty⟩
  | started hm =>
    rw [hm] at hflag hwaiter
    exact ⟨hflag, hwaiter, htracker, hempty⟩
  | failed hm =>
    refine ⟨?_, hwaiter.of_not_left hm, htracker, hempty⟩
    change s.flag.dropSender = _
    rw [hflag, Main.flag_of_not_left hm]
    rfl
  | accepted hm haccept =>
    obtain ⟨⟨hserving, hnone⟩, he⟩ := Option.ite_none_right_eq_some.1 haccept
    obtain rfl := Option.some.inj he
    exact ⟨hflag, hwaiter, htracker.tail trivial haccept,
      fun hret => absurd (hserving.symm.trans hret) (by simp)⟩
  | signalled hm hsignal =>
    obtain ⟨hserving, he⟩ := Option.ite_none_right_eq_some.1 hsignal
    obtain rfl := Option.some.inj he
    rw [hm] at hflag
    refine ⟨?_, ?_, htracker.tail trivial hsignal, ?_⟩
    · change s.flag.send true = _
      rw [hflag]
      rfl
    · show Draining.Waiter.checking ≠ .serving
      simp
    · intro hret
      cases hret
  | waited hm hof hwait =>
    have hreach := htracker.tail trivial hwait
    obtain ⟨w, hmoves, rfl⟩ := step_ofWaiter hof hwait
    refine ⟨hflag, ?_, hreach, ?_⟩
    · show s.main.Agrees w
      rw [hm]
      exact moves_ne_serving hmoves
    · intro hret
      change w = .returned true at hret
      exact moves_returned (hret ▸ hmoves)
  | completed hm hw =>
    rw [hm] at hflag
    refine ⟨?_, ⟨_, hw⟩, htracker, hempty⟩
    change s.flag.dropSender = _
    rw [hflag]
    rfl

theorem Steady.conn {e : ConnEvent} (h : s.Steady) (hs : s.connStep id e = some s') :
    s'.Steady := by
  obtain ⟨hflag, hwaiter, htracker, hempty⟩ := h
  cases connStep_cases hs with
  | ended _ _ _ => exact ⟨hflag, hwaiter, htracker, hempty⟩
  | heeded _ _ _ => exact ⟨hflag, hwaiter, htracker, hempty⟩
  | tracked he ht =>
    have hreach := htracker.tail trivial ht
    rcases step_ofConn (he.imp And.left fun h => h) ht with ⟨c, -, -, rfl, -⟩ | ⟨-, rfl⟩
    · refine ⟨hflag, hwaiter, hreach, fun hret => ?_⟩
      show s.tracker.active - 1 = 0
      rw [hempty hret]
    · exact ⟨hflag, hwaiter.notify, hreach, fun hret => hempty ((notify_eq_returned _ _).1 hret)⟩

theorem Steady.checker {e : CheckerEvent} (h : s.Steady) (hs : s.checkerStep e = some s') :
    s'.Steady := by
  obtain ⟨checker, entries, -, rfl⟩ := checkerStep_cases hs
  exact ⟨h.flag, h.waiter, h.tracker, h.empty⟩

theorem Reachable.steady (h : Reachable P parse s) : s.Steady := by
  have h₀ : initial.Steady := ⟨rfl, rfl, .refl, fun hret => by cases hret⟩
  refine Runs.invariant h h₀ fun s e s' hI _ hs => ?_
  cases e with
  | main e => exact hI.main hs
  | conn id e => exact hI.conn hs
  | checker e => exact hI.checker hs

theorem Reachable.latched (h : Reachable P parse s) : s.flag.Latched :=
  h.steady.flag ▸ s.main.latched_flag

theorem Reachable.raised_iff (h : Reachable P parse s) : s.flag.Raised ↔ s.main.left = true :=
  h.steady.flag ▸ s.main.raised_flag

/-! ## What the other tasks have been told -/

/-- What a connection task has seen of the flag. -/
structure Link.Heard (w : Watch Bool) (l : Link) : Prop where
  past : l.seen ≤ w.version
  least : l.seen ≤ l.told
  raised : 0 < l.told → w.Raised
  exact : w.sender = true → l.told = l.seen

theorem Link.heard_new (w : Watch Bool) : ({} : Link).Heard w :=
  ⟨Nat.zero_le _, Nat.le_refl _, fun h => absurd h (Nat.lt_irrefl 0), fun _ => rfl⟩

theorem Link.Heard.send {w : Watch Bool} {l : Link} (h : l.Heard w) : l.Heard (w.send true) :=
  ⟨Nat.le_succ_of_le h.past, h.least, fun _ => Or.inl rfl, h.exact⟩

theorem Link.Heard.dropSender {w : Watch Bool} {l : Link} (h : l.Heard w) :
    l.Heard w.dropSender :=
  ⟨h.past, h.least, fun _ => Or.inr rfl, fun hw => by cases hw⟩

theorem Link.Heard.look {w : Watch Bool} {l : Link} {r : Bool × ℕ} (h : l.Heard w)
    (hw : w.Latched) (hr : w.heeds l.seen = some r) : (l.look r).Heard w := by
  obtain ⟨rfl, hraised⟩ := hw.of_heeds h.past hr
  have hone : w.version ≤ 1 := hw ▸ Bool.toNat_le w.value
  refine ⟨Nat.le_refl _, ?_, fun _ => hraised, fun hsender => ?_⟩
  · show w.version ≤ l.told + 1
    omega
  · -- while the sender is alive the task looks only at a version it has not seen
    show l.told + 1 = w.version
    have hne : w.version ≠ l.seen := by
      intro heq
      rw [Watch.heeds_eq_none_iff.2 ⟨heq, hsender⟩] at hr
      cases hr
    have hpast := h.past
    have hexact := h.exact hsender
    omega

/-- What the health checks have seen of the flag. -/
def Checker.Heard (w : Watch Bool) : Checker → Prop
  | .idle seen => seen = 0
  | .passing seen => seen = 0
  | .stopped => w.Raised
  | _ => True

theorem Checker.Heard.of_raised {w w' : Watch Bool} {c : Checker} (h : c.Heard w)
    (hw : w'.Raised) : c.Heard w' := by
  cases c with
  | stopped => exact hw
  | _ => exact h

theorem Checker.Heard.moves {w : Watch Bool} {c c' : Checker} {entries : List LogEntry}
    (h : c.Heard w) (hw : w.Latched) (hm : CheckerMoves w c c' entries) : c'.Heard w := by
  cases hm with
  | starts => exact h
  | ends => exact h
  | panics => trivial
  | reports => trivial
  | heeded hr =>
    obtain ⟨rfl, hraised⟩ := hw.of_heeds (by rw [show _ = 0 from h]; exact Nat.zero_le _) hr
    exact hraised

/-- The other tasks and the flag fit together. -/
structure Heard (s : Server) : Prop where
  links : ∀ id l, s.links.get? id = some l → l.Heard s.flag
  opened : ∀ id l, s.links.get? id = some l → l.ended = false →
    s.tracker.conns.get? id = some .opened
  checker : s.checker.Heard s.flag

theorem Heard.main {e : MainEvent} (h : s.Heard) (hs : s.mainStep P parse e = some s') :
    s'.Heard := by
  obtain ⟨hlinks, hopened, hchecker⟩ := h
  cases mainStep_cases hs with
  | resolved _ _ => exact ⟨hlinks, hopened, rfl⟩
  | bound _ => exact ⟨hlinks, hopened, hchecker⟩
  | started _ => exact ⟨hlinks, hopened, hchecker⟩
  | failed _ =>
    exact ⟨fun id l hl => (hlinks id l hl).dropSender, hopened, hchecker.of_raised (Or.inr rfl)⟩
  | completed _ _ =>
    exact ⟨fun id l hl => (hlinks id l hl).dropSender, hopened, hchecker.of_raised (Or.inr rfl)⟩
  | signalled _ hsignal =>
    obtain ⟨-, he⟩ := Option.ite_none_right_eq_some.1 hsignal
    obtain rfl := Option.some.inj he
    exact ⟨fun id l hl => (hlinks id l hl).send, hopened, hchecker.of_raised (Or.inl rfl)⟩
  | waited _ hof hwait =>
    obtain ⟨w, -, rfl⟩ := step_ofWaiter hof hwait
    exact ⟨hlinks, hopened, hchecker⟩
  | @accepted id _ _ haccept =>
    obtain ⟨-, he⟩ := Option.ite_none_right_eq_some.1 haccept
    obtain rfl := Option.some.inj he
    refine ⟨fun id' l hl => ?_, fun id' l hl hended => ?_, hchecker⟩
    · by_cases hid : id' = id
      · subst hid
        rw [Table.get?_insert_self, Option.some.injEq] at hl
        exact hl ▸ Link.heard_new _
      · exact hlinks id' l (by rwa [Table.get?_insert_ne _ _ hid] at hl)
    · by_cases hid : id' = id
      · subst hid
        exact Table.get?_insert_self ..
      · rw [Table.get?_insert_ne _ _ hid] at hl
        exact (Table.get?_insert_ne _ _ hid).trans (hopened id' l hl hended)

theorem Heard.conn {e : ConnEvent} (h : s.Heard) (hw : s.flag.Latched)
    (hs : s.connStep id e = some s') : s'.Heard := by
  obtain ⟨hlinks, hopened, hchecker⟩ := h
  -- what a new value of the task's own link has to meet
  have hown : ∀ {l l' : Link}, s.links.get? id = some l → l'.Heard s.flag → l.ended = false →
      (∀ id' l'', (s.links.insert id l').get? id' = some l'' → l''.Heard s.flag) ∧
      ∀ id' l'', (s.links.insert id l').get? id' = some l'' → l''.ended = false →
        s.tracker.conns.get? id' = some .opened := by
    intro l l' hl hheard hended
    refine ⟨fun id' l'' hl'' => ?_, fun id' l'' hl'' hended'' => ?_⟩
    · by_cases hid : id' = id
      · subst hid
        rw [Table.get?_insert_self, Option.some.injEq] at hl''
        exact hl'' ▸ hheard
      · exact hlinks id' l'' (by rwa [Table.get?_insert_ne _ _ hid] at hl'')
    · by_cases hid : id' = id
      · exact hid ▸ hopened id l hl hended
      · exact hopened id' l'' (by rwa [Table.get?_insert_ne _ _ hid] at hl'') hended''
  cases connStep_cases hs with
  | @ended l entries hl hended _ =>
    have hheard : ({ l with ended := true } : Link).Heard s.flag :=
      ⟨(hlinks id l hl).past, (hlinks id l hl).least, (hlinks id l hl).raised,
        (hlinks id l hl).exact⟩
    obtain ⟨hlinks', hopened'⟩ := hown hl hheard hended
    exact ⟨hlinks', hopened', hchecker⟩
  | heeded hl hended hr =>
    obtain ⟨hlinks', hopened'⟩ := hown hl ((hlinks id _ hl).look hw hr) hended
    exact ⟨hlinks', hopened', hchecker⟩
  | @tracked e t he ht =>
    refine ⟨hlinks, fun id' l hl hended => ?_, hchecker⟩
    have hopen := hopened id' l hl hended
    -- a task that calls `close` has ended
    have hne : id' ≠ id := by
      rintro rfl
      rcases he with ⟨-, l', hl', hended'⟩ | rfl
      · rw [hl, Option.some.injEq] at hl'
        rw [hl', hended'] at hended
        cases hended
      · obtain ⟨hold, -⟩ := Option.ite_none_right_eq_some.1 ht
        rw [hopen] at hold
        cases hold
    rcases step_ofConn (he.imp And.left fun h => h) ht with ⟨c, -, -, rfl, -⟩ | ⟨-, rfl⟩
    · exact (Table.get?_insert_ne _ _ hne).trans hopen
    · exact (Table.get?_insert_ne _ _ hne).trans hopen

theorem Heard.checks {e : CheckerEvent} (h : s.Heard) (hw : s.flag.Latched)
    (hs : s.checkerStep e = some s') : s'.Heard := by
  obtain ⟨checker, entries, hm, rfl⟩ := checkerStep_cases hs
  exact ⟨h.links, h.opened, h.checker.moves hw hm⟩

theorem Reachable.heard (h : Reachable P parse s) : s.Heard := by
  have h₀ : initial.Heard :=
    ⟨fun _ _ hl => (by cases hl), fun _ _ hl => (by cases hl), trivial⟩
  refine Runs.invariant₂ h h₀ (fun s hr => Reachable.latched hr) fun s e s' hJ hI _ hs => ?_
  cases e with
  | main e => exact hI.main hs
  | conn id e => exact hI.conn hJ hs
  | checker e => exact hI.checks hJ hs

/-- **Everyone hears of the shutdown.**  Nobody is told to stop while the server accepts.  From the
    signal, or an error, on, a connection task that has not been told and the idle health checks are
    told the next time they look.  A connection is told once while the server drains; after the
    server has returned, it is told at each look and never waits. -/
theorem shutdown_heard (h : Reachable P parse s) :
    (s.main.left = false →
      (∀ id l, s.links.get? id = some l → l.told = 0) ∧ s.checker ≠ .stopped) ∧
    (s.main.left = true →
      (∀ id l, s.links.get? id = some l → l.ended = false → l.told = 0 →
        ∃ s', step P parse s (.conn id .heed) = some s' ∧
          s'.links.get? id = some { l with seen := s.flag.version, told := 1 }) ∧
      ∀ seen, s.checker = .idle seen →
        ∃ s', step P parse s (.checker .heed) = some s' ∧ s'.checker = .stopped) ∧
    (s.main = .draining → ∀ id l, s.links.get? id = some l →
      l.told ≤ 1 ∧ (l.told = 1 → step P parse s (.conn id .heed) = none)) ∧
    ∀ result, s.main = .finished result → ∀ id l, s.links.get? id = some l → l.ended = false →
      ∃ s', step P parse s (.conn id .heed) = some s' ∧
        s'.links.get? id = some { l with seen := s.flag.version, told := l.told + 1 } := by
  have hflag := h.steady.flag
  have hlatched := h.latched
  obtain ⟨hlinks, -, hchecker⟩ := h.heard
  have hlook : ∀ {id l}, s.links.get? id = some l → l.ended = false →
      s.flag.heeds l.seen = some (true, s.flag.version) →
      ∃ s', step P parse s (.conn id .heed) = some s' ∧
        s'.links.get? id = some { l with seen := s.flag.version, told := l.told + 1 } := by
    intro id l hl hended hheeds
    refine ⟨{ s with links := s.links.insert id (l.look (true, s.flag.version)) }, ?_,
      Table.get?_insert_self ..⟩
    simp [step, connStep, hl, hended, hheeds]
  refine ⟨fun hleft => ?_, fun hleft => ⟨?_, ?_⟩, fun hm id l hl => ?_, fun result hm id l hl he => ?_⟩
  · have hquiet : ¬ s.flag.Raised := by
      rw [h.raised_iff, hleft]
      simp
    refine ⟨fun id l hl => ?_, fun hstopped => hquiet ?_⟩
    · by_contra hne
      exact hquiet ((hlinks id l hl).raised (Nat.pos_of_ne_zero hne))
    · rw [hstopped] at hchecker
      exact hchecker
  · intro id l hl hended htold
    have hleast := (hlinks id l hl).least
    have hseen : l.seen = 0 := by omega
    have hheeds := Watch.heeds_of_raised hlatched (h.raised_iff.2 hleft)
    obtain ⟨s', hs', hl'⟩ := hlook hl hended (by rwa [hseen])
    exact ⟨s', hs', by rw [hl', htold]⟩
  · intro seen hidle
    rw [hidle] at hchecker
    obtain rfl : seen = 0 := hchecker
    refine ⟨{ s with checker := .stopped }, ?_, rfl⟩
    simp [step, checkerStep, hidle, Watch.heeds_of_raised hlatched (h.raised_iff.2 hleft)]
  · have hw : s.flag = (Watch.channel false).send true := by rw [hflag, hm]; rfl
    have hexact := (hlinks id l hl).exact (by rw [hw]; rfl)
    have hpast := (hlinks id l hl).past
    have hversion : s.flag.version = 1 := by rw [hw]; rfl
    refine ⟨by omega, fun htold => ?_⟩
    have hnone : s.flag.heeds l.seen = none :=
      Watch.heeds_eq_none_iff.2 ⟨by omega, by rw [hw]; rfl⟩
    simp [step, connStep, hl, hnone]
  · have hdropped : s.flag.sender = false := by
      rw [hflag, hm]
      cases result <;> rfl
    exact hlook hl he (Watch.heeds_of_sender hlatched hdropped (hlinks id l hl).past)

end

/-- A server that listens at `127.0.0.1:8080`, on its way to the accept loop. -/
def smallStart : List Event :=
  [.main .resolve, .main (.bind (.ok ())),
    .main (.startup (small ["http://127.0.0.1:3001"] 1 1 1).initial [] 0)]

/-- The turns of `smallStart` and others, with a check of the state they end in. -/
theorem small_reaches (es : List Event) (p : Server → Bool)
    (h : (exec (step (small ["http://127.0.0.1:3001"] 1 1 1) .ok) initial (smallStart ++ es)).any
      p) :
    ∃ s, Reachable (small ["http://127.0.0.1:3001"] 1 1 1) .ok s ∧ p s := by
  obtain ⟨s, hs, hp⟩ := exists_of_exec_any _ _ _ _ h
  exact ⟨s, .of_exec .refl hs, hp⟩

/-- Of two connections one has been told, and the other one is told at its next look. -/
theorem shutdown_heard_draining : let P := small ["http://127.0.0.1:3001"] 1 1 1
    ∃ s, Reachable P .ok s ∧ s.main.left = true ∧ s.links.get? 1 = some ⟨1, 1, false⟩ ∧
      ∃ s', step P .ok s (.conn 2 .heed) = some s' ∧
        s'.links.get? 2 = some ⟨s.flag.version, 1, false⟩ := by
  intro P
  obtain ⟨s, hs, hp⟩ := small_reaches
    [.main (.accept 1), .main (.accept 2), .main (.signal (.terminate "ctrl_c")), .conn 1 .heed]
    (fun s => s.main.left && s.links.get? 1 == some ⟨1, 1, false⟩ &&
      s.links.get? 2 == some ⟨0, 0, false⟩) (by decide +kernel)
  simp only [Bool.and_eq_true, beq_iff_eq] at hp
  obtain ⟨⟨hleft, h1⟩, h2⟩ := hp
  exact ⟨s, hs, hleft, h1, ((shutdown_heard hs).2.1 hleft).1 2 _ h2 rfl rfl⟩

end Server

end FerrumProxy
