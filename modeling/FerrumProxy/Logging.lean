/-
  The lines written to standard error (`Telemetry::log` and its callers).

  Each value of a line is written with `{:?}`, so that what a client puts into a path or a
  header can neither end a line nor pass for a field of its own: the whole output of
  any sequence of calls is read back as these calls (`log_readBack`).
-/
import FerrumProxy.Telemetry
import FerrumProxy.Lib.Codecs
import FerrumProxy.Lib.Digits

namespace FerrumProxy

open Lib

/-- What `log` is called with. -/
structure LogEntry where
  level : String
  event : String
  fields : List (String × String)
deriving DecidableEq, Repr

namespace Telemetry

/-! ## Debug format of a text -/

/-- A character in the debug format of `str`, where `printable` says which characters are shown as
    they are. -/
def escapeDebug (printable : Char → Bool) (c : Char) : List Char :=
  if c = '\x00' then ['\\', '0']
  else if c = '\t' then ['\\', 't']
  else if c = '\r' then ['\\', 'r']
  else if c = '\n' then ['\\', 'n']
  else if c = '"' then ['\\', '"']
  else if c = '\\' then ['\\', '\\']
  else if printable c then [c]
  else ['\\', 'u', '{'] ++ Nat.toDigits 16 c.toNat ++ ['}']

/-- `quote` -/
def quote (printable : Char → Bool) (value : String) : String :=
  String.ofList ('"' :: value.toList.flatMap (escapeDebug printable) ++ ['"'])

/-! ## Lines -/

/-- `Telemetry::log` at an instant in milliseconds since the epoch. -/
def log (printable : Char → Bool) (tsMillis : ℕ) (e : LogEntry) : String :=
  e.fields.foldl (fun line field => line ++ s!" {field.1}={quote printable field.2}")
    s!"ts={tsMillis} level={e.level} event={e.event}" ++ "\n"

/-- `log_server_start` -/
def logServerStart (bindAddr : String) (routeCount : ℕ) : LogEntry :=
  ⟨"INFO", "server_start", [("bind_addr", bindAddr), ("route_count", toString routeCount)]⟩

/-- `log_shutdown_started` -/
def logShutdownStarted (timeout : ℕ) : LogEntry :=
  ⟨"INFO", "shutdown_started", [("drain_timeout_ms", toString (timeout / 1000000))]⟩

/-- `log_shutdown_complete` -/
def logShutdownComplete (drained : Bool) (remainingConnections : ℕ) : LogEntry :=
  ⟨"INFO", "shutdown_complete", [("drained", if drained then "true" else "false"),
    ("remaining_connections", toString remainingConnections)]⟩

/-- `log_connection_error` -/
def logConnectionError (remoteAddr err : String) : LogEntry :=
  ⟨"ERROR", "connection_error", [("remote_addr", remoteAddr), ("error", err)]⟩

/-- `log_background_task_failure` -/
def logBackgroundTaskFailure (task err : String) : LogEntry :=
  ⟨"ERROR", "background_task_failed", [("task", task), ("error", err)]⟩

/-- `log_startup_warning` -/
def logStartupWarning (route reason : String) : LogEntry :=
  ⟨"WARN", "startup_warning", [("route", route), ("reason", reason)]⟩

/-- `log_retry_attempt` -/
def logRetryAttempt (method path backend : String) (attempt : ℕ) (reason : String) : LogEntry :=
  ⟨"INFO", "retry_attempt", [("method", method), ("path", path), ("backend", backend),
    ("attempt", toString attempt), ("reason", reason)]⟩

/-- `log_control_signal` -/
def logControlSignal (signal action : String) : LogEntry :=
  ⟨"INFO", "control_signal", [("signal", signal), ("action", action)]⟩

/-- `log_request_complete` -/
def logRequestComplete (method path : String) (backend : Option String) (status latency : ℕ)
    (errorKind : Option String) (requestId : String) : LogEntry :=
  ⟨"INFO", "request_complete", [("request_id", requestId), ("method", method), ("path", path),
    ("backend", backend.getD "-"), ("status", toString status),
    ("latency_ms", toString (latency / 1000000)), ("error_kind", errorKind.getD "-")]⟩

/-- The line of `record_health_transition`. -/
def logHealthTransition (backend : String) (transition : Transition) : LogEntry :=
  ⟨"INFO", "health_transition", [("backend", backend), ("from", transition.source),
    ("to", transition.target), ("reason", transition.reason)]⟩

end Telemetry

open Telemetry

/-- The entries that the telemetry makes. -/
inductive LogEntry.Made : LogEntry → Prop
  | serverStart (bindAddr : String) (routeCount : ℕ) : Made (logServerStart bindAddr routeCount)
  | shutdownStarted (timeout : ℕ) : Made (logShutdownStarted timeout)
  | shutdownComplete (drained : Bool) (remaining : ℕ) : Made (logShutdownComplete drained remaining)
  | connectionError (remoteAddr err : String) : Made (logConnectionError remoteAddr err)
  | backgroundTaskFailure (task err : String) : Made (logBackgroundTaskFailure task err)
  | startupWarning (route reason : String) : Made (logStartupWarning route reason)
  | retryAttempt (method path backend : String) (attempt : ℕ) (reason : String) :
      Made (logRetryAttempt method path backend attempt reason)
  | controlSignal (signal action : String) : Made (logControlSignal signal action)
  | requestComplete (method path : String) (backend : Option String) (status latency : ℕ)
      (errorKind : Option String) (requestId : String) :
      Made (logRequestComplete method path backend status latency errorKind requestId)
  | healthTransition (backend : String) (transition : Transition) :
      Made (logHealthTransition backend transition)

/-! ## Reading a quoted value -/

/-- Where the reader of a quoted value is. -/
inductive QuoteMode where
  | plain
  | escaped
  | brace
  | hex (n : ℕ)
deriving DecidableEq, Repr

/-- The character of a short escape. -/
def shortEscape : Char → Option Char
  | '0' => some '\x00'
  | 't' => some '\t'
  | 'r' => some '\r'
  | 'n' => some '\n'
  | '"' => some '"'
  | '\\' => some '\\'
  | _ => none

/-- Read a value up to its closing quote. -/
def readQuoted : QuoteMode → List Char → Option (List Char × List Char)
  | _, [] => none
  | .plain, c :: l =>
    if c = '"' then some ([], l)
    else if c = '\\' then readQuoted .escaped l
    else (readQuoted .plain l).map fun r => (c :: r.1, r.2)
  | .escaped, c :: l =>
    if c = 'u' then readQuoted .brace l
    else (shortEscape c).bind fun c' => (readQuoted .plain l).map fun r => (c' :: r.1, r.2)
  | .brace, c :: l => if c = '{' then readQuoted (.hex 0) l else none
  | .hex n, c :: l =>
    if c = '}' then (readQuoted .plain l).map fun r => (Char.ofNat n :: r.1, r.2)
    else (hexValue c).bind fun d => readQuoted (.hex (16 * n + d)) l

theorem digitChar_ne_brace : ∀ d < 16, Nat.digitChar d ≠ '}' := by decide

theorem readQuoted_digit {d n : ℕ} (hd : d < 16) (l : List Char) :
    readQuoted (.hex n) (Nat.digitChar d :: l) = readQuoted (.hex (16 * n + d)) l := by
  rw [readQuoted, if_neg (digitChar_ne_brace d hd), hexValue_digitChar d hd, Option.bind_some]

/-- Hexadecimal digits are read as their number. -/
theorem readQuoted_toDigits (n : ℕ) (l : List Char) :
    readQuoted (.hex 0) (Nat.toDigits 16 n ++ l) = readQuoted (.hex n) l := by
  refine toDigits_induction (Q := fun n ds => ∀ l,
    readQuoted (.hex 0) (ds ++ l) = readQuoted (.hex n) l) ?_ ?_ n l
  · intro d hd l
    rw [List.singleton_append, readQuoted_digit hd, Nat.mul_zero, Nat.zero_add]
  · intro n d ds hd hds l
    rw [List.append_assoc, hds, List.singleton_append, readQuoted_digit hd]

/-- A character is read back from its debug format. -/
theorem readQuoted_escapeDebug (printable : Char → Bool) (c : Char) (l : List Char) :
    readQuoted .plain (escapeDebug printable c ++ l) =
      (readQuoted .plain l).map fun r => (c :: r.1, r.2) := by
  unfold escapeDebug
  split_ifs with h0 ht hr hn hq hs hp
  · subst h0
    rfl
  · subst ht
    rfl
  · subst hr
    rfl
  · subst hn
    rfl
  · subst hq
    rfl
  · subst hs
    rfl
  · rw [List.singleton_append, readQuoted, if_neg hq, if_neg hs]
  · rw [List.append_assoc, List.append_assoc]
    show readQuoted (.hex 0) (Nat.toDigits 16 c.toNat ++ ('}' :: l)) = _
    rw [readQuoted_toDigits, readQuoted, if_pos rfl, Char.ofNat_toNat]

theorem readQuoted_quote (printable : Char → Bool) (v rest : List Char) :
    readQuoted .plain (v.flatMap (escapeDebug printable) ++ '"' :: rest) = some (v, rest) := by
  induction v with
  | nil => rfl
  | cons c v ih =>
    rw [List.flatMap_cons, List.append_assoc, readQuoted_escapeDebug, ih]
    rfl

/-! ## Reading the lines -/

/-- A value as `quote` writes it. -/
def quoted (printable : Char → Bool) : Codec Char String where
  write v := (quote printable v).toList
  read
    | '"' :: l => (readQuoted .plain l).map fun r => (String.ofList r.1, r.2)
    | _ => none
  Valid _ := True
  read_write v rest _ := by
    have h := readQuoted_quote printable v.toList rest
    simp [quote, h]

/-- A word that ends at a mark. -/
def wordUpTo (mark : Char) : Codec Char String :=
  (Codec.upTo mark).via String.toList String.ofList fun _ => String.ofList_toList

/-- A number that ends at a mark. -/
def numberUpTo (mark : Char) : Codec Char ℕ :=
  (Codec.upTo mark).via (Nat.toDigits 10) (Nat.ofDigitChars 10 · 0)
    fun _ => Nat.ofDigitChars_ten_toDigits

/-- The fields of a line, up to its end. -/
def fieldsCodec (printable : Char → Bool) : Codec Char (List (String × String)) :=
  .many ' ' '\n' (by decide) ((wordUpTo '=').pair (quoted printable))

/-- The event of a line with its fields. -/
def eventCodec (printable : Char → Bool) : Codec Char (String × List (String × String)) :=
  (Codec.word [' ', '\n'] (fieldsCodec printable) (Codec.many_starts _ _)).via
    (fun e => (e.1.toList, e.2)) (fun r => (String.ofList r.1, r.2)) fun e => by simp

/-- The lines that `log` writes. -/
def lineCodec (printable : Char → Bool) : Codec Char (ℕ × LogEntry) :=
  (Codec.after "ts=".toList ((numberUpTo ' ').pair (Codec.after "level=".toList
    ((wordUpTo ' ').pair (Codec.after "event=".toList (eventCodec printable)))))).via
    (fun e => (e.1, e.2.level, e.2.event, e.2.fields)) (fun r => (r.1, ⟨r.2.1, r.2.2.1, r.2.2.2⟩))
    fun _ => rfl

/-- A line, part by part. -/
theorem write_lineCodec (printable : Char → Bool) (ts : ℕ) (e : LogEntry) :
    (lineCodec printable).write (ts, e) =
      "ts=".toList ++ (Nat.toDigits 10 ts ++ [' '] ++ ("level=".toList ++ (e.level.toList ++ [' '] ++
        ("event=".toList ++ (e.event.toList ++ (e.fields.flatMap (fun f =>
          ' ' :: (f.1.toList ++ ['='] ++ (quote printable f.2).toList)) ++ ['\n'])))))) := rfl

/-- `log` writes what the codec writes. -/
theorem toList_log (printable : Char → Bool) (ts : ℕ) (e : LogEntry) :
    (log printable ts e).toList = (lineCodec printable).write (ts, e) := by
  have hstring : ∀ s : String, toString s = s := fun _ => rfl
  have hfields : ∀ (fields : List (String × String)) (line : String),
      (fields.foldl (fun line field => line ++ s!" {field.1}={quote printable field.2}")
        line).toList = line.toList ++
          fields.flatMap fun f => ' ' :: (f.1.toList ++ ['='] ++ (quote printable f.2).toList) := by
    intro fields
    induction fields with
    | nil => simp
    | cons f fields ih =>
      intro line
      rw [List.foldl_cons, ih, List.flatMap_cons]
      simp [hstring]
  unfold log
  rw [String.toList_append, hfields, write_lineCodec]
  simp [hstring]

/-! ## The whole output -/

/-- A text without the marks `marks`. -/
def lacks (marks : List Char) (text : String) : Bool := text.toList.all (· ∉ marks)

theorem lacks_iff {marks : List Char} {text : String} :
    lacks marks text ↔ ∀ c ∈ text.toList, c ∉ marks := by
  simp [lacks]

/-- The words of an entry do not contain the marks of a line. -/
structure LogEntry.Plain (e : LogEntry) : Prop where
  level : lacks [' ', '\n'] e.level
  event : lacks [' ', '\n'] e.event
  keys : ∀ key ∈ e.fields.map (·.1), lacks ['=', '\n'] key

/-- The words of the telemetry are plain; only the values come from outside. -/
theorem LogEntry.Made.plain {e : LogEntry} (h : e.Made) : e.Plain := by
  cases h <;> refine ⟨?_, ?_, ?_⟩ <;>
    simp only [logServerStart, logShutdownStarted, logShutdownComplete, logConnectionError,
      logBackgroundTaskFailure, logStartupWarning, logRetryAttempt, logControlSignal,
      logRequestComplete, logHealthTransition, List.map_cons, List.map_nil] <;>
    decide

theorem isDigit_of_mem {c : Char} {n : ℕ} (h : c ∈ Nat.toDigits 10 n) : c.isDigit :=
  Nat.isDigit_of_mem_toDigits (by decide) (by decide) h

theorem LogEntry.Plain.valid {e : LogEntry} (h : e.Plain) (printable : Char → Bool) (ts : ℕ) :
    (lineCodec printable).Valid (ts, e) := by
  have hts : ' ' ∉ Nat.toDigits 10 ts := fun hmem => absurd (isDigit_of_mem hmem) (by decide)
  have hlevel : ' ' ∉ e.level.toList := fun hmem => lacks_iff.1 h.level _ hmem (by simp)
  have hkeys : ∀ f ∈ e.fields, '=' ∉ f.1.toList := fun f hf hmem =>
    lacks_iff.1 (h.keys _ (List.mem_map_of_mem hf)) _ hmem (by simp)
  exact ⟨hts, hlevel, lacks_iff.1 h.event, fun f hf => ⟨hkeys f hf, trivial⟩⟩

/-! ### One line for each call -/

theorem digitChar_ne_newline : ∀ d < 16, Nat.digitChar d ≠ '\n' := by decide

theorem newline_not_mem_escapeDebug (printable : Char → Bool) (c : Char) :
    '\n' ∉ escapeDebug printable c := by
  unfold escapeDebug
  split_ifs with h0 ht hr hn hq hs hp
  all_goals try decide
  · simpa using Ne.symm hn
  · have hdigits : '\n' ∉ Nat.toDigits 16 c.toNat := fun hmem =>
      forall_mem_toDigits (Q := (· ≠ '\n')) digitChar_ne_newline c.toNat _ hmem rfl
    simp [hdigits]

theorem newline_not_mem_quote (printable : Char → Bool) (v : String) :
    '\n' ∉ (quote printable v).toList := by
  simp [quote, newline_not_mem_escapeDebug]

/-- Only the end of a line is a line feed. -/
theorem LogEntry.Plain.count_newline {e : LogEntry} (h : e.Plain) (printable : Char → Bool)
    (ts : ℕ) : (log printable ts e).toList.count '\n' = 1 := by
  have hts : '\n' ∉ Nat.toDigits 10 ts := fun hmem => absurd (isDigit_of_mem hmem) (by decide)
  have hlevel : '\n' ∉ e.level.toList := fun hmem => lacks_iff.1 h.level _ hmem (by simp)
  have hevent : '\n' ∉ e.event.toList := fun hmem => lacks_iff.1 h.event _ hmem (by simp)
  have hfields : '\n' ∉ e.fields.flatMap fun f =>
      ' ' :: (f.1.toList ++ '=' :: (quote printable f.2).toList) := by
    intro hmem
    obtain ⟨f, hf, hc⟩ := List.mem_flatMap.1 hmem
    have hkey : '\n' ∉ f.1.toList := fun hc =>
      lacks_iff.1 (h.keys _ (List.mem_map_of_mem hf)) _ hc (by simp)
    simp [hkey, newline_not_mem_quote] at hc
  rw [toList_log, write_lineCodec]
  simp [List.count_append, List.count_eq_zero.2 hts, List.count_eq_zero.2 hlevel,
    List.count_eq_zero.2 hevent]
  exact List.count_eq_zero.2 hfields

/-- What a sequence of calls writes. -/
def logOutput (printable : Char → Bool) (es : List (ℕ × LogEntry)) : List Char :=
  es.flatMap fun e => (log printable e.1 e.2).toList

/-- Read the calls back. -/
def readLog (printable : Char → Bool) (text : List Char) : Option (List (ℕ × LogEntry)) :=
  (lineCodec printable).readAll text.length text

/-- **The log is read back.** Whatever the values are, also those a client chooses, the output of a
    sequence of calls is one line for each call, and is read back as these calls with all their
    values. -/
theorem log_readBack (printable : Char → Bool) (es : List (ℕ × LogEntry))
    (h : ∀ e ∈ es, e.2.Made) :
    (logOutput printable es).count '\n' = es.length ∧
      readLog printable (logOutput printable es) = some es := by
  have hcount : (logOutput printable es).count '\n' = es.length := by
    induction es with
    | nil => rfl
    | cons e es ih =>
      rw [logOutput, List.flatMap_cons, List.count_append,
        (h e (List.mem_cons_self ..)).plain.count_newline, List.length_cons, Nat.add_comm]
      exact congrArg (· + 1) (ih fun e' he' => h e' (List.mem_cons_of_mem _ he'))
  refine ⟨hcount, ?_⟩
  have hwrite : logOutput printable es = es.flatMap (lineCodec printable).write :=
    List.flatMap_congr fun e _ => toList_log printable e.1 e.2
  have hlen : es.length ≤ (logOutput printable es).length :=
    hcount ▸ List.count_le_length ..
  rw [readLog]
  generalize (logOutput printable es).length = n at hlen
  rw [hwrite]
  refine Codec.readAll_flatMap _ ?_ es (fun e he => (h e he).plain.valid printable e.1) hlen
  intro e hnil
  have : (log printable e.1 e.2).toList = [] := (toList_log printable e.1 e.2).trans hnil
  simp [log] at this

/-- A path that tries to end the line and to forge a field of its own. -/
theorem log_readBack_forged :
    readLog (fun c => 32 ≤ c.toNat && c.toNat < 127) (logOutput
      (fun c => 32 ≤ c.toNat && c.toNat < 127) [(0, logRequestComplete "GET"
        "/api\" status=\"200\nts=1 level=INFO" none 503 7000000 (some "no_healthy_backends")
        "0000000000000001")]) =
      some [(0, ⟨"INFO", "request_complete", [("request_id", "0000000000000001"),
        ("method", "GET"), ("path", "/api\" status=\"200\nts=1 level=INFO"), ("backend", "-"),
        ("status", "503"), ("latency_ms", "7"), ("error_kind", "no_healthy_backends")]⟩)] :=
  (log_readBack _ _ (by
    intro e he
    rw [List.mem_singleton.1 he]
    exact .requestComplete ..)).2

end FerrumProxy
