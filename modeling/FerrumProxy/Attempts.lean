/-
  The attempts of a request: how many, on which backends, and when.

  `Course` is the invariant of a story: it relates the locals of
  `forward_with_retries` (the attempted backends, the number of the attempt, the
  end of the pause) to the entries written so far.  Each turn of the loop uses up
  one of a bounded number of turns (`turnsLeft`), which together with progress
  gives its termination.
-/
import FerrumProxy.Stories

namespace FerrumProxy

open Lib Sys

/-! ## Attempts and pauses in the entries of a request -/

/-- The backends attempted, in order. -/
def attemptsOf (log : List (ℕ × Obs)) : List String :=
  log.filterMap fun e =>
    match e.2 with
    | .attempt _ b _ _ _ => some b
    | _ => none

@[simp] theorem attemptsOf_nil : attemptsOf [] = [] := rfl

@[simp] theorem attemptsOf_append (log os : List (ℕ × Obs)) :
    attemptsOf (log ++ os) = attemptsOf log ++ attemptsOf os := List.filterMap_append ..

/-- After attempt `n`, and with no attempt since, a pause was taken that is over at `t`. -/
def Paused (id n t : ℕ) (log : List (ℕ × Obs)) : Prop :=
  ∃ log₁ t' length left log₂, log = log₁ ++ (t', .pause id n length left) :: log₂ ∧
    attemptsOf log₂ = [] ∧ t' + length ≤ t

/-- The pace of the retry loop, for a request that started at `t₀`: an attempt starts within the
    time budget and after the pause that follows the one before; the pause after attempt `k` is
    `backoff_ms * 2 ^ min (k - 1) 10` milliseconds long, at most `2 ^ 64 - 1`, and fits into the
    budget. -/
def Paced (P : Setup) (t₀ : ℕ) (log : List (ℕ × Obs)) (e : ℕ × Obs) : Prop :=
  match e.2 with
  | .attempt id _ (.retry _ n _) _ elapsed =>
    elapsed = e.1 - t₀ ∧ elapsed < P.config.retry.totalTimeoutMs * 1000000 ∧
      n = (attemptsOf log).length + 1 ∧ (2 ≤ n → Paused id (n - 1) e.1 log)
  | .pause _ k length left =>
    k = (attemptsOf log).length ∧
      length = min (P.config.retry.backoffMs * 2 ^ min (k - 1) 10) (2 ^ 64 - 1) * 1000000 ∧
      length < left ∧ left = P.config.retry.totalTimeoutMs * 1000000 - (e.1 - t₀)
  | _ => True

/-! ## The invariant of a story -/

/-- The locals of `handle_request` belong to the request `req` that arrived at `t₀`. -/
def JobOf (P : Setup) (t₀ : ℕ) (req : Request) (job : Job) : Prop :=
  job.started = t₀ ∧ matchRoute req.uri.path P.config.routes = some job.route

/-- What the locals of a request say about its entries. -/
def Told (P : Setup) (id t₀ : ℕ) (req : Request) (log : List (ℕ × Obs)) : Task → Prop
  | .buffering job none _ =>
    JobOf P t₀ req job ∧ P.shouldRetryRequest req.method ∧ attemptsOf log = []
  | .buffering job (some b) _ =>
    JobOf P t₀ req job ∧ P.shouldRetryRequest req.method = false ∧ attemptsOf log = [] ∧
      b ∈ job.route.backends
  | .forwarding job _ (.retry attempted n _) =>
    JobOf P t₀ req job ∧ P.shouldRetryRequest req.method ∧ attemptsOf log = attempted ∧
      n = attempted.length
  | .sleeping job attempted n _ till =>
    JobOf P t₀ req job ∧ P.shouldRetryRequest req.method ∧ attemptsOf log = attempted ∧
      n = attempted.length + 1 ∧ n ≤ P.config.retry.maxAttempts ∧ Paused id (n - 1) till log
  | _ => True

/-- The course of the request `req` that arrived at `t₀`. -/
structure Course (P : Setup) (id t₀ : ℕ) (req : Request) (task : Task) (log : List (ℕ × Obs)) :
    Prop where
  arrived : ∃ rest, log = (t₀, .arrived id req) :: rest ∧ ∀ e ∈ rest, ∀ r, e.2 ≠ .arrived id r
  nodup : (attemptsOf log).Nodup
  routed : ∀ b ∈ attemptsOf log,
    ∃ r, matchRoute req.uri.path P.config.routes = some r ∧ b ∈ r.backends
  bound : (attemptsOf log).length ≤
    if P.shouldRetryRequest req.method then P.config.retry.maxAttempts else 1
  paced : AtEach (Paced P t₀) log
  told : Told P id t₀ req log task

/-- An entry that is no arrival, attempt or pause. -/
def Obs.quiet : Obs → Bool
  | .arrived _ _ | .attempt _ _ _ _ _ | .pause _ _ _ _ => false
  | _ => true

section
variable {P : Setup} {m : HealthManager} {t id t₀ : ℕ} {req : Request} {e : Event} {old new : Task}
  {log os : List (ℕ × Obs)} {job : Job} {attempted : List String} {n : ℕ} {body : Bytes}

theorem attemptsOf_quiet (h : ∀ o ∈ os, o.2.quiet) : attemptsOf os = [] := by
  unfold attemptsOf
  rw [List.filterMap_eq_nil_iff]
  rintro ⟨t, o⟩ ho
  have hq := h _ ho
  cases o <;> first | rfl | simp [Obs.quiet] at hq

theorem paced_quiet {o : ℕ × Obs} (h : o.2.quiet) : Paced P t₀ log o := by
  obtain ⟨t, o⟩ := o
  cases o <;> trivial

/-- Quiet entries do not matter. -/
theorem Course.quiet (h : Course P id t₀ req old log) (hq : ∀ o ∈ os, o.2.quiet)
    (ht : Told P id t₀ req (log ++ os) new) : Course P id t₀ req new (log ++ os) where
  arrived := by
    obtain ⟨rest, rfl, hrest⟩ := h.arrived
    refine ⟨rest ++ os, rfl, fun e he r heq => ?_⟩
    rcases List.mem_append.1 he with he | he
    · exact hrest e he r heq
    · have := hq e he
      simp [heq, Obs.quiet] at this
  nodup := by simpa [attemptsOf_quiet hq] using h.nodup
  routed := by simpa [attemptsOf_quiet hq] using h.routed
  bound := by simpa [attemptsOf_quiet hq] using h.bound
  paced := atEach_append.2 ⟨h.paced, fun os₁ o os₂ hos => paced_quiet (hq o (by simp [hos]))⟩
  told := ht

/-- The attempt of a backend that was not attempted before. -/
theorem Course.attempt (h : Course P id t₀ req old log) {b : String} {d : Dispatch}
    {upstream : Except UpstreamError UpstreamRequest} {elapsed : ℕ} {route : RouteConfig}
    (hroute : matchRoute req.uri.path P.config.routes = some route) (hb : b ∈ route.backends)
    (hnew : b ∉ attemptsOf log)
    (hbound : (attemptsOf log).length + 1 ≤
      if P.shouldRetryRequest req.method then P.config.retry.maxAttempts else 1)
    (hpaced : Paced P t₀ log (t, .attempt id b d upstream elapsed))
    (ht : Told P id t₀ req (log ++ [(t, .attempt id b d upstream elapsed)]) new) :
    Course P id t₀ req new (log ++ [(t, .attempt id b d upstream elapsed)]) where
  arrived := by
    obtain ⟨rest, rfl, hrest⟩ := h.arrived
    refine ⟨rest ++ [_], rfl, fun e he r heq => ?_⟩
    rcases List.mem_append.1 he with he | he
    · exact hrest e he r heq
    · simp [List.mem_singleton.1 he] at heq
  nodup := by
    rw [attemptsOf_append]
    exact List.nodup_append.2 ⟨h.nodup, List.nodup_singleton b, by
      rintro a ha _ hb' rfl; exact hnew (List.mem_singleton.1 hb' ▸ ha)⟩
  routed b' hb' := by
    rw [attemptsOf_append, List.mem_append] at hb'
    rcases hb' with hb' | hb'
    · exact h.routed b' hb'
    · obtain rfl := List.mem_singleton.1 hb'
      exact ⟨route, hroute, hb⟩
  bound := by rw [attemptsOf_append, List.length_append]; exact hbound
  paced := atEach_append.2 ⟨h.paced, by simpa using hpaced⟩
  told := ht

/-- From the head of the retry loop to the next await. -/
theorem Course.head (h : Course P id t₀ req old log) (hjob : JobOf P t₀ req job)
    (hretry : P.shouldRetryRequest req.method) (ha : attemptsOf log = attempted)
    (hn : n = attempted.length + 1) (hmax : n ≤ P.config.retry.maxAttempts)
    (hpause : 2 ≤ n → Paused id (n - 1) t log)
    (hh : Head P m t id job attempted n body os new) : Course P id t₀ req new (log ++ os) := by
  cases hh with
  | late _ => exact h.quiet (by simp [Obs.quiet]) trivial
  | exhausted _ _ => exact h.quiet (by simp [Obs.quiet, lookEntry]) trivial
  | @attempt b upstream hin hb =>
    obtain ⟨hb, hfresh⟩ := mem_candidatesAt hb
    have hq : ∀ o ∈ [lookEntry t id job.route, (t, .selected id b)], o.2.quiet := by
      simp [Obs.quiet, lookEntry]
    have hc : Course P id t₀ req .done (log ++ [lookEntry t id job.route, (t, .selected id b)]) :=
      h.quiet hq trivial
    have ha' : attemptsOf (log ++ [lookEntry t id job.route, (t, .selected id b)]) = attempted := by
      rw [attemptsOf_append, attemptsOf_quiet hq, List.append_nil, ha]
    have hpaced : Paced P t₀ (log ++ [lookEntry t id job.route, (t, .selected id b)])
        (t, .attempt id b (.retry (attempted ++ [b]) n body) upstream (t - job.started)) := by
      refine ⟨by rw [hjob.1], hin, by rw [ha', hn], fun h2 => ?_⟩
      obtain ⟨log₁, t', length, left, log₂, rfl, hno, hle⟩ := hpause h2
      exact ⟨log₁, t', length, left, log₂ ++ [lookEntry t id job.route, (t, .selected id b)],
        by simp, by rw [attemptsOf_append, hno, attemptsOf_quiet hq]; rfl, hle⟩
    rw [show ∀ a b c : ℕ × Obs, log ++ [a, b, c] = log ++ [a, b] ++ [c] by simp]
    refine hc.attempt hjob.2 hb (by rwa [ha']) (by rw [ha', if_pos hretry]; omega) hpaced ?_
    refine ⟨hjob, hretry, ?_, by simp [hn]⟩
    rw [attemptsOf_append, ha']
    rfl

/-- The retry loop takes the pause after attempt `n`. -/
theorem Course.pause {b : String} {length : ℕ} {o : ℕ × Obs}
    (h : Course P id t₀ req (.forwarding job b (.retry attempted n body)) log)
    (hq : o.2.quiet) (hmax : n < P.config.retry.maxAttempts) (hlen : length = P.backoff n)
    (hfit : length < P.totalTimeout - (t - job.started)) :
    Course P id t₀ req (.sleeping job attempted (n + 1) body (t + length))
      (log ++ [o, (t, .pause id n length (P.totalTimeout - (t - job.started)))]) := by
  obtain ⟨hjob, hretry, ha, hn⟩ := h.told
  have ho : attemptsOf [o] = [] := attemptsOf_quiet (by simpa using hq)
  have hos : attemptsOf [o, (t, .pause id n length (P.totalTimeout - (t - job.started)))] = [] := by
    rw [← List.singleton_append, attemptsOf_append, ho]
    rfl
  refine ⟨?_, ?_, ?_, ?_, ?_, ?_⟩
  · obtain ⟨rest, rfl, hrest⟩ := h.arrived
    refine ⟨rest ++ [o, _], rfl, fun e he r heq => ?_⟩
    rcases List.mem_append.1 he with he | he
    · exact hrest e he r heq
    · rcases List.mem_cons.1 he with rfl | he
      · simp [heq, Obs.quiet] at hq
      · simp [List.mem_singleton.1 he] at heq
  · simpa [hos] using h.nodup
  · simpa [hos] using h.routed
  · simpa [hos] using h.bound
  · refine atEach_append.2 ⟨h.paced, ?_⟩
    simp only [atEach_cons, atEach_nil, and_true]
    refine ⟨paced_quiet hq, ?_, hlen, hfit, by rw [hjob.1]; rfl⟩
    rw [attemptsOf_append, ho, List.append_nil, ha, hn]
  · refine ⟨hjob, hretry, by rw [attemptsOf_append, hos, List.append_nil, ha], by rw [hn], hmax, ?_⟩
    exact ⟨log ++ [o], t, length, P.totalTimeout - (t - job.started), [], by simp, rfl, le_rfl⟩

/-- Every transition after the arrival keeps the invariant. -/
theorem Course.next (h : Course P id t₀ req old log)
    (ht : Trans P m t id e (some old) os new) : Course P id t₀ req new (log ++ os) := by
  cases ht with
  | @chunk job chosen buffered buffered' item _ =>
    refine h.quiet (by simp) ?_
    have := h.told
    cases chosen <;> simpa [Told] using this
  | bufferFailed _ => exact h.quiet (by simp [Obs.quiet]) trivial
  | bufferedRetry hh =>
    obtain ⟨hjob, hretry, ha⟩ := h.told
    refine h.head hjob hretry ha rfl ?_ (by simp) hh
    have : 1 < P.config.retry.maxAttempts := by
      simp only [Setup.shouldRetryRequest, Bool.and_eq_true, decide_eq_true_eq] at hretry
      exact hretry.1
    exact this.le
  | bufferedPrebuffer =>
    obtain ⟨hjob, hretry, ha, hb⟩ := h.told
    refine h.attempt hjob.2 hb (by simp [ha]) (by simp [ha, hretry]) trivial trivial
  | upload _ | uploadFailed _ | uploadEnded => exact h.quiet (by simp) trivial
  | returned hnew _ =>
    refine h.quiet (by simp [Obs.quiet, outcomeEntry]) ?_
    rcases hnew with rfl | rfl <;> trivial
  | backoff hmax _ hfit => exact h.pause rfl hmax rfl hfit
  | @again job b attempted n body r os new hmax _ h0 hfit hh =>
    -- without a back-off the pause of length zero is over at once
    have hback : 0 = P.backoff n := by simp [Setup.backoff, fromMillis, h0]
    have hc := h.pause (t := t) (o := outcomeEntry P m t id job b (.retry attempted n body) r) rfl
      hmax hback hfit
    obtain ⟨hjob, hretry, ha, hn, hle, hpause⟩ := hc.told
    have hnext := hc.head hjob hretry ha hn hle (fun _ => hpause) hh
    rwa [List.append_assoc] at hnext
  | woken htill hh =>
    obtain ⟨hjob, hretry, ha, hn, hle, hpause⟩ := h.told
    refine h.head hjob hretry ha hn hle (fun _ => ?_) hh
    obtain ⟨log₁, t', length, left, log₂, hlog, hno, hover⟩ := hpause
    exact ⟨log₁, t', length, left, log₂, hlog, hno, hover.trans htill⟩
  | download | downloaded | dropped _ => exact h.quiet (by simp) trivial
  | downloadFailed _ => exact h.quiet (by simp [Obs.quiet]) trivial

/-- The arrival starts a course. -/
theorem Trans.course (ht : Trans P m t id e none os new) :
    ∃ req, Course P id t req new os := by
  have h₀ : ∀ req, Course P id t req .done [(t, .arrived id req)] := fun req =>
    ⟨⟨[], rfl, by simp⟩, List.nodup_nil, by simp [attemptsOf], by simp [attemptsOf],
      by simp [Paced], trivial⟩
  have hq : ∀ req os new, (∀ o ∈ os, o.2.quiet) →
      Told P id t req ((t, .arrived id req) :: os) new →
      Course P id t req new ((t, .arrived id req) :: os) := fun req os new hq ht =>
    (h₀ req).quiet hq ht
  cases ht with
  | @answered req response looks _ hl =>
    refine ⟨req, ?_⟩
    rw [List.cons_append]
    exact hq req _ _ (by rcases hl with rfl | rfl <;> simp [Obs.quiet]) trivial
  | @noPermit req job response _ _ => exact ⟨req, hq req _ _ (by simp [Obs.quiet]) trivial⟩
  | @startRetry req job henter hretry =>
    exact ⟨req, hq req _ _ (by simp) ⟨⟨henter.started, henter.route⟩, hretry, rfl⟩⟩
  | @noBackend req job response _ _ _ =>
    exact ⟨req, hq req _ _ (by simp [Obs.quiet, lookEntry]) trivial⟩
  | @noPermitChosen req job b response _ _ _ _ =>
    exact ⟨req, hq req _ _ (by simp [Obs.quiet, lookEntry]) trivial⟩
  | @startPrebuffer req job b henter hretry _ hb =>
    exact ⟨req, hq req _ _ (by simp [Obs.quiet, lookEntry])
      ⟨⟨henter.started, henter.route⟩, hretry, rfl, (mem_candidatesAt hb).1⟩⟩
  | @startStream req job b upstream henter hretry _ hb =>
    have hc : Course P id t req .done
        [(t, .arrived id req), lookEntry t id job.route, (t, .selected id b)] :=
      hq req _ _ (by simp [Obs.quiet, lookEntry]) trivial
    exact ⟨req, hc.attempt henter.route (mem_candidatesAt hb).1 (by simp [attemptsOf, lookEntry])
      (by simp [attemptsOf, lookEntry, hretry]) trivial trivial⟩

end

/-- **The course of a request.** Every story is the course of the request that arrived first. -/
theorem Story.course {P : Setup} {id : ℕ} {ok : Option Task → Event → Prop} {task : Task}
    {log : List (ℕ × Obs)} (h : Story P id ok (some task) log) :
    ∃ t₀ req, Course P id t₀ req task log := by
  refine h.rule (I := fun task log => ∃ t₀ req, Course P id t₀ req task log) ?_ ?_
  · intro m t e os new ht
    exact ⟨t, ht.course⟩
  · rintro m t e old log os new - ⟨t₀, req, hc⟩ - ht
    exact ⟨t₀, req, hc.next ht⟩

/-- The course of a request that has arrived, up to a reachable state. -/
theorem Setup.Reachable.course {P : Setup} {s : Sys} (h : P.Reachable s) {id t₀ : ℕ}
    {req : Request} (ha : (t₀, .arrived id req) ∈ s.log) :
    ∃ task, s.tasks.get? id = some task ∧ Course P id t₀ req task (entriesOf id s.log) := by
  have hown : (t₀, .arrived id req) ∈ entriesOf id s.log :=
    mem_entriesOf ha rfl
  have hstory := h.story id
  cases hold : s.tasks.get? id with
  | none =>
    rw [hold] at hstory
    simp [hstory.eq_nil] at hown
  | some task =>
    rw [hold] at hstory
    obtain ⟨t', req', hc⟩ := hstory.course
    obtain ⟨rest, hrest, hno⟩ := hc.arrived
    -- the arrival is the first entry and the only one of its kind
    rw [hrest, List.mem_cons] at hown
    rcases hown with he | he
    · cases he
      exact ⟨task, rfl, hc⟩
    · exact absurd rfl (hno _ he req)

/-! ## Termination -/

/-- The await of an attempt or of a pause of the request is over. -/
def isTurn (id : ℕ) : Event → Bool
  | .resolved id' _ => id' = id
  | .wake id' => id' = id
  | _ => false

/-- In `forward_with_retries`. -/
def Task.retries : Task → Bool
  | .forwarding _ _ (.retry _ _ _) => true
  | .sleeping _ _ _ _ _ => true
  | _ => false

/-- A bound on the turns a request can still take. -/
def turnsLeft (P : Setup) : Option Task → ℕ
  | none => 2 * P.config.retry.maxAttempts
  | some (.buffering _ _ _) => 2 * P.config.retry.maxAttempts
  | some (.forwarding _ _ (.retry _ n _)) => 2 * (P.config.retry.maxAttempts - n) + 1
  | some (.forwarding _ _ _) => 1
  | some (.sleeping _ _ n _ _) => 2 * (P.config.retry.maxAttempts - n) + 2
  | some (.responding _ _ _) => 0
  | some .done => 0

section
variable {P : Setup} {m : HealthManager} {t id : ℕ} {e : Event} {old : Option Task} {new : Task}
  {os : List (ℕ × Obs)}

theorem Head.turnsLeft_le {job : Job} {attempted : List String} {n : ℕ} {body : Bytes}
    (h : Head P m t id job attempted n body os new) :
    turnsLeft P (some new) ≤ 2 * (P.config.retry.maxAttempts - n) + 1 := by
  cases h with
  | late _ => exact Nat.zero_le _
  | exhausted _ _ => exact Nat.zero_le _
  | attempt _ _ => exact le_rfl

/-- Every turn uses up one of the turns left, and nothing gives one back. -/
theorem Trans.turnsLeft_le (hmax : P.config.retry.maxAttempts ≠ 0)
    (h : Trans P m t id e old os new) :
    turnsLeft P (some new) + (if isTurn id e then 1 else 0) ≤ turnsLeft P old := by
  cases h with
  | bufferedRetry hh =>
    have := hh.turnsLeft_le
    change turnsLeft P (some new) + 0 ≤ 2 * P.config.retry.maxAttempts
    omega
  | @returned job b d r new hnew _ =>
    have hd : 1 ≤ turnsLeft P (some (.forwarding job b d)) := by
      cases d <;> simp [turnsLeft]
    rcases hnew with rfl | rfl <;> simpa [turnsLeft, isTurn] using hd
  | backoff hn _ _ => simp only [isTurn, turnsLeft, decide_true, if_true]; omega
  | again hn _ _ _ hh =>
    have := hh.turnsLeft_le
    simp only [isTurn, turnsLeft, decide_true, if_true] at this ⊢
    omega
  | woken _ hh =>
    have := hh.turnsLeft_le
    simp only [isTurn, turnsLeft, decide_true, if_true] at this ⊢
    omega
  | dropped _ => exact Nat.zero_le _
  | _ => simp only [isTurn, turnsLeft]; simp; try omega

/-- A turn of a request is its own transition. -/
theorem Trans.turn_id {id' : ℕ} (h : Trans P m t id' e old os new) (ht : isTurn id e) : id' = id := by
  cases h <;> simp_all [isTurn]

end

/-- In a run, the turns taken and the turns left add up to at most the turns left before. -/
theorem turns_exec {P : Setup} (hmax : P.config.retry.maxAttempts ≠ 0) (id : ℕ) :
    ∀ {es : List (ℕ × Event)} {s s' : Sys}, exec (step P) s es = some s' →
      es.countP (isTurn id ·.2) + turnsLeft P (s'.tasks.get? id) ≤ turnsLeft P (s.tasks.get? id)
  | [], s, s', h => by simp only [exec, Option.some.injEq] at h; simp [h]
  | e :: es, s, s', h => by
    simp only [exec, Option.bind_eq_some_iff] at h
    obtain ⟨s₁, hs, h⟩ := h
    have ih := turns_exec hmax id h
    have hstep : turnsLeft P (s₁.tasks.get? id) + (if isTurn id e.2 then 1 else 0) ≤
        turnsLeft P (s.tasks.get? id) := by
      obtain ⟨-, ⟨c, hc⟩ | ⟨id', os, new, hk⟩⟩ := step_cases hs
      · obtain ⟨b, status, he, -⟩ := hc.event
        simp [hc.tasks, he, isTurn]
      · rw [hk.tasks]
        by_cases hid : id = id'
        · subst hid
          rw [Table.get?_insert_self]
          exact hk.trans.turnsLeft_le hmax
        · rw [Table.get?_insert_ne _ _ hid, if_neg fun ht => hid (hk.trans.turn_id ht).symm]
          rfl
    rw [List.countP_cons]
    omega

/-- A request in the retry loop can take its next turn, at any instant after its pause. -/
theorem turn_possible {P : Setup} {s : Sys} {id : ℕ} {task : Task}
    (hold : s.tasks.get? id = some task) (hl : task.retries) :
    ∃ t₁, ∀ t, t₁ ≤ t → ∃ e, isTurn id e ∧ (step P s (t, e)).isSome := by
  cases task with
  | forwarding job b d =>
    refine ⟨s.now, fun t ht => ⟨.resolved id .elapsed, by simp [isTurn], ?_⟩⟩
    simp [Sys.step, Sys.react, hold, ht]
  | sleeping job attempted n body till =>
    refine ⟨max s.now till, fun t ht => ⟨.wake id, by simp [isTurn], ?_⟩⟩
    obtain ⟨hnow, htill⟩ := max_le_iff.1 ht
    simp [Sys.step, Sys.react, hold, hnow, htill]
  | _ => simp [Task.retries] at hl

/-! ## Bounds -/

/-- The bounds on the attempts of the request `req` that arrived as `id` at `t₀`, in the state `s`
    reached by the events `es`. -/
structure AttemptBounds (P : Setup) (es : List (ℕ × Event)) (s : Sys) (id t₀ : ℕ) (req : Request) :
    Prop where
  /-- a request that is not retried makes at most one attempt -/
  single : (req.method ∉ [Method.get, .head, .options, .trace] ∧
      ¬ (req.method ∈ [Method.put, .delete] ∧ P.config.retry.retryIdempotentMethods)) ∨
      P.config.retry.maxAttempts = 1 →
    (attemptsOf (entriesOf id s.log)).length ≤ 1
  /-- no backend is attempted twice -/
  distinct : (attemptsOf (entriesOf id s.log)).Nodup
  /-- the number of attempts is bounded -/
  bounded : ∀ r, matchRoute req.uri.path P.config.routes = some r →
    (attemptsOf (entriesOf id s.log)).length ≤
      min P.config.retry.maxAttempts r.backends.dedup.length
  /-- the retry loop takes a bounded number of turns -/
  turns : es.countP (isTurn id ·.2) ≤ 2 * P.config.retry.maxAttempts
  /-- the retry loop is never stuck -/
  progress : ∀ task, s.tasks.get? id = some task → task.retries →
    ∃ t₁, ∀ t, t₁ ≤ t → ∃ e, isTurn id e ∧ (step P s (t, e)).isSome
  /-- only backends of the matched route are attempted -/
  routed : ∀ b ∈ attemptsOf (entriesOf id s.log),
    ∃ r, matchRoute req.uri.path P.config.routes = some r ∧ b ∈ r.backends
  /-- attempts of the retry loop are within the time budget, and the pauses between them grow
      from the configured back-off and fit into the budget -/
  paced : AtEach (Paced P t₀) (entriesOf id s.log)

/-- **Attempts are bounded and never repeated.** -/
theorem attempts_bounded {P : Setup} (hv : P.config.validate P.url = .ok ())
    {es : List (ℕ × Event)} {s : Sys} (h : exec (step P) P.initial es = some s) {id t₀ : ℕ}
    {req : Request} (ha : (t₀, .arrived id req) ∈ s.log) : AttemptBounds P es s id t₀ req := by
  have hmax : P.config.retry.maxAttempts ≠ 0 :=
    (RetryConfig.validate_ok.1 (Config.validate_ok.1 hv).2.2.2.2.2.1).1
  obtain ⟨task, -, hc⟩ := (P.reachable_of_exec h).course ha
  refine ⟨fun hsingle => ?_, hc.nodup, fun r hr => ?_, ?_, fun task => turn_possible, hc.routed,
    hc.paced⟩
  · have hretry : P.shouldRetryRequest req.method = false := by
      rcases hsingle with ⟨hm, hi⟩ | h1
      · have hi' : P.config.retry.retryIdempotentMethods → req.method ∉ [Method.put, .delete] :=
          fun hf hm' => hi ⟨hm', hf⟩
        cases hf : P.config.retry.retryIdempotentMethods with
        | false => simp [Setup.shouldRetryRequest, isRetryableMethod, hm, hf]
        | true => simp [Setup.shouldRetryRequest, isRetryableMethod, hm, hi' hf]
      · simp [Setup.shouldRetryRequest, h1]
    simpa [hretry] using hc.bound
  · refine le_min ?_ ?_
    · have := hc.bound
      split_ifs at this <;> omega
    · refine (List.subperm_of_subset hc.nodup fun b hb => ?_).length_le
      obtain ⟨r', hr', hb'⟩ := hc.routed b hb
      rw [hr, Option.some.injEq] at hr'
      exact List.mem_dedup.2 (hr' ▸ hb')
  · have := turns_exec hmax id h
    change _ ≤ 2 * P.config.retry.maxAttempts at this
    omega

/-- A `GET` whose first backend answers 503: it pauses for the 50 ms of the configuration and then
    attempts the second one. -/
theorem second_backend_after_503 :
    let P := small ["http://127.0.0.1:3001", "http://127.0.0.1:3002"] 3 2 100
    let es : List (ℕ × Event) := [(1, .arrive 1 (smallRequest .get)), (2, .body 1 none),
      (3, .resolved 1 (.response 503 [])), (50000003, .wake 1),
      (50000004, .resolved 1 (.response 200 []))]
    ∃ s, exec (step P) P.initial es = some s ∧
      attemptsOf (entriesOf 1 s.log) = ["http://127.0.0.1:3001", "http://127.0.0.1:3002"] ∧
      (3, .pause 1 1 50000000 4999999998) ∈ s.log ∧
      AttemptBounds P es s 1 1 (smallRequest .get) := by
  intro P es
  obtain ⟨s, hs, hp⟩ := exists_of_exec_any (step P) P.initial es
    (fun s => attemptsOf (entriesOf 1 s.log) = ["http://127.0.0.1:3001", "http://127.0.0.1:3002"] ∧
      (3, .pause 1 1 50000000 4999999998) ∈ s.log ∧
      s.log.any fun e => match e.2 with
        | .arrived id req => e.1 = 1 ∧ id = 1 ∧ req = smallRequest .get
        | _ => false) (by decide +kernel)
  obtain ⟨hattempts, hpause, harrived⟩ := of_decide_eq_true hp
  obtain ⟨⟨t, o⟩, hmem, ho⟩ := List.any_eq_true.1 harrived
  cases o with
  | arrived id req =>
    obtain ⟨rfl, rfl, rfl⟩ := of_decide_eq_true ho
    exact ⟨s, hs, hattempts, hpause, attempts_bounded (by decide +kernel) hs hmem⟩
  | _ => simp at ho

end FerrumProxy
