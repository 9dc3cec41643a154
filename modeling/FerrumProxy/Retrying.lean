/-
  What `forward_with_retries` achieves: the first attempt, and the search for a
  backend that works.

  The budget is counted from the start of the request, so that a client that sends
  its body slowly can use it up before the loop is entered: an attempt is made
  iff the body is complete in time (`attempted_iff_in_time`).

  A `Search` is a request that enters the loop.  Failed attempts change the health
  state, but only for backends that have been attempted, so that the other
  candidates stay the same (`ChargedOnly.candidatesAt_eq`).  `Search.Stage` is the
  invariant of the loop; it makes the loop end with a backend that works, if there
  is one (`retries_find_working`).
-/
import FerrumProxy.Accounting

namespace FerrumProxy

open Lib Sys

/-! ## Logs of runs -/

/-- A request that is done writes nothing more. -/
theorem done_stays {P : Setup} {ok : Sys → ℕ × Event → Prop} {s s' : Sys} {id : ℕ}
    (h : Runs (step P) ok s s') (hd : s.tasks.get? id = some .done) :
    s'.tasks.get? id = some .done ∧ entriesOf id s'.log = entriesOf id s.log := by
  refine Runs.invariant (I := fun s' : Sys =>
    s'.tasks.get? id = some .done ∧ entriesOf id s'.log = entriesOf id s.log) h ⟨hd, rfl⟩ ?_
  rintro s₁ e s₂ ⟨hd, hlog⟩ - hs
  obtain ⟨-, ⟨c, hc⟩ | ⟨id', os, new, hk⟩⟩ := step_cases hs
  · rw [hc.tasks, hc.log, entriesOf_append, hlog]
    exact ⟨hd, by simp [entriesOf, Obs.id?]⟩
  · by_cases hid : id = id'
    · have ht := hk.trans
      rw [← hid, hd] at ht
      generalize e.2 = e at ht
      cases ht with
      | dropped hne => exact absurd rfl hne
    · rw [hk.tasks, hk.log, Table.get?_insert_ne _ _ hid, entriesOf_append,
        entriesOf_other hk.trans.own hid, List.append_nil]
      exact ⟨hd, hlog⟩

/-! ## The first attempt -/

theorem Trans.body_id {P : Setup} {m : HealthManager} {t id id' : ℕ} {item : Option StreamItem}
    {old : Option Task} {os : List (ℕ × Obs)} {new : Task}
    (h : Trans P m t id' (.body id item) old os new) : id' = id := by
  cases h <;> rfl

/-- The body of a retried request is complete, and the retry loop is entered. -/
theorem head_of_body {P : Setup} {s s₁ : Sys} {id t : ℕ} {job : Job} {body : Bytes}
    (hold : s.tasks.get? id = some (.buffering job none body))
    (hs : step P s (t, .body id none) = some s₁) :
    s.now ≤ t ∧ s₁.now = t ∧ ∃ os new, Head P s.health t id job [] 1 body os new ∧
      s₁.tasks = s.tasks.insert id new ∧ s₁.log = s.log ++ os := by
  obtain ⟨ht, ⟨c, hc⟩ | ⟨id', os, new, hk⟩⟩ := step_cases hs
  · obtain ⟨b, status, he, -⟩ := hc.event
    cases he
  · have htrans := hk.trans
    obtain rfl : id' = id := htrans.body_id
    rw [hold] at htrans
    cases htrans with
    | bufferedRetry hh => exact ⟨ht, hk.now, os, new, hh, hk.tasks, hk.log⟩

/-- **The first attempt.**  A retried request whose body is complete at `t`, and whose route has an
    eligible backend then, is attempted at all iff `t` is within the budget that runs since its
    arrival. -/
theorem attempted_iff_in_time {P : Setup} {s s₁ s' : Sys} (h : P.Reachable s) {id t₀ t : ℕ}
    {req : Request} {route : RouteConfig} {job : Job} {body : Bytes}
    (ha : (t₀, .arrived id req) ∈ s.log)
    (hroute : matchRoute req.uri.path P.config.routes = some route)
    (hold : s.tasks.get? id = some (.buffering job none body))
    (helig : (s.health.healthyBackends t route).2 ≠ [])
    (hs : step P s (t, .body id none) = some s₁)
    (hrun : Runs (step P) (fun _ _ => True) s₁ s') :
    attemptsOf (entriesOf id s'.log) ≠ [] ↔ t - t₀ < P.totalTimeout := by
  obtain ⟨task, hold', hc⟩ := h.course ha
  obtain rfl : .buffering job none body = task := Option.some.inj (hold.symm.trans hold')
  obtain ⟨⟨hstart, hmatch⟩, -, hnone⟩ := hc.told
  obtain rfl : route = job.route := Option.some.inj (hroute.symm.trans hmatch)
  obtain ⟨-, -, os, new, hh, htasks, hlog⟩ := head_of_body hold hs
  have hentries : entriesOf id s₁.log = entriesOf id s.log ++ os := by
    rw [hlog, entriesOf_append, entriesOf_own hh.own]
  rw [← hstart]
  cases hh with
  | late hlate =>
    -- answered without an attempt, and nothing is written afterwards
    have hdone := (done_stays hrun (by rw [htasks, Table.get?_insert_self])).2
    refine iff_of_false (not_not.2 ?_) (not_lt.2 hlate)
    rw [hdone, hentries, attemptsOf_append, hnone]
    rfl
  | exhausted _ hempty =>
    refine absurd ?_ helig
    simpa [candidatesAt] using hempty
  | @attempt b upstream hin hb =>
    obtain ⟨os', hlog'⟩ := log_grows hrun
    refine iff_of_true ?_ hin
    rw [hlog', entriesOf_append, hentries, attemptsOf_append, attemptsOf_append]
    simp [attemptsOf, lookEntry]

/-- A `GET` whose body of one byte is complete at once is attempted. -/
theorem prompt_get_attempted :
    let P := small ["http://127.0.0.1:3001", "http://127.0.0.1:3002"] 3 2 1
    ∃ s, exec (step P) P.initial [(1, .arrive 1 (smallUpload .get 1)),
        (2, .body 1 (some (.data [7]))), (3, .body 1 none)] = some s ∧
      attemptsOf (entriesOf 1 s.log) ≠ [] := by
  intro P
  let job : Job := ⟨(smallUpload .get 1).withId "0000000000000001",
    { pathPrefix := "/api", backends := ["http://127.0.0.1:3001", "http://127.0.0.1:3002"] }, 1,
    "0000000000000001"⟩
  obtain ⟨s, hs, hp⟩ := exists_of_exec_any (step P) P.initial
    [(1, .arrive 1 (smallUpload .get 1)), (2, .body 1 (some (.data [7])))]
    (fun s => (1, .arrived 1 (smallUpload .get 1)) ∈ s.log ∧
      s.tasks.get? 1 = some (.buffering job none [7]) ∧
      (s.health.healthyBackends 3 job.route).2 ≠ [] ∧ (step P s (3, .body 1 none)).isSome)
    (by decide +kernel)
  obtain ⟨ha, hold, helig, hsome⟩ := of_decide_eq_true hp
  obtain ⟨s₁, hs₁⟩ := Option.isSome_iff_exists.1 hsome
  refine ⟨s₁, ?_, (attempted_iff_in_time (P.reachable_of_exec hs) ha (by decide +kernel) hold helig
    hs₁ .refl).2 (by decide)⟩
  exact (exec_concat (step P) P.initial [_, _] _).trans (by rw [hs]; exact hs₁)

/-- A `GET` under the default timeouts (5 s for the retries, 15 s for each wait for the client's
    body).  Two bytes of its body come after 4 s and the third and last one 4 s later: the request is
    answered 504 and no backend is attempted, although both are eligible. -/
theorem slow_body_unattempted :
    let P := small ["http://127.0.0.1:3001", "http://127.0.0.1:3002"] 3 2 1
    let r : RouteConfig :=
      { pathPrefix := "/api", backends := ["http://127.0.0.1:3001", "http://127.0.0.1:3002"] }
    P.config.validate P.url = .ok () ∧ 4000000000 < P.routeClientBodyTimeout r ∧
    ∃ s s', exec (step P) P.initial [(0, .arrive 1 (smallUpload .get 3)),
        (4000000000, .body 1 (some (.data [104, 105]))),
        (8000000000, .body 1 (some (.data [33])))] = some s ∧
      (s.health.healthyBackends 8000000000 r).2 = r.backends ∧
      step P s (8000000000, .body 1 none) = some s' ∧
      replies s'.log = [(1, 504)] ∧ ∀ s'', Runs (step P) (fun _ _ => True) s' s'' →
        attemptsOf (entriesOf 1 s''.log) = [] := by
  intro P r
  obtain ⟨s, hs, hp⟩ := exists_of_exec_any (step P) P.initial [(0, .arrive 1 (smallUpload .get 3)),
      (4000000000, .body 1 (some (.data [104, 105]))),
      (8000000000, .body 1 (some (.data [33])))]
    (fun s => (s.health.healthyBackends 8000000000 r).2 = r.backends ∧
      (step P s (8000000000, .body 1 none)).any fun s' => s'.tasks.get? 1 = some .done ∧
        replies s'.log = [(1, 504)] ∧ attemptsOf (entriesOf 1 s'.log) = []) (by decide +kernel)
  obtain ⟨helig, hany⟩ := of_decide_eq_true hp
  obtain ⟨s', hs', hp'⟩ := (Option.any_eq_true _ _).1 hany
  obtain ⟨hdone, hreplies, hnone⟩ := of_decide_eq_true hp'
  refine ⟨by decide +kernel, by decide, s, s', hs, helig, hs', hreplies, fun s'' hrun => ?_⟩
  rw [(done_stays hrun hdone).2, hnone]

/-! ## The search -/

/-- A request enters `forward_with_retries`, and each backend has a fixed answer for it. -/
structure Search (P : Setup) where
  id : ℕ
  job : Job
  body : Bytes
  entry : Sys
  start : ℕ
  answer : String → Resolution
  reachable : P.Reachable entry
  buffered : entry.tasks.get? id = some (.buffering job none body)

/-- An outcome that is recorded for a backend of the route, not on account of the request. -/
def Obs.disturbs (id : ℕ) (route : RouteConfig) : Obs → Bool
  | .health source (.recordSuccess b) | .health source (.recordFailure b) =>
    source ≠ .request id ∧ b ∈ route.backends
  | _ => false

namespace Search

variable {P : Setup} (Q : Search P)

/-- The backends that are eligible when the loop is entered. -/
def eligible : List String := (Q.entry.health.healthyBackends Q.start Q.job.route).2

/-- The response that the answer of a backend is turned into. -/
def response (b : String) : Response :=
  resultResponse Q.job (forwardResult P Q.job b (.retry [] 0 Q.body) (Q.answer b))

/-- The response of the backend is retryable. -/
def retryable (b : String) : Bool := P.shouldRetryStatus Q.job.route (Q.response b).status

/-- The backends answer as fixed, and the request is not dropped. -/
def answers : Option Task → Event → Bool
  | some (.forwarding _ b _), .resolved id r => id = Q.id → r = Q.answer b
  | _, .dropped id => id ≠ Q.id
  | _, _ => true

/-- The loop does not return early because of the time.  It asks for the time at its head, and
    after a retryable answer while attempts are left. -/
def inTime : Option Task → ℕ × Event → Bool
  | some (.forwarding _ b (.retry _ n _)), (t, .resolved id _) =>
    id = Q.id → Q.retryable b → n < P.config.retry.maxAttempts →
      t - Q.job.started < P.totalTimeout ∧
      (0 < P.config.retry.backoffMs → P.backoff n < P.totalTimeout - (t - Q.job.started))
  | _, (t, .body id none) | _, (t, .wake id) => id = Q.id → t - Q.job.started < P.totalTimeout
  | _, _ => true

/-- A step that does not disturb the search. -/
structure Undisturbed (s : Sys) (e : ℕ × Event) : Prop where
  answers : Q.answers (s.tasks.get? Q.id) e.2
  inTime : Q.inTime (s.tasks.get? Q.id) e
  /-- no ejection window of the route's backends expires -/
  windows : ∀ b ∈ Q.job.route.backends,
    InWindow P Q.entry.log b Q.start → InWindow P Q.entry.log b e.1
  /-- nothing else is recorded for the route's backends -/
  alone : ∀ s', step P s e = some s' → ∀ o ∈ s'.log.drop s.log.length,
    o.2.disturbs Q.id Q.job.route = false

instance (s : Sys) (e : ℕ × Event) : Decidable (Q.Undisturbed s e) :=
  decidable_of_iff (Q.answers (s.tasks.get? Q.id) e.2 ∧ Q.inTime (s.tasks.get? Q.id) e ∧
    (∀ b ∈ Q.job.route.backends, InWindow P Q.entry.log b Q.start → InWindow P Q.entry.log b e.1) ∧
    (step P s e).all fun s' =>
      ∀ o ∈ s'.log.drop s.log.length, o.2.disturbs Q.id Q.job.route = false)
    ⟨fun ⟨ha, ht, hw, hd⟩ => ⟨ha, ht, hw, fun s' hs =>
        of_decide_eq_true ((Option.all_eq_true _ _).1 hd s' hs)⟩,
      fun h => ⟨h.answers, h.inTime, h.windows, (Option.all_eq_true _ _).2 fun s' hs =>
        decide_eq_true (h.alone s' hs)⟩⟩

end Search

/-! ## Candidates during the search -/

/-- Among the entries, failures of backends of the route are recorded for attempted ones only. -/
def ChargedOnly (route : RouteConfig) (attempted : List String) (os : List (ℕ × Obs)) : Prop :=
  ∀ o ∈ os, ∀ source b, o.2 = .health source (.recordFailure b) → b ∈ route.backends → b ∈ attempted

section
variable {P : Setup} {log os : List (ℕ × Obs)} {route : RouteConfig} {attempted : List String}
  {t t' : ℕ}

/-- No window opens for a backend that has not been attempted. -/
theorem ChargedOnly.inWindow_iff (h : ChargedOnly route attempted os) {b : String}
    (hb : b ∈ route.backends) (hnew : b ∉ attempted) :
    InWindow P (log ++ os) b t ↔ InWindow P log b t := by
  have hnone : ∀ e ∈ healthHistory os, e.2 ≠ .recordFailure b := by
    intro e he heq
    obtain ⟨⟨t, o⟩, ho, hoe⟩ := List.mem_filterMap.1 he
    cases o with
    | health source c =>
      obtain rfl := Option.some.inj hoe
      exact hnew (h _ ho source b (congrArg (Obs.health source) heq) hb)
    | _ => simp at hoe
  rw [inWindow_append, HealthManager.ejections_eq_nil hnone]
  simp

/-- **No candidate is lost or won.**  As long as failures are recorded for attempted backends only
    and no window expires, the other candidates stay the same. -/
theorem ChargedOnly.candidatesAt_eq (h : ChargedOnly route attempted os)
    (hr : route ∈ P.config.routes) (ho : (log ++ os).Pairwise (·.1 ≤ ·.1)) (hp : ∀ e ∈ log, e.1 ≤ t)
    (hp' : ∀ e ∈ log ++ os, e.1 ≤ t') (ht : t ≤ t')
    (hw : ∀ b ∈ route.backends, InWindow P log b t → InWindow P log b t') :
    candidatesAt (P.initial.health.run (healthHistory (log ++ os))) t' route attempted =
      candidatesAt (P.initial.health.run (healthHistory log)) t route attempted := by
  unfold candidatesAt
  rw [HealthManager.healthyBackends_eq, HealthManager.healthyBackends_eq, List.filter_filter,
    List.filter_filter]
  refine List.filter_congr fun b hb => ?_
  by_cases hnew : b ∈ attempted
  · simp [hnew]
  · have hsame : InWindow P (log ++ os) b t' ↔ InWindow P log b t := by
      rw [h.inWindow_iff hb hnew]
      exact ⟨fun hin => Covered.anti hin ht, hw b hb⟩
    have hbefore := eligible_iff_not_inWindow (List.pairwise_append.1 ho).1 hp hr hb
    have helig := (eligible_iff_not_inWindow ho hp' hr hb).trans
      ((not_congr hsame).trans hbefore.symm)
    rw [Bool.eq_iff_iff.2 helig]

end

/-- The responses sent to the client. -/
def responsesOf (log : List (ℕ × Obs)) : List Response :=
  log.filterMap fun e =>
    match e.2 with
    | .responded _ response => some response
    | _ => none

@[simp] theorem responsesOf_append (log os : List (ℕ × Obs)) :
    responsesOf (log ++ os) = responsesOf log ++ responsesOf os := List.filterMap_append ..

theorem mem_responsesOf {id : ℕ} {log : List (ℕ × Obs)} {response : Response} :
    response ∈ responsesOf (entriesOf id log) ↔ ∃ t, (t, .responded id response) ∈ log := by
  constructor
  · intro h
    obtain ⟨⟨t, o⟩, ho, hr⟩ := List.mem_filterMap.1 h
    obtain ⟨hmem, hid⟩ := List.mem_filter.1 ho
    cases o with
    | responded id' response' =>
      obtain rfl : id' = id := by simpa [Obs.id?] using hid
      obtain rfl : response' = response := Option.some.inj hr
      exact ⟨t, hmem⟩
    | _ => simp at hr
  · rintro ⟨t, h⟩
    exact List.mem_filterMap.2 ⟨_, mem_entriesOf h rfl, rfl⟩

namespace Search

variable {P : Setup} (Q : Search P)

theorem course : ∃ t₀ req, Course P Q.id t₀ req (.buffering Q.job none Q.body)
    (entriesOf Q.id Q.entry.log) := by
  have hstory := Q.reachable.story Q.id
  rw [Q.buffered] at hstory
  exact hstory.course

theorem route_mem : Q.job.route ∈ P.config.routes := by
  obtain ⟨t₀, req, hc⟩ := Q.course
  obtain ⟨⟨-, hroute⟩, -, -⟩ := hc.told
  exact (matchRoute_mem hroute).1

/-- The entries `os` written since the start of the search, at the instant `t` of the next step. -/
structure Since (os : List (ℕ × Obs)) (t : ℕ) : Prop where
  entered : Q.entry.now ≤ Q.start
  later : Q.start ≤ t
  ordered : (Q.entry.log ++ os).Pairwise (·.1 ≤ ·.1)
  past : ∀ e ∈ Q.entry.log ++ os, e.1 ≤ t
  windows : ∀ b ∈ Q.job.route.backends,
    InWindow P Q.entry.log b Q.start → InWindow P Q.entry.log b t

variable {Q}

theorem Since.append {os os' : List (ℕ × Obs)} {t : ℕ} (h : Q.Since os t)
    (hos : ∀ e ∈ os', e.1 = t) : Q.Since (os ++ os') t := by
  obtain ⟨ho, hp⟩ := ordered_append h.ordered h.past le_rfl hos
  rw [List.append_assoc] at ho hp
  exact { h with ordered := ho, past := hp }

/-- What `select_backend` chooses from during the search. -/
theorem Since.candidates_eq {os : List (ℕ × Obs)} {attempted : List String} {t : ℕ}
    (h : Q.Since os t) (hcharged : ChargedOnly Q.job.route attempted os) :
    candidatesAt (P.initial.health.run (healthHistory (Q.entry.log ++ os))) t Q.job.route
      attempted = Q.eligible.filter (· ∉ attempted) := by
  have hreplays := Q.reachable.replays
  rw [hcharged.candidatesAt_eq Q.route_mem h.ordered
    (fun e he => (hreplays.past e he).trans h.entered) h.past h.later h.windows, ← hreplays.health]
  rfl

variable (Q) in
/-- Backends that have been tried in vain. -/
def Tried (before : List String) : Prop :=
  before.Nodup ∧ ∀ b ∈ before, b ∈ Q.eligible ∧ Q.retryable b

/-- As long as there is a backend that works, not all have been tried. -/
theorem Tried.length_lt {before : List String} (h : Q.Tried before)
    (hworks : ∃ b ∈ Q.eligible, Q.retryable b = false) :
    before.length < Q.eligible.dedup.length := by
  obtain ⟨b, hb, hgood⟩ := hworks
  have hnew : b ∉ before := by
    intro hmem
    rw [(h.2 b hmem).2] at hgood
    cases hgood
  refine (List.subperm_of_subset (List.nodup_cons.2 ⟨hnew, h.1⟩) fun c hc => ?_).length_le
  rw [List.mem_dedup]
  rcases List.mem_cons.1 hc with rfl | hc
  · exact hb
  · exact (h.2 c hc).1

theorem Tried.concat {before : List String} {b : String} (h : Q.Tried before)
    (hb : b ∈ Q.eligible) (hnew : b ∉ before) (hretry : Q.retryable b) :
    Q.Tried (before ++ [b]) := by
  refine ⟨?_, fun c hc => ?_⟩
  · rw [← List.concat_eq_append, List.nodup_concat]
    exact ⟨hnew, h.1⟩
  · rcases List.mem_append.1 hc with hc | hc
    · exact h.2 c hc
    · rw [List.mem_singleton.1 hc]
      exact ⟨hb, hretry⟩

/-! ## The stages of the search -/

variable (Q) in
/-- Where the search is, with the backends attempted and the responses sent so far. -/
inductive Stage : Task → List String → List Response → Prop
  | trying {before b} : Q.Tried before → b ∈ Q.eligible → b ∉ before →
      Stage (.forwarding Q.job b (.retry (before ++ [b]) (before.length + 1) Q.body))
        (before ++ [b]) []
  | pausing {before till} : Q.Tried before →
      Stage (.sleeping Q.job before (before.length + 1) Q.body till) before []
  | answered {task before b} : Task.settled (some task) → Q.Tried before → b ∈ Q.eligible →
      Q.retryable b = false → Stage task (before ++ [b]) [Q.response b]

variable (Q) in
/-- The search after the entries `os`: where it is, and that nothing but its own attempts has changed
    the candidates. -/
structure Along (task : Task) (os : List (ℕ × Obs)) : Prop where
  stage : Q.Stage task (attemptsOf (entriesOf Q.id os)) (responsesOf (entriesOf Q.id os))
  charged : Task.settled (some task) = false →
    ChargedOnly Q.job.route (attemptsOf (entriesOf Q.id os)) os

/-- At the head of the loop an untried backend is chosen. -/
theorem Since.head {before : List String} {os os' : List (ℕ × Obs)} {t : ℕ} {new : Task}
    (h : Q.Since os t) (hcharged : ChargedOnly Q.job.route before os)
    (hworks : ∃ b ∈ Q.eligible, Q.retryable b = false) (htried : Q.Tried before)
    (hin : t - Q.job.started < P.totalTimeout)
    (hh : Head P (P.initial.health.run (healthHistory (Q.entry.log ++ os))) t Q.id Q.job before
      (before.length + 1) Q.body os' new) :
    Q.Stage new (before ++ attemptsOf os') (responsesOf os') ∧
      ChargedOnly Q.job.route before os' := by
  have hcand := h.candidates_eq hcharged
  cases hh with
  | late hlate => omega
  | exhausted _ hempty =>
    obtain ⟨b, hb, hgood⟩ := hworks
    rw [hcand, List.filter_eq_nil_iff] at hempty
    refine absurd (htried.2 b ?_).2 (by simp [hgood])
    simpa using hempty b hb
  | @attempt b upstream _ hb =>
    rw [hcand, List.mem_filter] at hb
    refine ⟨.trying htried hb.1 (by simpa using hb.2), ?_⟩
    simp [ChargedOnly, lookEntry]

/-- Entries of others that do not disturb the search. -/
theorem Along.others {task : Task} {os os' : List (ℕ × Obs)} (h : Q.Along task os)
    (hothers : entriesOf Q.id os' = []) (hcharged : ChargedOnly Q.job.route [] os') :
    Q.Along task (os ++ os') := by
  have hentries : entriesOf Q.id (os ++ os') = entriesOf Q.id os := by
    rw [entriesOf_append, hothers, List.append_nil]
  refine ⟨by rw [hentries]; exact h.stage, fun hset => ?_⟩
  intro o ho source b hob hb
  rw [hentries]
  rcases List.mem_append.1 ho with ho | ho
  · exact h.charged hset o ho source b hob hb
  · exact absurd (hcharged o ho source b hob hb) (by simp)

/-- Entries of the search itself. -/
theorem Along.of_stage {old new : Task} {os os' : List (ℕ × Obs)} (h : Q.Along old os)
    (hold : Task.settled (some old) = false) (hown : ∀ o ∈ os', o.2.id? = some Q.id)
    (hstage : Q.Stage new (attemptsOf (entriesOf Q.id os) ++ attemptsOf os')
      (responsesOf (entriesOf Q.id os) ++ responsesOf os'))
    (hcharged : Task.settled (some new) = false →
      ChargedOnly Q.job.route (attemptsOf (entriesOf Q.id os)) os') : Q.Along new (os ++ os') := by
  have hentries : entriesOf Q.id (os ++ os') = entriesOf Q.id os ++ os' := by
    rw [entriesOf_append, entriesOf_own hown]
  refine ⟨by rw [hentries, attemptsOf_append, responsesOf_append]; exact hstage, fun hset => ?_⟩
  intro o ho source b hob hb
  rw [hentries, attemptsOf_append]
  refine List.mem_append_left _ ?_
  rcases List.mem_append.1 ho with ho | ho
  · exact h.charged hold o ho source b hob hb
  · exact hcharged hset o ho source b hob hb

/-- The outcome of an attempt is recorded for its backend. -/
theorem chargedOnly_outcome {m : HealthManager} {job : Job} {b : String} {d : Dispatch}
    {r : Resolution} {t id : ℕ} {route : RouteConfig} {before : List String} :
    ChargedOnly route (before ++ [b]) [outcomeEntry P m t id job b d r] := by
  intro o ho source c hoc _
  rw [List.mem_singleton.1 ho] at hoc
  have hc : outcome m job.route b (forwardResult P job b d r) = .recordFailure c :=
    (Obs.health.inj hoc).2
  have : c = b := by
    unfold outcome at hc
    split at hc
    · split_ifs at hc
      exact (HealthManager.Event.recordFailure.inj hc).symm
    · exact (HealthManager.Event.recordFailure.inj hc).symm
  simp [this]

/-- An answer that is not retryable ends the search, and only such an answer does. -/
theorem not_retryable_of_stops {before : List String} {b : String} {t : ℕ}
    (hworks : ∃ b ∈ Q.eligible, Q.retryable b = false)
    (hmax : Q.eligible.dedup.length ≤ P.config.retry.maxAttempts) (htried : Q.Tried before)
    (hb : b ∈ Q.eligible) (hnew : b ∉ before)
    (htime : Q.retryable b → before.length + 1 < P.config.retry.maxAttempts →
      t - Q.job.started < P.totalTimeout ∧ (0 < P.config.retry.backoffMs →
        P.backoff (before.length + 1) < P.totalTimeout - (t - Q.job.started)))
    (hstops : Stops P t Q.job (before.length + 1) (Q.response b).status) :
    Q.retryable b = false := by
  by_contra hretry
  have hretry : Q.retryable b := by simpa using hretry
  -- a backend that works is still untried, so attempts are left
  have hlt := (htried.concat hb hnew hretry).length_lt hworks
  rw [List.length_append, List.length_singleton] at hlt
  obtain ⟨hin, hfit⟩ := htime hretry (hlt.trans_le hmax)
  rcases hstops with hstop | hstop | hstop | ⟨hpos, hstop⟩
  · exact absurd (hretry.symm.trans hstop) (by simp)
  · omega
  · omega
  · have := hfit hpos
    omega

/-- The loop is entered again. -/
theorem Along.loop {before : List String} {till t : ℕ} {os os' : List (ℕ × Obs)} {new : Task}
    (h : Q.Along (.sleeping Q.job before (before.length + 1) Q.body till) os)
    (hsince : Q.Since os t) (hworks : ∃ b ∈ Q.eligible, Q.retryable b = false)
    (hin : t - Q.job.started < P.totalTimeout)
    (hh : Head P (P.initial.health.run (healthHistory (Q.entry.log ++ os))) t Q.id Q.job before
      (before.length + 1) Q.body os' new) : Q.Along new (os ++ os') := by
  have hstage := h.stage
  have hcharged := h.charged rfl
  generalize hatt : attemptsOf (entriesOf Q.id os) = attempted at hstage hcharged
  generalize hresp : responsesOf (entriesOf Q.id os) = responses at hstage
  cases hstage with
  | pausing htried =>
    obtain ⟨hnew, hcharged'⟩ := hsince.head hcharged hworks htried hin hh
    refine h.of_stage rfl hh.own ?_ fun _ => ?_
    · rw [hatt, hresp]
      exact hnew
    · rw [hatt]
      exact hcharged'
  | answered hset _ _ _ => cases hset

/-- The loop pauses after a retryable answer. -/
theorem Along.pause {task : Task} {before : List String} {b : String} {m : HealthManager}
    {d : Dispatch} {r : Resolution} {t n length left : ℕ} {os : List (ℕ × Obs)}
    (h : Q.Along task os) (till : ℕ) (htask : Task.settled (some task) = false)
    (hatt : attemptsOf (entriesOf Q.id os) = before ++ [b])
    (hresp : responsesOf (entriesOf Q.id os) = []) (htried : Q.Tried (before ++ [b])) :
    Q.Along (.sleeping Q.job (before ++ [b]) ((before ++ [b]).length + 1) Q.body till)
      (os ++ [outcomeEntry P m t Q.id Q.job b d r, (t, .pause Q.id n length left)]) := by
  refine h.of_stage htask (by simp [outcomeEntry, Obs.id?]) ?_ fun _ => ?_
  · rw [hatt, hresp]
    show Q.Stage _ (before ++ [b] ++ []) []
    rw [List.append_nil]
    exact .pausing htried
  · rw [hatt]
    intro o ho source c hoc hc
    rcases List.mem_cons.1 ho with rfl | ho
    · exact chargedOnly_outcome _ (List.mem_singleton_self _) source c hoc hc
    · simp [List.mem_singleton.1 ho] at hoc

/-- Every transition of the request keeps the search going, or ends it as it should. -/
theorem Along.next {old new : Task} {os os' : List (ℕ × Obs)} {t : ℕ} {e : Event}
    (h : Q.Along old os) (hsince : Q.Since os t)
    (hworks : ∃ b ∈ Q.eligible, Q.retryable b = false)
    (hmax : Q.eligible.dedup.length ≤ P.config.retry.maxAttempts)
    (hanswers : Q.answers (some old) e) (htime : Q.inTime (some old) (t, e))
    (ht : Trans P (P.initial.health.run (healthHistory (Q.entry.log ++ os))) t Q.id e (some old) os'
      new) : Q.Along new (os ++ os') := by
  have hown := ht.own
  have hstage := h.stage
  generalize hatt : attemptsOf (entriesOf Q.id os) = attempted at hstage
  generalize hresp : responsesOf (entriesOf Q.id os) = responses at hstage
  cases hstage with
  | @trying before b htried hb hnew =>
    have hfits : Q.retryable b → before.length + 1 < P.config.retry.maxAttempts →
        t - Q.job.started < P.totalTimeout ∧ (0 < P.config.retry.backoffMs →
          P.backoff (before.length + 1) < P.totalTimeout - (t - Q.job.started)) := by
      cases ht <;> first | exact of_decide_eq_true htime rfl | simp [answers] at hanswers
    cases ht with
    | @returned _ _ _ r new hset hstops =>
      obtain rfl : r = Q.answer b := of_decide_eq_true hanswers rfl
      have hgood := not_retryable_of_stops hworks hmax htried hb hnew hfits (hstops _ _ _ rfl)
      have hsettled : Task.settled (some new) := by rcases hset with rfl | rfl <;> rfl
      refine h.of_stage rfl hown ?_ (by simp [hsettled])
      rw [hatt, hresp]
      show Q.Stage new (before ++ [b] ++ []) [Q.response b]
      rw [List.append_nil]
      exact .answered hsettled htried hb hgood
    | @backoff _ _ _ _ _ r _ hretry _ =>
      obtain rfl : r = Q.answer b := of_decide_eq_true hanswers rfl
      rw [show before.length + 1 = (before ++ [b]).length by simp]
      exact h.pause _ rfl hatt hresp (htried.concat hb hnew hretry)
    | @again _ _ _ _ _ r os₁ new hleft hretry _ _ hh =>
      obtain rfl : r = Q.answer b := of_decide_eq_true hanswers rfl
      have hin := (hfits hretry hleft).1
      -- without a back-off the loop goes on at once
      rw [show ∀ o o', os ++ o :: o' :: os₁ = os ++ [o, o'] ++ os₁ by simp]
      refine (h.pause t rfl hatt hresp (htried.concat hb hnew hretry)).loop
        (hsince.append (by simp [outcomeEntry])) hworks hin ?_
      rw [← List.append_assoc, healthHistory_append, HealthManager.run_append, List.length_append]
      exact hh
    | dropped _ => simp [answers] at hanswers
  | pausing htried =>
    cases ht with
    | woken _ hh => exact h.loop hsince hworks (of_decide_eq_true htime rfl) hh
    | dropped _ => simp [answers] at hanswers
  | @answered _ before b hset htried hb hgood =>
    have hkeep : Task.settled (some new) ∧ attemptsOf os' = [] ∧ responsesOf os' = [] := by
      cases ht <;> first | exact ⟨rfl, rfl, rfl⟩ | cases hset
    obtain ⟨hset', ha, hr⟩ := hkeep
    refine ⟨?_, by simp [hset']⟩
    rw [entriesOf_append, entriesOf_own hown, attemptsOf_append, responsesOf_append, hatt, hresp, ha,
      hr, List.append_nil, List.append_nil]
    exact .answered hset' htried hb hgood

/-! ## Runs of the search -/

variable (Q) in
/-- The state `s` belongs to the search. -/
def Holds (s : Sys) : Prop :=
  Q.start ≤ s.now ∧ ∃ task os, s.tasks.get? Q.id = some task ∧ s.log = Q.entry.log ++ os ∧
    Q.Along task os

/-- The search is entered with the first choice. -/
theorem holds_first {s : Sys} (hworks : ∃ b ∈ Q.eligible, Q.retryable b = false)
    (hu : Q.Undisturbed Q.entry (Q.start, .body Q.id none))
    (hs : step P Q.entry (Q.start, .body Q.id none) = some s) : Q.Holds s := by
  obtain ⟨hnow, hnow', os, new, hh, htasks, hlog⟩ := head_of_body Q.buffered hs
  have hreplays := Q.reachable.replays
  have hin : Q.start - Q.job.started < P.totalTimeout := by
    have htime := hu.inTime
    rw [Q.buffered] at htime
    exact of_decide_eq_true htime rfl
  have hsince : Q.Since [] Q.start :=
    ⟨hnow, le_rfl, by simpa using hreplays.ordered,
      fun e he => (hreplays.past e (by simpa using he)).trans hnow, fun _ _ h => h⟩
  rw [hreplays.health, ← List.append_nil Q.entry.log] at hh
  have hnone : Q.Tried [] := ⟨List.nodup_nil, by simp⟩
  obtain ⟨hstage, hcharged⟩ := hsince.head (by simp [ChargedOnly]) hworks hnone hin hh
  refine ⟨hnow'.ge, new, os, by rw [htasks, Table.get?_insert_self], hlog, ?_, fun _ => ?_⟩
  · rw [entriesOf_own hh.own]
    exact hstage
  · rw [entriesOf_own hh.own]
    exact fun o ho source b hob hb => absurd (hcharged o ho source b hob hb) (by simp)

/-- What others write does not matter, if it does not disturb the search. -/
theorem chargedOnly_nil {os : List (ℕ × Obs)} (hothers : ∀ o ∈ os, o.2.id? ≠ some Q.id)
    (halone : ∀ o ∈ os, o.2.disturbs Q.id Q.job.route = false) : ChargedOnly Q.job.route [] os := by
  rintro ⟨t, o⟩ ho source b rfl hb
  have hsource : source ≠ .request Q.id := by
    rintro rfl
    exact hothers _ ho rfl
  have hcalm := halone _ ho
  simp [Obs.disturbs, hsource, hb] at hcalm

theorem Holds.step {s s' : Sys} {e : ℕ × Event} (h : Q.Holds s) (hr : Replays P s)
    (hnow : Q.entry.now ≤ Q.start) (hworks : ∃ b ∈ Q.eligible, Q.retryable b = false)
    (hmax : Q.eligible.dedup.length ≤ P.config.retry.maxAttempts) (hu : Q.Undisturbed s e)
    (hs : Sys.step P s e = some s') : Q.Holds s' := by
  obtain ⟨hstart, task, os, hold, hlog, halong⟩ := h
  have hwritten : ∀ os', s'.log = s.log ++ os' →
      ∀ o ∈ os', o.2.disturbs Q.id Q.job.route = false := by
    intro os' hlog' o ho
    refine hu.alone s' hs o ?_
    rwa [hlog', List.drop_left]
  obtain ⟨ht, ⟨c, hc⟩ | ⟨id, os', new, hk⟩⟩ := step_cases hs
  · refine ⟨by rw [hc.now]; omega, task, os ++ _, by rw [hc.tasks, hold], by
      rw [hc.log, hlog, List.append_assoc], halong.others (by simp [entriesOf, Obs.id?]) ?_⟩
    exact chargedOnly_nil (by simp [Obs.id?]) (hwritten _ hc.log)
  · by_cases hid : Q.id = id
    · subst hid
      have htrans := hk.trans
      rw [hold, hr.health, hlog] at htrans
      have hanswers := hu.answers
      have htime := hu.inTime
      rw [hold] at hanswers htime
      have hsince : Q.Since os e.1 :=
        ⟨hnow, hstart.trans ht, hlog ▸ hr.ordered,
          fun e' he' => (hr.past e' (hlog ▸ he')).trans ht, hu.windows⟩
      refine ⟨by rw [hk.now]; omega, new, os ++ os', by rw [hk.tasks, Table.get?_insert_self], by
        rw [hk.log, hlog, List.append_assoc],
        halong.next hsince hworks hmax hanswers htime htrans⟩
    · refine ⟨by rw [hk.now]; omega, task, os ++ os', by
        rw [hk.tasks, Table.get?_insert_ne _ _ hid, hold], by rw [hk.log, hlog, List.append_assoc],
        halong.others (entriesOf_other hk.trans.own hid) ?_⟩
      refine chargedOnly_nil (fun o ho => ?_) (hwritten _ hk.log)
      rw [hk.trans.own o ho]
      simpa using Ne.symm hid

variable (Q) in
/-- Before the search, the request has made no attempt and has not been answered. -/
theorem entry_nil : attemptsOf (entriesOf Q.id Q.entry.log) = [] ∧
    responsesOf (entriesOf Q.id Q.entry.log) = [] := by
  constructor
  · obtain ⟨t₀, req, hc⟩ := Q.course
    exact hc.told.2.2
  · rw [List.eq_nil_iff_forall_not_mem]
    intro response hresponse
    obtain ⟨t, ht⟩ := mem_responsesOf.1 hresponse
    have hset := Q.reachable.single.settled (Q.id, response.status)
      (List.mem_filterMap.2 ⟨_, ht, rfl⟩)
    rw [Q.buffered] at hset
    cases hset

/-- As long as the search goes on, its next turn is possible. -/
theorem Stage.progress {task : Task} {attempted : List String} {responses : List Response}
    {s : Sys} (h : Q.Stage task attempted responses) (hold : s.tasks.get? Q.id = some task) :
    responses ≠ [] ∨ 0 < turnsLeft P (some task) ∧ ∃ t₁, ∀ t, t₁ ≤ t → ∃ e, isTurn Q.id e ∧
      Q.answers (some task) e ∧ (Sys.step P s (t, e)).isSome := by
  cases h with
  | @trying before b _ _ _ =>
    refine Or.inr ⟨Nat.succ_pos _, s.now, fun t ht => ⟨.resolved Q.id (Q.answer b), ?_, ?_, ?_⟩⟩
    · simp [isTurn]
    · simp [answers]
    · simp [Sys.step, Sys.react, hold, ht]
  | @pausing _ till _ =>
    refine Or.inr ⟨Nat.succ_pos _, max s.now till, fun t ht => ⟨.wake Q.id, ?_, rfl, ?_⟩⟩
    · simp [isTurn]
    · obtain ⟨hnow, htill⟩ := max_le_iff.1 ht
      simp [Sys.step, Sys.react, hold, hnow, htill]
  | answered _ _ _ _ => exact Or.inl (by simp)

end Search

/-- **Retrying finds a backend that works.**  A request enters the retry loop, some of the backends
    that are eligible then works (its answer is not retryable), and there are enough attempts for all
    of them.  In every run that does not disturb the search, the client only ever receives the
    response of an eligible backend that works, after attempts that were all answered by retryable
    ones; and as long as it has received none, fewer than `2 * max_attempts` turns of the loop have
    been taken and the next one is possible. -/
theorem retries_find_working {P : Setup} (Q : Search P) {es : List (ℕ × Event)} {s : Sys}
    (hworks : ∃ b ∈ Q.eligible, Q.retryable b = false)
    (hmax : Q.eligible.dedup.length ≤ P.config.retry.maxAttempts)
    (hes : exec (step P) Q.entry ((Q.start, .body Q.id none) :: es) = some s)
    (hu : Obeys (step P) Q.Undisturbed Q.entry ((Q.start, .body Q.id none) :: es)) :
    (∀ t response, (t, .responded Q.id response) ∈ s.log → ∃ before b,
      attemptsOf (entriesOf Q.id s.log) = before ++ [b] ∧ b ∈ Q.eligible ∧ response = Q.response b ∧
        Q.retryable b = false ∧ ∀ c ∈ before, Q.retryable c) ∧
    ((∃ t response, (t, .responded Q.id response) ∈ s.log) ∨
      es.countP (isTurn Q.id ·.2) < 2 * P.config.retry.maxAttempts ∧
      ∃ t₁, ∀ t, t₁ ≤ t → ∃ e, isTurn Q.id e ∧ Q.answers (s.tasks.get? Q.id) e ∧
        (step P s (t, e)).isSome) := by
  obtain ⟨hu₁, hu'⟩ := hu
  obtain ⟨s₁, hs₁, hes'⟩ := Option.bind_eq_some_iff.1 hes
  obtain ⟨hnow, -, -⟩ := head_of_body Q.buffered hs₁
  have hholds : Q.Holds s := by
    refine Runs.invariant₂ (J := Replays P) (Runs.of_obeys hes' (hu' s₁ hs₁))
      (Search.holds_first hworks hu₁ hs₁) (fun s' hr => ?_)
      fun s e s' hr hI hok hs => hI.step hr hnow hworks hmax hok hs
    refine Setup.Reachable.replays (Runs.trans (.tail Q.reachable trivial hs₁) ?_)
    exact hr.mono fun _ _ _ => trivial
  obtain ⟨-, task, os, hold, hlog, halong⟩ := hholds
  obtain ⟨hatt₀, hresp₀⟩ := Q.entry_nil
  have hatt : attemptsOf (entriesOf Q.id s.log) = attemptsOf (entriesOf Q.id os) := by
    rw [hlog, entriesOf_append, attemptsOf_append, hatt₀, List.nil_append]
  have hresp : responsesOf (entriesOf Q.id s.log) = responsesOf (entriesOf Q.id os) := by
    rw [hlog, entriesOf_append, responsesOf_append, hresp₀, List.nil_append]
  have hstage := halong.stage
  rw [← hatt, ← hresp] at hstage
  constructor
  · intro t response ht
    have hmem := mem_responsesOf.2 ⟨t, ht⟩
    generalize attemptsOf (entriesOf Q.id s.log) = attempted at hstage
    generalize responsesOf (entriesOf Q.id s.log) = responses at hstage hmem
    cases hstage with
    | trying _ _ _ => simp at hmem
    | pausing _ => simp at hmem
    | @answered _ before b _ htried hb hgood =>
      exact ⟨before, b, rfl, hb, List.mem_singleton.1 hmem, hgood, fun c hc => (htried.2 c hc).2⟩
  · rcases hstage.progress hold with hne | ⟨hleft, hnext⟩
    · obtain ⟨response, hmem⟩ := List.exists_mem_of_ne_nil _ hne
      obtain ⟨t, ht⟩ := mem_responsesOf.1 hmem
      exact Or.inl ⟨t, response, ht⟩
    · rw [hold]
      refine Or.inr ⟨?_, hnext⟩
      have hpos : P.config.retry.maxAttempts ≠ 0 := by
        obtain ⟨b, hb, -⟩ := hworks
        have := List.length_pos_of_mem (List.mem_dedup.2 hb)
        omega
      have hturns := turns_exec hpos Q.id hes
      rw [hold, Q.buffered, List.countP_cons] at hturns
      change _ ≤ 2 * P.config.retry.maxAttempts at hturns
      omega

/-- A `GET` whose first backend answers 503 after 2.9 s and whose second one answers 200 in
    2.95 s, when the budget of 5 s is used up. -/
theorem second_backend_found :
    let P := small ["http://127.0.0.1:3001", "http://127.0.0.1:3002"] 3 2 1
    let b := "http://127.0.0.1:3002"
    ∃ Q : Search P, ∃ s, exec (step P) Q.entry [(2, .body 1 none),
        (2900000000, .resolved 1 (.response 503 [])), (2950000000, .wake 1),
        (5900000000, .resolved 1 (.response 200 []))] = some s ∧
      (5900000000, .responded 1 (Q.response b)) ∈ s.log ∧ (Q.response b).status = 200 ∧
      ∃ before b', attemptsOf (entriesOf 1 s.log) = before ++ [b'] ∧ Q.response b = Q.response b' ∧
        ∀ c ∈ before, Q.retryable c := by
  intro P b
  let Q : Search P := {
    id := 1
    job := ⟨(smallRequest .get).withId "0000000000000001",
      { pathPrefix := "/api", backends := ["http://127.0.0.1:3001", b] }, 1, "0000000000000001"⟩
    body := []
    entry := (exec (step P) P.initial [(1, .arrive 1 (smallRequest .get))]).get (by decide +kernel)
    start := 2
    answer := fun c => .response (if c = b then 200 else 503) []
    reachable := P.reachable_of_exec (Option.some_get _).symm
    buffered := by decide +kernel }
  obtain ⟨s, hs, hp⟩ := exists_of_exec_any (step P) Q.entry [(2, .body 1 none),
    (2900000000, .resolved 1 (.response 503 [])), (2950000000, .wake 1),
    (5900000000, .resolved 1 (.response 200 []))]
    (fun s => (5900000000, .responded 1 (Q.response b)) ∈ s.log) (by decide +kernel)
  have hresponded := of_decide_eq_true hp
  obtain ⟨before, b', hatt, -, hresponse, -, hbefore⟩ := (retries_find_working Q
    ⟨b, by decide +kernel, by decide +kernel⟩ (by decide +kernel) hs (by decide +kernel)).1 _ _
    hresponded
  exact ⟨Q, s, hs, hresponded, by decide +kernel, before, b', hatt, hresponse, hbefore⟩

end FerrumProxy
