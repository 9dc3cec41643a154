/-
  What passes through the proxy.

  An execution is followed together with its events, which hold what the client and
  the backends send.  Every attempt of a request is prepared from the request that
  arrived, with the same locals each time, and a body that is kept for an attempt is
  the whole body of the client and within the limit.  A response is the proxy's own, or
  it is what the backend of the last attempt answered: its status, its headers without
  the hop-by-hop ones, the correlation id, and its body.
-/
import FerrumProxy.Frames
import FerrumProxy.BodyLimits
import FerrumProxy.RequestIds

namespace FerrumProxy

open Lib Sys

/-! ## The body of the client -/

/-- The bytes that an event brings for the body of the request `id`. -/
def Sys.Event.bytesOf (id : ℕ) : Event → Bytes
  | .body id' (some (.data bytes)) => if id' = id then bytes else []
  | _ => []

/-- The bytes of the body of the request `id` that have come in. -/
def clientBytes (id : ℕ) (es : List (ℕ × Event)) : Bytes := es.flatMap (·.2.bytesOf id)

@[simp] theorem clientBytes_concat (id : ℕ) (es : List (ℕ × Event)) (e : ℕ × Event) :
    clientBytes id (es ++ [e]) = clientBytes id es ++ e.2.bytesOf id := by
  simp [clientBytes]

/-- The body that a dispatch holds for its attempts. -/
def Dispatch.body? : Dispatch → Option Bytes
  | .retry _ _ body | .prebuffer body => some body
  | .stream _ => none

/-- `body` is all of the body of the request `id`, and within the limit. -/
structure Whole (P : Setup) (id : ℕ) (es : List (ℕ × Event)) (body : Bytes) : Prop where
  eq : body = clientBytes id es
  le : body.length ≤ P.config.upstream.maxRequestBodyBytes
  ended : ∃ t, (t, .body id none) ∈ es

theorem Whole.concat {P : Setup} {id : ℕ} {es : List (ℕ × Event)} {body : Bytes} {e : ℕ × Event}
    (h : Whole P id es body) (he : e.2.bytesOf id = []) : Whole P id (es ++ [e]) body where
  eq := by rw [clientBytes_concat, he, List.append_nil, h.eq]
  le := h.le
  ended := h.ended.imp fun _ => List.mem_append_left _

/-- The body of the client ends. -/
theorem Whole.of_end {P : Setup} {id t : ℕ} {es : List (ℕ × Event)} {body : Bytes}
    (heq : body = clientBytes id es) (hle : body.length ≤ P.config.upstream.maxRequestBodyBytes) :
    Whole P id (es ++ [(t, .body id none)]) body where
  eq := by simpa [Sys.Event.bytesOf] using heq
  le := hle
  ended := ⟨t, by simp⟩

/-- What is buffered stays within the limit. -/
theorem bufferItem_le {limit idle : ℕ} {buffered buffered' : Bytes} {item : StreamItem}
    (h : bufferItem limit idle buffered item = .ok buffered') : buffered'.length ≤ limit := by
  cases item with
  | data bytes =>
    simp only [bufferItem] at h
    split_ifs at h with hlimit
    obtain rfl := Except.ok.inj h
    rw [List.length_append]
    omega
  | readError | idleElapsed => cases h

/-! ## The passage of a request -/

/-- The backend of the last attempt. -/
def lastAttempt (log : List (ℕ × Obs)) : Option String := (attemptsOf log).getLast?

/-- The response at the instant `t` is what the backend of the last attempt has answered. -/
def FromBackend (P : Setup) (id : ℕ) (rid : String) (es : List (ℕ × Event)) (log : List (ℕ × Obs))
    (t : ℕ) (response : Response) : Prop :=
  ∃ b status headers, lastAttempt log = some b ∧ (t, .resolved id (.response status headers)) ∈ es ∧
    contentLengthExceeds headers P.config.upstream.maxResponseBodyBytes = none ∧
    response =
      ⟨status, insertText (sanitizeHopByHopHeaders headers) requestIdHeader rid, .upstream⟩

/-- What an entry must say about the request with the locals `job`. -/
def Passes (P : Setup) (id : ℕ) (job : Job) (es : List (ℕ × Event)) (log : List (ℕ × Obs))
    (e : ℕ × Obs) : Prop :=
  match e.2 with
  | .attempt _ b d upstream _ => upstream = prepareAttempt P job b d ∧
    ∀ body, d.body? = some body → Whole P id es body
  | .responded _ response => response.Own ∨ FromBackend P id job.requestId es log e.1 response
  | _ => True

/-- No attempt in `log` has a body of its own. -/
def Bodiless (log : List (ℕ × Obs)) : Prop :=
  ∀ e ∈ log, ∀ id b d upstream elapsed, e.2 = .attempt id b d upstream elapsed → d.body? = none

theorem Bodiless.of_attemptsOf {log : List (ℕ × Obs)} (h : attemptsOf log = []) :
    Bodiless log := by
  rintro ⟨t, o⟩ he id b d upstream elapsed rfl
  have := List.filterMap_eq_nil_iff.1 h _ he
  cases this

/-- The response has been returned. -/
def Task.answered : Task → Bool
  | .responding _ _ _ | .done => true
  | _ => false

/-- What a task holds. -/
def Keeps (P : Setup) (id : ℕ) (es : List (ℕ × Event)) (log : List (ℕ × Obs)) : Task → Prop
  | .buffering _ _ buffered => buffered = clientBytes id es ∧
    buffered.length ≤ P.config.upstream.maxRequestBodyBytes ∧ attemptsOf log = []
  | .forwarding _ b d => lastAttempt log = some b ∧
    match d.body? with
    | some body => Whole P id es body
    | none => Bodiless log
  | .sleeping _ _ _ body _ => Whole P id es body
  | .responding _ _ _ | .done => True

/-- The passage of the request `id`, with its locals `job`. -/
structure Passage (P : Setup) (id : ℕ) (job : Job) (es : List (ℕ × Event)) (task : Task)
    (log : List (ℕ × Obs)) : Prop where
  enters : ∃ t req, (t, .arrived id req) ∈ log ∧ Enters P t req job
  idVisible : job.requestId.toList.all visible
  jobs : ∀ job', task.job? = some job' → job' = job
  passes : ∀ e ∈ log, Passes P id job es log e
  holds : Keeps P id es log task
  answered : (∃ e ∈ log, ∃ id response, e.2 = .responded id response) → task.answered

section
variable {P : Setup} {m : HealthManager} {t id : ℕ} {job : Job} {e : Event} {old new : Task}
  {log os : List (ℕ × Obs)} {es : List (ℕ × Event)}

/-! ## One transition -/

theorem Head.job?_eq {job : Job} {attempted : List String} {n : ℕ} {body : Bytes}
    (h : Head P m t id job attempted n body os new) {job' : Job} (hnew : new.job? = some job') :
    job' = job := by
  cases h with
  | attempt => exact (Option.some.inj hnew).symm
  | _ => cases hnew

/-- The locals stay the same. -/
theorem Trans.job?_eq (h : Trans P m t id e (some old) os new) {job : Job}
    (hnew : new.job? = some job) : old.job? = some job := by
  cases h with
  | bufferedRetry hh => exact hh.job?_eq hnew ▸ rfl
  | again _ _ _ _ hh => exact hh.job?_eq hnew ▸ rfl
  | woken _ hh => exact hh.job?_eq hnew ▸ rfl
  | returned hn =>
    rcases hn with rfl | rfl
    · exact hnew
    · cases hnew
  | dropped => cases hnew
  | _ => first | exact hnew | cases hnew

theorem Head.replied {job : Job} {attempted : List String} {n : ℕ} {body : Bytes}
    (h : Head P m t id job attempted n body os new) {o : ℕ × Obs} (ho : o ∈ os)
    {id' : ℕ} {response : Response}
    (hr : o.2 = .responded id' response) : o.1 = t ∧ new.answered ∧ attemptsOf os = [] := by
  cases h with
  | late => exact ⟨by rw [List.mem_singleton.1 ho], rfl, rfl⟩
  | exhausted =>
    rcases List.mem_pair.1 ho with rfl | rfl
    · cases hr
    · exact ⟨rfl, rfl, rfl⟩
  | attempt => simp [lookEntry] at ho; rcases ho with rfl | rfl | rfl <;> cases hr

/-- With the response of a request its attempts are over. -/
theorem Trans.replied {old : Option Task} (h : Trans P m t id e old os new) {o : ℕ × Obs}
    (ho : o ∈ os) {id' : ℕ} {response : Response}
    (hr : o.2 = .responded id' response) : o.1 = t ∧ new.answered ∧ attemptsOf os = [] := by
  cases h with
  | bufferedRetry hh => exact hh.replied ho hr
  | woken _ hh => exact hh.replied ho hr
  | again _ _ _ _ hh =>
    simp only [List.mem_cons] at ho
    rcases ho with rfl | rfl | ho
    · cases hr
    · cases hr
    · obtain ⟨ht, hn, ha⟩ := hh.replied ho hr
      exact ⟨ht, hn, ha⟩
  | answered _ hl =>
    rcases hl with rfl | rfl <;> simp at ho <;> rcases ho with rfl | rfl | rfl <;>
      cases hr <;> exact ⟨rfl, rfl, rfl⟩
  | returned hn =>
    rcases List.mem_pair.1 ho with rfl | rfl
    · cases hr
    · exact ⟨rfl, by rcases hn with rfl | rfl <;> rfl, rfl⟩
  | _ =>
    simp [lookEntry, outcomeEntry] at ho <;> (try rcases ho with rfl | rfl | rfl | rfl) <;>
      cases hr <;> exact ⟨rfl, rfl, rfl⟩

/-- An answered request makes no further attempt. -/
theorem Trans.stays (h : Trans P m t id e (some old) os new) (hold : old.answered) :
    new.answered ∧ attemptsOf os = [] := by
  cases h with
  | download | downloadFailed | downloaded | dropped => exact ⟨rfl, rfl⟩
  | _ => cases hold

/-- The response made of the result of an attempt is an error of the proxy or what the backend has
    answered. -/
theorem resultResponse_cases (P : Setup) (job : Job) (b : String) (d : Dispatch) (r : Resolution) :
    (resultResponse job (forwardResult P job b d r)).Own ∨ ∃ status headers,
      r = .response status headers ∧
      contentLengthExceeds headers P.config.upstream.maxResponseBodyBytes = none ∧
      resultResponse job (forwardResult P job b d r) =
        ⟨status, insertText (sanitizeHopByHopHeaders headers) requestIdHeader job.requestId,
          .upstream⟩ := by
  cases hres : forwardResult P job b d r with
  | error err => exact .inl ((Response.Own.of_badGateway err).withId _)
  | ok response =>
    unfold forwardResult at hres
    cases hu : prepareAttempt P job b d with
    | error err => simp [hu, bind, Except.bind] at hres
    | ok u =>
    simp only [hu, bind, Except.bind] at hres
    cases r with
    | elapsed | failed => cases hres
    | response status headers =>
      simp only [receive] at hres
      split at hres
      · cases hres
      · rename_i hlimit
        obtain rfl := Except.ok.inj hres
        exact .inr ⟨status, headers, rfl, hlimit, rfl⟩

/-- What the entries of a transition of the request say. -/
def Sent (P : Setup) (id : ℕ) (job : Job) (e : Event) (old : Task) : Obs → Prop
  | .attempt _ b d upstream _ => upstream = prepareAttempt P job b d
  | .responded _ response => response.Own ∨ ∃ r b d, e = .resolved id r ∧
      old = .forwarding job b d ∧ response = resultResponse job (forwardResult P job b d r)
  | _ => True

/-- An entry still says what it said. -/
theorem Passes.next {o : ℕ × Obs} (h : Passes P id job es log o)
    (hbytes : e.bytesOf id = [] ∨ ∀ id b d upstream elapsed,
      o.2 = .attempt id b d upstream elapsed → d.body? = none)
    (hreply : ∀ id response, o.2 = .responded id response → attemptsOf os = []) :
    Passes P id job (es ++ [(t, e)]) (log ++ os) o := by
  obtain ⟨t', o⟩ := o
  cases o with
  | attempt id' b d upstream elapsed =>
    refine ⟨h.1, fun body hbody => ?_⟩
    rcases hbytes with hbytes | hbytes
    · exact (h.2 body hbody).concat hbytes
    · rw [hbytes _ _ _ _ _ rfl] at hbody
      cases hbody
  | responded id' response =>
    refine Or.imp_right ?_ h
    rintro ⟨b, status, headers, hlast, hmem, hlimit, heq⟩
    refine ⟨b, status, headers, ?_, List.mem_append_left _ hmem, hlimit, heq⟩
    rw [lastAttempt, attemptsOf_append, hreply _ _ rfl, List.append_nil]
    exact hlast
  | _ => trivial

/-- The passage goes on when the new attempts have the whole body and the task holds what it
    should. -/
theorem Passage.next (h : Passage P id job es old log) (ht : Trans P m t id e (some old) os new)
    (hsent : ∀ o ∈ os, Sent P id job e old o.2) (hbytes : e.bytesOf id = [] ∨ Bodiless log)
    (hwhole : ∀ o ∈ os, ∀ id' b d upstream elapsed body,
      o.2 = .attempt id' b d upstream elapsed → d.body? = some body →
      Whole P id (es ++ [(t, e)]) body)
    (hholds : Keeps P id (es ++ [(t, e)]) (log ++ os) new) :
    Passage P id job (es ++ [(t, e)]) new (log ++ os) where
  enters := by
    obtain ⟨t₀, req, hmem, henter⟩ := h.enters
    exact ⟨t₀, req, List.mem_append_left _ hmem, henter⟩
  idVisible := h.idVisible
  jobs job' hnew := h.jobs job' (ht.job?_eq hnew)
  passes := by
    refine List.forall_mem_append.2 ⟨fun o ho => (h.passes o ho).next ?_ ?_, fun o ho => ?_⟩
    · exact hbytes.imp_right fun hbody => hbody o ho
    · intro id' response hr
      exact (ht.stays (h.answered ⟨o, ho, id', response, hr⟩)).2
    · have hs := hsent o ho
      obtain ⟨t', o⟩ := o
      cases o with
      | attempt id' b d upstream elapsed =>
        exact ⟨hs, fun body hbody => hwhole _ ho _ _ _ _ _ _ rfl hbody⟩
      | responded id' response =>
        obtain ⟨rfl, -, hnone⟩ := ht.replied ho rfl
        refine hs.elim .inl ?_
        rintro ⟨r, b, d, rfl, rfl, rfl⟩
        rcases resultResponse_cases P job b d r with hown | ⟨status, headers, rfl, hlimit, heq⟩
        · exact .inl hown
        · refine .inr ⟨b, status, headers, ?_, by simp, hlimit, heq⟩
          rw [lastAttempt, attemptsOf_append, hnone, List.append_nil]
          exact h.holds.1
      | _ => trivial
  holds := hholds
  answered := by
    rintro ⟨o, ho, id', response, hr⟩
    rcases List.mem_append.1 ho with ho | ho
    · exact (ht.stays (h.answered ⟨o, ho, id', response, hr⟩)).1
    · exact (ht.replied ho hr).2.1

/-- Entries without an attempt. -/
theorem attemptsOf_ne {o : ℕ × Obs} (h : attemptsOf os = []) (ho : o ∈ os) {id : ℕ} {b : String}
    {d : Dispatch} {upstream : Except UpstreamError UpstreamRequest} {elapsed : ℕ} :
    o.2 ≠ .attempt id b d upstream elapsed := by
  obtain ⟨t, o⟩ := o
  rintro rfl
  cases List.filterMap_eq_nil_iff.1 h _ ho

/-- A transition without an attempt. -/
theorem Passage.still (h : Passage P id job es old log) (ht : Trans P m t id e (some old) os new)
    (hsent : ∀ o ∈ os, Sent P id job e old o.2) (hbytes : e.bytesOf id = [] ∨ Bodiless log)
    (hnone : attemptsOf os = []) (hholds : Keeps P id (es ++ [(t, e)]) (log ++ os) new) :
    Passage P id job (es ++ [(t, e)]) new (log ++ os) :=
  h.next ht hsent hbytes (fun _ ho _ _ _ _ _ _ ha => absurd ha (attemptsOf_ne hnone ho)) hholds

/-- From the head of the retry loop with the whole body. -/
theorem Passage.head {job' : Job} {attempted : List String} {n : ℕ} {body : Bytes}
    (pre : List (ℕ × Obs)) (h : Passage P id job es old log)
    (ht : Trans P m t id e (some old) (pre ++ os) new)
    (hsent : ∀ o ∈ pre ++ os, Sent P id job e old o.2) (hbytes : e.bytesOf id = [])
    (hpre : attemptsOf pre = []) (hbody : Whole P id (es ++ [(t, e)]) body) {m' : HealthManager}
    (hh : Head P m' t id job' attempted n body os new) :
    Passage P id job (es ++ [(t, e)]) new (log ++ (pre ++ os)) := by
  cases hh with
  | late => exact h.still ht hsent (.inl hbytes) (by rw [attemptsOf_append, hpre]; rfl) trivial
  | exhausted =>
    exact h.still ht hsent (.inl hbytes) (by rw [attemptsOf_append, hpre]; rfl) trivial
  | @attempt b upstream =>
    refine h.next ht hsent (.inl hbytes) ?_ ⟨?_, hbody⟩
    · intro o ho id' b' d u x body' ha hbody'
      rcases List.mem_append.1 ho with ho | ho
      · exact absurd ha (attemptsOf_ne hpre ho)
      · simp only [List.mem_cons, List.not_mem_nil, or_false] at ho
        rcases ho with rfl | rfl | rfl
        · cases ha
        · cases ha
        · obtain ⟨-, -, rfl, -, -⟩ := Obs.attempt.inj ha
          exact Option.some.inj hbody' ▸ hbody
    · rw [lastAttempt, attemptsOf_append, attemptsOf_append, hpre]
      exact List.getLast?_concat ..

/-- **One transition.** -/
theorem Passage.trans (h : Passage P id job es old log) (ht : Trans P m t id e (some old) os new)
    (hsent : ∀ o ∈ os, Sent P id job e old o.2) :
    Passage P id job (es ++ [(t, e)]) new (log ++ os) := by
  have hholds := h.holds
  have hkeep := ht
  cases ht with
  | chunk hitem =>
    obtain ⟨rfl, -, hnone⟩ := hholds
    have hle := bufferItem_le hitem
    obtain ⟨bytes, rfl, rfl, -⟩ := bufferItem_ok hitem
    refine h.still hkeep hsent (.inr (.of_attemptsOf hnone)) rfl ⟨?_, hle, ?_⟩
    · simp [Sys.Event.bytesOf]
    · rw [List.append_nil, hnone]
  | bufferFailed => exact h.still hkeep hsent (.inr (.of_attemptsOf hholds.2.2)) rfl trivial
  | @bufferedRetry _ buffered _ _ hh =>
    obtain ⟨heq, hle, -⟩ := hholds
    exact h.head [] hkeep hsent rfl rfl (.of_end heq hle) hh
  | @bufferedPrebuffer _ b buffered upstream =>
    obtain ⟨heq, hle, -⟩ := hholds
    refine h.next hkeep hsent (.inl rfl) ?_ ⟨?_, .of_end heq hle⟩
    · intro o ho id' b' d u x body ha hbody
      rw [List.mem_singleton.1 ho] at ha
      obtain ⟨-, -, rfl, -, -⟩ := Obs.attempt.inj ha
      exact Option.some.inj hbody ▸ .of_end heq hle
    · rw [lastAttempt, attemptsOf_append]
      exact List.getLast?_concat ..
  | upload =>
    obtain ⟨hlast, hnone⟩ := hholds
    exact h.still hkeep hsent (.inr hnone) rfl (by simpa [Keeps] using ⟨hlast, hnone⟩)
  | uploadFailed =>
    obtain ⟨hlast, hnone⟩ := hholds
    exact h.still hkeep hsent (.inr hnone) rfl (by simpa [Keeps] using ⟨hlast, hnone⟩)
  | uploadEnded =>
    obtain ⟨hlast, hnone⟩ := hholds
    exact h.still hkeep hsent (.inr hnone) rfl (by simpa [Keeps] using ⟨hlast, hnone⟩)
  | returned hn =>
    exact h.still hkeep hsent (.inl rfl) rfl (by rcases hn with rfl | rfl <;> trivial)
  | backoff => exact h.still hkeep hsent (.inl rfl) rfl (hholds.2.concat rfl)
  | again _ _ _ _ hh =>
    exact h.head [_, _] hkeep hsent rfl rfl (hholds.2.concat rfl) hh
  | woken _ hh => exact h.head [] hkeep hsent rfl rfl (hholds.concat rfl) hh
  | download | downloadFailed | downloaded | dropped =>
    exact h.still hkeep hsent (.inl rfl) rfl trivial

/-- The steps of other requests. -/
theorem Passage.other (h : Passage P id job es new log) (hbytes : e.bytesOf id = []) :
    Passage P id job (es ++ [(t, e)]) new log where
  enters := h.enters
  idVisible := h.idVisible
  jobs := h.jobs
  passes o ho := by
    have hnext : Passes P id job (es ++ [(t, e)]) (log ++ []) o :=
      (h.passes o ho).next (.inl hbytes) fun _ _ _ => rfl
    rwa [List.append_nil] at hnext
  holds := by
    have hholds := h.holds
    have hreceived : clientBytes id (es ++ [(t, e)]) = clientBytes id es := by
      rw [clientBytes_concat, hbytes, List.append_nil]
    cases new with
    | buffering => simpa only [Keeps, hreceived] using hholds
    | forwarding job' b d =>
      refine ⟨hholds.1, ?_⟩
      have hbody := hholds.2
      cases d with
      | retry | prebuffer => exact hbody.concat hbytes
      | stream => exact hbody
    | sleeping => exact hholds.concat hbytes
    | responding | done => trivial
  answered := h.answered

/-- A request that the proxy has answered by itself. -/
def SelfAnswered (log : List (ℕ × Obs)) : Prop :=
  attemptsOf log = [] ∧ ∀ e ∈ log, ∀ id response, e.2 = .responded id response → response.Own

/-- **A new request.** -/
theorem Passage.arrive (ht : Trans P m t id e none os new) (hreceived : clientBytes id es = [])
    (hvisible : ∀ job, new.job? = some job → job.requestId.toList.all visible)
    (hown : ∀ o ∈ os, ∀ id response, o.2 = .responded id response → response.Own)
    (hsent : ∀ o ∈ os, ∀ id b d upstream elapsed, o.2 = .attempt id b d upstream elapsed →
      ∀ job, new.job? = some job → upstream = prepareAttempt P job b d) :
    new = .done ∧ SelfAnswered os ∨ ∃ job, Passage P id job (es ++ [(t, e)]) new os := by
  cases ht with
  | answered _ hl => exact .inl ⟨rfl, by rcases hl with rfl | rfl <;> rfl, hown⟩
  | noPermit | noBackend | noPermitChosen => exact .inl ⟨rfl, rfl, hown⟩
  | @startRetry req job henter =>
    refine .inr ⟨job, ⟨t, req, by simp, henter⟩, hvisible job rfl, by simp [Task.job?],
      by simp [Passes], ?_, by simp⟩
    exact ⟨by simp [hreceived, Sys.Event.bytesOf], Nat.zero_le _, rfl⟩
  | @startPrebuffer req job b henter =>
    refine .inr ⟨job, ⟨t, req, by simp, henter⟩, hvisible job rfl, by simp [Task.job?],
      by simp [Passes, lookEntry], ?_, by simp [lookEntry]⟩
    exact ⟨by simp [hreceived, Sys.Event.bytesOf], Nat.zero_le _, rfl⟩
  | @startStream req job b upstream henter =>
    have hup := hsent (t, .attempt id b (.stream (.running 0)) upstream (t - job.started)) (by simp)
      _ _ _ _ _ rfl job rfl
    refine .inr ⟨job, ⟨t, req, by simp, henter⟩, hvisible job rfl, by simp [Task.job?], ?_,
      ⟨rfl, ?_⟩, by simp [lookEntry]⟩
    · simpa [Passes, lookEntry, Dispatch.body?] using hup
    · intro o ho id' b' d u x ha
      simp [lookEntry] at ho
      rcases ho with rfl | rfl | rfl | rfl <;> cases ha
      rfl

end

/-! ## Runs -/

/-- Where the passage of the request `id` stands. -/
def PassageOf (P : Setup) (id : ℕ) (es : List (ℕ × Event)) (log : List (ℕ × Obs)) :
    Option Task → Prop
  | none => log = [] ∧ clientBytes id es = []
  | some task => task = .done ∧ SelfAnswered log ∨ ∃ job, Passage P id job es task log

/-- The steps of other requests. -/
theorem PassageOf.other {P : Setup} {id t : ℕ} {es : List (ℕ × Event)} {log : List (ℕ × Obs)}
    {task : Option Task} {e : Event} (h : PassageOf P id es log task) (hbytes : e.bytesOf id = []) :
    PassageOf P id (es ++ [(t, e)]) log task := by
  cases task with
  | none =>
    refine ⟨h.1, ?_⟩
    rw [clientBytes_concat, hbytes, List.append_nil]
    exact h.2
  | some task => exact h.imp_right fun ⟨job, hp⟩ => ⟨job, hp.other hbytes⟩

/-- The passages of all requests. -/
def Passing (P : Setup) (es : List (ℕ × Event)) (s : Sys) : Prop :=
  ∀ id, PassageOf P id es (entriesOf id s.log) (s.tasks.get? id)

/-- An event of one request brings nothing for the others. -/
theorem Trans.bytesOf_other {P : Setup} {m : HealthManager} {t id id' : ℕ} {e : Event}
    {old : Option Task} {os : List (ℕ × Obs)} {new : Task} (h : Trans P m t id e old os new)
    (hne : id' ≠ id) : e.bytesOf id' = [] := by
  have hbody : ∀ item, (Event.body id item).bytesOf id' = [] := by
    intro item
    unfold Event.bytesOf
    split
    · rename_i he
      obtain ⟨rfl, -⟩ := Event.body.inj he
      exact if_neg hne.symm
    · rfl
  cases h <;> first | rfl | exact hbody _

/-! ### The locals of an attempt -/

theorem prepareAttempt_congr {P : Setup} {job job' : Job} (h : job.request = job'.request)
    (b : String) (d : Dispatch) : prepareAttempt P job b d = prepareAttempt P job' b d := by
  unfold prepareAttempt
  cases d <;> simp only [outgoingHeaders, h]

section
variable {P : Setup} {m : HealthManager} {s s' : Sys} {t t' id : ℕ} {e : Event}
  {os : List (ℕ × Obs)} {old new : Task} {job job' : Job}

theorem JobAt.of_live (h : JobAt s (t, e) id job) (hold : s.tasks.get? id = some old)
    (ht : Trans P m t' id e (some old) os new) : old.job? = some job := by
  rcases h with ⟨task, htask, hjob⟩ | ⟨request, he, -⟩
  · rw [hold] at htask
    exact Option.some.inj htask ▸ hjob
  · obtain rfl : e = .arrive id request := he
    cases ht

/-- The locals of a new request come from the request. -/
theorem Trans.request_eq (h : Trans P m t id e none os new) (hnew : new.job? = some job) :
    ∃ request, e = .arrive id request ∧ job.request = request.withId job.requestId := by
  cases h with
  | startRetry henter | startPrebuffer henter | startStream henter =>
    obtain rfl := Option.some.inj hnew
    exact ⟨_, rfl, henter.request_eq⟩
  | _ => cases hnew

/-- A new request has the id that the proxy gives it. -/
theorem TakesAt.requestId_eq {request : Request}
    (hk : TakesAt P s t (.arrive id request) id os new s')
    (hs : step P s (t, .arrive id request) = some s') (hold : s.tasks.get? id = none)
    (hnew : new.job? = some job) : job.requestId = (s.requestId request).2 := by
  unfold Sys.step at hs
  split_ifs at hs
  have hreact : react P { s with now := t } (.arrive id request) =
      some ({ s with now := t }.handleRequest P id request) := by
    simp only [react, hold]
  obtain rfl := Option.some.inj (hreact.symm.trans hs)
  have hnew' : ({ s with now := t }.handleRequest P id request).tasks.get? id = some new := by
    rw [hk.tasks, Table.get?_insert_self]
  exact (handleRequest_requestId (s := { s with now := t }) hnew' hnew).trans
    (requestId_congr (by rfl) request)

theorem JobAt.of_new (h : JobAt s (t, e) id job') (hold : s.tasks.get? id = none)
    (hk : TakesAt P s t e id os new s') (hs : step P s (t, e) = some s')
    (hnew : new.job? = some job) : job'.request = job.request := by
  have htrans := hk.trans
  rw [hold] at htrans
  obtain ⟨request, rfl, hjob⟩ := htrans.request_eq hnew
  rcases h with ⟨task, htask, -⟩ | ⟨request', he, hjob', hid'⟩
  · rw [hold] at htask
    cases htask
  obtain ⟨-, rfl⟩ := Event.arrive.inj he
  rw [hjob, hjob', hk.requestId_eq hs hold hnew, hid']

end

theorem passing_step {P : Setup} {s s' : Sys} {e : ℕ × Event} {es : List (ℕ × Event)}
    (hI : Passing P es s) (h : step P s e = some s') : Passing P (es ++ [e]) s' := by
  obtain ⟨t, e⟩ := e
  intro id
  obtain ⟨-, ⟨c, hc⟩ | ⟨id', os, new, hk⟩⟩ := step_cases h
  · obtain ⟨b, status, rfl, -⟩ := hc.event
    have hlog : entriesOf id s'.log = entriesOf id s.log := by
      rw [hc.log, entriesOf_append]
      simp [entriesOf, Obs.id?]
    rw [hc.tasks, hlog]
    exact (hI id).other rfl
  have hown := hk.trans.own
  by_cases hid : id = id'
  · subst hid
    have hlog : entriesOf id s'.log = entriesOf id s.log ++ os := by
      rw [hk.log, entriesOf_append, entriesOf_own hown]
    have hwritten := step_written h hk.log
    have hI := hI id
    have htrans := hk.trans
    rw [hk.tasks, Table.get?_insert_self, hlog]
    cases hold : s.tasks.get? id with
    | none =>
      rw [hold] at hI htrans
      have hnew := Passage.arrive htrans hI.2 (fun job hjob => ?_)
        (fun o ho id₁ response hr => ?_) fun o ho id₁ b d upstream elapsed ha job hjob => ?_
      · rw [hI.1]
        exact hnew
      · obtain ⟨request, rfl, -⟩ := htrans.request_eq hjob
        rw [hk.requestId_eq h hold hjob]
        exact requestId_visible s request
      · have hw := hwritten o ho
        rw [hr] at hw
        refine hw.resolve_right ?_
        rintro ⟨r, job, b, d, rfl, -, -⟩
        cases htrans
      · have hw := hwritten o ho
        have hid := hown o ho
        rw [ha] at hw hid
        obtain rfl := Option.some.inj hid
        obtain ⟨job', hat, rfl⟩ := hw
        exact prepareAttempt_congr (hat.of_new hold hk h hjob) b d
    | some old =>
      rw [hold] at hI htrans
      refine .inr ?_
      obtain ⟨rfl, -⟩ | ⟨job, hp⟩ := hI
      · cases htrans
        rename_i hdone
        exact absurd rfl hdone
      · refine ⟨job, hp.trans htrans fun o ho => ?_⟩
        have hw := hwritten o ho
        have hid := hown o ho
        obtain ⟨t', o⟩ := o
        cases o with
        | attempt id₁ b d upstream elapsed =>
          obtain rfl := Option.some.inj hid
          obtain ⟨job', hat, rfl⟩ := hw
          rw [hp.jobs job' (hat.of_live hold htrans)]
          rfl
        | responded id₁ response =>
          obtain rfl := Option.some.inj hid
          refine hw.imp_right ?_
          rintro ⟨r, job', b, d, rfl, hold', rfl⟩
          obtain rfl := Option.some.inj (hold.symm.trans hold')
          exact ⟨r, b, d, rfl, by rw [hp.jobs job' rfl], by rw [hp.jobs job' rfl]⟩
        | _ => trivial
  · rw [hk.tasks, Table.get?_insert_ne _ _ hid, hk.log, entriesOf_append,
      entriesOf_other hown hid, List.append_nil]
    exact (hI id).other (hk.trans.bytesOf_other hid)

/-- **Passages.** -/
theorem passing_of_exec {P : Setup} {es : List (ℕ × Event)} {s : Sys}
    (h : exec (step P) P.initial es = some s) : Passing P es s :=
  have h₀ : Passing P [] P.initial := fun _ => ⟨rfl, rfl⟩
  exec_rule h₀ (fun _ _ _ _ _ hI hs => passing_step hI hs) h

/-- The passage of a request that has been attempted. -/
theorem Passing.of_attempt {P : Setup} {es : List (ℕ × Event)} {s : Sys} (h : Passing P es s)
    {t id : ℕ} {b : String} {d : Dispatch} {upstream : Except UpstreamError UpstreamRequest}
    {elapsed : ℕ} (ha : (t, .attempt id b d upstream elapsed) ∈ s.log) :
    ∃ task job, Passage P id job es task (entriesOf id s.log) := by
  have hmem := mem_entriesOf ha rfl
  have hp := h id
  cases hold : s.tasks.get? id with
  | none =>
    rw [hold] at hp
    rw [hp.1] at hmem
    cases hmem
  | some task =>
    rw [hold] at hp
    rcases hp with ⟨-, hnone, -⟩ | ⟨job, hp⟩
    · exact absurd rfl (attemptsOf_ne hnone hmem)
    · exact ⟨task, job, hp⟩

/-- A retried request with a body in two chunks; the second backend answers it. -/
def retriedEvents : List (ℕ × Event) :=
  [(0, .arrive 1 (smallUpload .get 3)), (1, .body 1 (some (.data [1, 2]))),
    (2, .body 1 (some (.data [3]))), (3, .body 1 none), (4, .resolved 1 (.response 503 [])),
    (100000000, .wake 1), (100000001, .resolved 1 (.response 200
      [("connection", HeaderValue.ofString "close"), ("etag", HeaderValue.ofString "v1")]))]

/-- **Attempts carry the request.** All attempts of a request are prepared from the request that
    arrived, with the same locals, whichever backends they go to; and the body that an attempt has
    is the body that the client has sent, whole and within the limit. -/
theorem attempts_carry_request (P : Setup) {es : List (ℕ × Event)} {s : Sys}
    (h : exec (step P) P.initial es = some s) {t id : ℕ} {b : String} {d : Dispatch}
    {upstream : Except UpstreamError UpstreamRequest} {elapsed : ℕ}
    (ha : (t, .attempt id b d upstream elapsed) ∈ s.log) :
    ∃ t₀ req job, (t₀, .arrived id req) ∈ s.log ∧ Enters P t₀ req job ∧
      ∀ t b d upstream elapsed, (t, .attempt id b d upstream elapsed) ∈ s.log →
        upstream = prepareAttempt P job b d ∧ ∀ body, d.body? = some body →
          body = clientBytes id es ∧ body.length ≤ P.config.upstream.maxRequestBodyBytes ∧
          ∃ t, (t, .body id none) ∈ es := by
  obtain ⟨task, job, hp⟩ := (passing_of_exec h).of_attempt ha
  obtain ⟨t₀, req, hmem, henter⟩ := hp.enters
  refine ⟨t₀, req, job, List.mem_of_mem_filter hmem, henter, fun t b d upstream elapsed ha => ?_⟩
  obtain ⟨hup, hbody⟩ := hp.passes _ (mem_entriesOf ha rfl)
  exact ⟨hup, fun body hd => ⟨(hbody body hd).eq, (hbody body hd).le, (hbody body hd).ended⟩⟩

/-- Both attempts of the retried request have its three bytes. -/
theorem attempts_carry_request_retried :
    let P := small ["http://127.0.0.1:3001", "http://127.0.0.1:3002"] 3 2 1
    ∃ s, exec (step P) P.initial retriedEvents = some s ∧
      attemptsOf s.log = ["http://127.0.0.1:3001", "http://127.0.0.1:3002"] ∧
      ∀ t b d upstream elapsed, (t, .attempt 1 b d upstream elapsed) ∈ s.log →
        ∀ body, d.body? = some body → body = [1, 2, 3] := by
  intro P
  let first : ℕ × Obs := (3, .attempt 1 "http://127.0.0.1:3001"
    (.retry ["http://127.0.0.1:3001"] 1 [1, 2, 3])
    (.ok ⟨.get, ⟨"/api/x", none⟩,
      [("x-request-id", HeaderValue.ofString "0000000000000001"),
        ("content-length", HeaderValue.ofString "3"),
        ("host", HeaderValue.ofString "127.0.0.1:3001")]⟩) 3)
  obtain ⟨s, hs, hp⟩ := exists_of_exec_any (step P) P.initial retriedEvents
    (fun s => decide (attemptsOf s.log = ["http://127.0.0.1:3001", "http://127.0.0.1:3002"] ∧
      first ∈ s.log)) (by decide +kernel)
  obtain ⟨hattempts, hfirst⟩ := of_decide_eq_true hp
  obtain ⟨_, _, _, -, -, hall⟩ := attempts_carry_request P hs hfirst
  exact ⟨s, hs, hattempts, fun t b d u x ha body hd => ((hall t b d u x ha).2 body hd).1⟩

/-- **Replies have a source.** A response has the correlation id of its request, and it is one of
    the proxy's own, with no header of a backend, or what the backend of the last attempt of the
    request has answered at this instant: its status, its headers without the hop-by-hop ones and
    with the id, and its body. -/
theorem replies_sourced (P : Setup) {es : List (ℕ × Event)} {s : Sys}
    (h : exec (step P) P.initial es = some s) {t t₀ id : ℕ} {req : Request}
    {l₁ l₂ : List (ℕ × Obs)} (ha : s.log = l₁ ++ (t₀, .arrived id req) :: l₂) {response : Response}
    (hr : (t, .responded id response) ∈ s.log) :
    values response.headers requestIdHeader = [HeaderValue.ofString (idAfter l₁ req)] ∧
      (response.Own ∨ ∃ b status headers, lastAttempt (entriesOf id s.log) = some b ∧
        (t, .resolved id (.response status headers)) ∈ es ∧
        contentLengthExceeds headers P.config.upstream.maxResponseBodyBytes = none ∧
        response = ⟨status, insertText (sanitizeHopByHopHeaders headers) requestIdHeader
          (idAfter l₁ req), .upstream⟩) := by
  have hid := ((P.reachable_of_exec h).hasId ha).responses t response hr
  refine ⟨hid, ?_⟩
  have hmem := mem_entriesOf hr rfl
  have hp := passing_of_exec h id
  cases hold : s.tasks.get? id with
  | none =>
    rw [hold] at hp
    rw [hp.1] at hmem
    cases hmem
  | some task =>
    rw [hold] at hp
    rcases hp with ⟨-, -, hown⟩ | ⟨job, hp⟩
    · exact .inl (hown _ hmem id response rfl)
    · refine (hp.passes _ hmem).imp_right ?_
      rintro ⟨b, status, headers, hlast, hresolved, hlimit, rfl⟩
      -- the locals hold the id that the response has
      have hrid : job.requestId = idAfter l₁ req := by
        have hset : values (insertText (sanitizeHopByHopHeaders headers) requestIdHeader
            job.requestId) requestIdHeader = [HeaderValue.ofString job.requestId] :=
          (values_insertText _ _ _ hp.idVisible).trans (if_pos rfl)
        exact ofString_inj (List.cons.inj (hset.symm.trans hid)).1
      exact ⟨b, status, headers, hlast, hresolved, hlimit, by rw [hrid]⟩

/-- The reply to the retried request is the answer of the second backend. -/
theorem replies_sourced_retried :
    let P := small ["http://127.0.0.1:3001", "http://127.0.0.1:3002"] 3 2 1
    let response : Response := ⟨200, [("etag", HeaderValue.ofString "v1"),
      ("x-request-id", HeaderValue.ofString "0000000000000001")], .upstream⟩
    ∃ s, exec (step P) P.initial retriedEvents = some s ∧
      (100000001, .responded 1 response) ∈ s.log ∧
      values response.headers requestIdHeader =
        [HeaderValue.ofString (idAfter [] (smallUpload .get 3))] ∧
      ∃ b status headers, lastAttempt (entriesOf 1 s.log) = some b ∧
        (100000001, .resolved 1 (.response status headers)) ∈ retriedEvents ∧
        response = ⟨status, insertText (sanitizeHopByHopHeaders headers) requestIdHeader
          (idAfter [] (smallUpload .get 3)), .upstream⟩ := by
  intro P response
  obtain ⟨s, hs, hp⟩ := exists_of_exec_any (step P) P.initial retriedEvents
    (fun s => decide ((100000001, .responded 1 response) ∈ s.log ∧
      s.log.take 1 = [(0, .arrived 1 (smallUpload .get 3))])) (by decide +kernel)
  obtain ⟨hr, hfirst⟩ := of_decide_eq_true hp
  have ha : s.log = [] ++ (0, .arrived 1 (smallUpload .get 3)) :: s.log.drop 1 := by
    have := List.take_append_drop 1 s.log
    rw [hfirst] at this
    exact this.symm
  obtain ⟨hid, ⟨⟨text, htext⟩, -⟩ | ⟨b, status, headers, h⟩⟩ := replies_sourced P hs ha hr
  · cases htext
  · exact ⟨s, hs, hr, hid, b, status, headers, h.1, h.2.1, h.2.2.2⟩

end FerrumProxy
