/-
  Requests that fail because of their client.

  `clientFault` is what the environment does when the client never completes its
  body and the upstream is not at fault.  On the two buffering paths the request
  is then answered without an attempt.  The streaming path has already called
  `forward`, whose error is recorded as a failure of the backend.

  The only other call on account of the request is the look at backends when it
  arrives (`LooksAt`), which the path of the retries puts off until the body is
  complete.  It changes the state of a backend whose window is over without anyone
  having noticed (`FindsOver`).
-/
import FerrumProxy.Arrivals
import Mathlib.Data.List.Induction

namespace FerrumProxy

open Lib Sys

/-- What `client.request` can come to when the client is at fault, once its body has failed. -/
def Resolution.clientFailed : Resolution → Bool
  | .elapsed => true
  | .failed err => !err.isConnect
  | .response _ _ => false

/-- The request has a body, by its headers; without one of these hyper takes it to be empty. -/
def Request.declaresBody (request : Request) : Bool :=
  (contentLengthExceeds request.headers 0).isSome ||
    (request.headers.get "transfer-encoding").isSome

/-- The backend is sent the streamed body.  Without a length, which `Transfer-Encoding` does not
    give and which is the only one of the two that is forwarded, hyper's client takes the body of
    a `GET`, `HEAD` or `CONNECT` to be empty. -/
def Request.sendsBody (request : Request) : Bool :=
  (contentLengthExceeds request.headers 0).isSome ||
    !decide (request.method ∈ [Method.get, .head, .connect])

/-- The request `id` has a body that never ends: it stalls, breaks off or grows too large.  The
    upstream waits for it, so that `client.request` does not resolve while the body is running (only
    the timeout around it can fire), and resolves to an error other than a connect error once the
    body stream has yielded an error.  A backend that is sent no body does not wait for it. -/
def clientFault (id : ℕ) (old : Option Task) : Event → Bool
  | .arrive id' request => id' ≠ id || request.declaresBody
  | .body id' none => id' ≠ id
  | .resolved id' r =>
    id' ≠ id ||
      match old with
      | some (.forwarding job _ (.stream (.running _))) => job.request.sendsBody && r = .elapsed
      | some (.forwarding job _ (.stream .failed)) => job.request.sendsBody && r.clientFailed
      | _ => true
  | _ => true

/-- A request that `handle_request` forwards with the body of the client, when `log` is the log
    before its arrival: it passes the checks, is neither retried nor pre-buffered, and its route
    has an eligible backend. -/
def Streams (P : Setup) (log : List (ℕ × Obs)) (t : ℕ) (req : Request) : Prop :=
  ¬ AnsweredFirst P req ∧ P.shouldRetryRequest req.method = false ∧
    shouldPrebufferRequest req.method = false ∧
    ∃ route, matchRoute req.uri.path P.config.routes = some route ∧
      candidatesAt (P.initial.health.run (healthHistory log)) t route [] ≠ []

/-- A failure of some backend is recorded. -/
def Obs.charge : Obs → Bool
  | .health _ (.recordFailure _) => true
  | _ => false

/-- A success of some backend is recorded. -/
def Obs.credit : Obs → Bool
  | .health _ (.recordSuccess _) => true
  | _ => false

/-- No arrival, no attempt, and no call of the health manager but for a failure. -/
def Obs.silent : Obs → Bool
  | .arrived _ _ | .attempt _ _ _ _ _ => false
  | .health _ (.recordFailure _) => true
  | .health _ _ => false
  | _ => true

theorem Obs.credit_of_silent {o : Obs} (h : o.silent) : o.credit = false := by
  rcases o with _ | ⟨_, _ | _⟩ | _ | _ | _ | _ <;> first | rfl | simp [Obs.silent] at h

/-- Such entries hold no call, if they charge nobody. -/
theorem healthHistory_silent {os : List (ℕ × Obs)} (h : ∀ o ∈ os, o.2.silent)
    (hc : ∀ o ∈ os, o.2.charge = false) : healthHistory os = [] := by
  unfold healthHistory
  rw [List.filterMap_eq_nil_iff]
  rintro ⟨t, o⟩ ho
  have hs := h _ ho
  have hno := hc _ ho
  cases o with
  | health src c =>
    cases c with
    | recordFailure b => simp [Obs.charge] at hno
    | _ => simp [Obs.silent] at hs
  | _ => rfl

theorem attemptsOf_silent {os : List (ℕ × Obs)} (h : ∀ o ∈ os, o.2.silent) :
    attemptsOf os = [] := by
  unfold attemptsOf
  rw [List.filterMap_eq_nil_iff]
  rintro ⟨t, o⟩ ho
  have hs := h _ ho
  cases o <;> first | rfl | simp [Obs.silent] at hs

/-! ## The story of such a request -/

/-- Where a request with a faulty client can stand. -/
inductive Phase : Option Task → List (ℕ × Obs) → Prop
  /-- no attempt was made -/
  | waiting {old log} : old = none ∨
      (∃ job chosen buffered, old = some (.buffering job chosen buffered)) ∨ old = some .done →
      attemptsOf log = [] → (∀ o ∈ log, o.2.charge = false) → Phase old log
  /-- the body is being streamed, or the request was dropped meanwhile -/
  | uploading {task log} : (∃ job b u, u ≠ .ended ∧ task = .forwarding job b (.stream u)) ∨
      task = .done → attemptsOf log ≠ [] → (∀ o ∈ log, o.2.charge = false) → Phase (some task) log
  /-- the attempt has failed -/
  | charged {task log} : task = .done ∨ (∃ job b seen, task = .responding job b seen) →
      attemptsOf log ≠ [] → (∃ o ∈ log, o.2.charge) → Phase (some task) log

/-- The error of an attempt whose client is at fault. -/
theorem forwardResult_error (P : Setup) (job : Job) (b : String) (d : Dispatch) {r : Resolution}
    (hr : r.clientFailed) : ∃ err, forwardResult P job b d r = .error err := by
  unfold forwardResult
  cases hp : prepareAttempt P job b d with
  | error err => exact ⟨err, rfl⟩
  | ok upstream =>
    cases r with
    | elapsed => exact ⟨_, rfl⟩
    | failed err => exact ⟨_, rfl⟩
    | response status headers => simp [Resolution.clientFailed] at hr

section
variable {P : Setup} {m : HealthManager} {t id : ℕ} {e : Event} {old : Option Task} {new : Task}
  {log os : List (ℕ × Obs)}

/-- A transition without an attempt or a charge leaves the request waiting. -/
theorem Phase.wait
    (hnew : (∃ job chosen buffered, new = .buffering job chosen buffered) ∨ new = .done)
    (ha : attemptsOf log = []) (hc : ∀ o ∈ log, o.2.charge = false) : Phase (some new) log := by
  refine .waiting ?_ ha hc
  rcases hnew with ⟨job, chosen, buffered, rfl⟩ | rfl
  · exact Or.inr (Or.inl ⟨job, chosen, buffered, rfl⟩)
  · exact Or.inr (Or.inr rfl)

/-- The arrival of the request. -/
theorem Trans.phase (ht : Trans P m t id e none os new) :
    Phase (some new) os ∧ (∀ o ∈ os, o.2.credit = false ∧ o.2.charge = false) ∧
      ∀ r, e ≠ .resolved id r := by
  cases ht with
  | answered _ hl =>
    refine ⟨.wait (Or.inr rfl) ?_ ?_, ?_, by simp⟩ <;> rcases hl with rfl | rfl <;>
      simp [attemptsOf, Obs.charge, Obs.credit]
  | noPermit _ _ =>
    exact ⟨.wait (Or.inr rfl) rfl (by simp [Obs.charge]), by simp [Obs.credit, Obs.charge], by simp⟩
  | startRetry _ _ =>
    exact ⟨.wait (Or.inl ⟨_, _, _, rfl⟩) rfl (by simp [Obs.charge]),
      by simp [Obs.credit, Obs.charge], by simp⟩
  | noBackend _ _ _ | noPermitChosen _ _ _ _ =>
    exact ⟨.wait (Or.inr rfl) rfl (by simp [Obs.charge, lookEntry]),
      by simp [Obs.credit, Obs.charge, lookEntry], by simp⟩
  | startPrebuffer _ _ _ _ =>
    exact ⟨.wait (Or.inl ⟨_, _, _, rfl⟩) rfl (by simp [Obs.charge, lookEntry]),
      by simp [Obs.credit, Obs.charge, lookEntry], by simp⟩
  | startStream _ _ _ _ =>
    exact ⟨.uploading (Or.inl ⟨_, _, _, by simp, rfl⟩) (by simp [attemptsOf])
      (by simp [Obs.charge, lookEntry]), by simp [Obs.credit, Obs.charge, lookEntry], by simp⟩

/-- Every later transition; a failure is recorded when the await of `forward` resolves. -/
theorem Phase.next {old : Task} (h : Phase (some old) log) (hok : clientFault id (some old) e)
    (ht : Trans P m t id e (some old) os new) :
    Phase (some new) (log ++ os) ∧ (∀ o ∈ os, o.2.silent) ∧
      ((∃ o ∈ log ++ os, o.2.charge) ↔ (∃ o ∈ log, o.2.charge) ∨ ∃ r, e = .resolved id r) := by
  have hno : ∀ o ∈ ([] : List (ℕ × Obs)), o.2.silent := by simp
  have hgrow : ∀ os, attemptsOf log ≠ [] → attemptsOf (log ++ os) ≠ [] := fun os ha => by
    rw [attemptsOf_append]
    exact List.append_ne_nil_of_left_ne_nil ha _
  have hsame : ∀ e : Event, (∀ r, e ≠ .resolved id r) →
      ((∃ o ∈ log ++ [], o.2.charge) ↔ (∃ o ∈ log, o.2.charge) ∨ ∃ r, e = .resolved id r) := by
    intro e he
    simp [he]
  cases h with
  | waiting hold ha hc =>
    rcases hold with hold | ⟨job, chosen, buffered, hold⟩ | hold
    · simp at hold
    · obtain rfl := Option.some.inj hold
      cases ht with
      | chunk _ =>
        exact ⟨.wait (Or.inl ⟨_, _, _, rfl⟩) (by simpa using ha) (by simpa using hc), hno,
          hsame _ (by simp)⟩
      | bufferFailed _ =>
        refine ⟨.wait (Or.inr rfl) (by simpa [attemptsOf] using ha) ?_, by simp [Obs.silent],
          by simp [Obs.charge]⟩
        intro o ho
        rcases List.mem_append.1 ho with ho | ho
        · exact hc o ho
        · rw [List.mem_singleton.1 ho]; rfl
      | bufferedRetry _ | bufferedPrebuffer => simp [clientFault] at hok
      | dropped _ =>
        exact ⟨.wait (Or.inr rfl) (by simpa using ha) (by simpa using hc), hno, hsame _ (by simp)⟩
    · obtain rfl := Option.some.inj hold
      cases ht with
      | dropped hd => exact absurd rfl hd
  | uploading hold ha hc =>
    rcases hold with ⟨job, b, u, hu, rfl⟩ | rfl
    · cases ht with
      | upload _ | uploadFailed _ =>
        exact ⟨.uploading (Or.inl ⟨_, _, _, by simp, rfl⟩) (hgrow _ ha) (by simpa using hc), hno,
          hsame _ (by simp)⟩
      | uploadEnded => simp [clientFault] at hok
      | @returned _ _ _ r _ hnew _ =>
        -- the await of `forward` ends with an error, for which a failure is recorded
        have hr : r.clientFailed := by
          cases u with
          | running seen =>
            obtain ⟨-, rfl⟩ : job.request.sendsBody ∧ r = .elapsed := by
              simpa [clientFault] using hok
            rfl
          | failed =>
            have hfailed : job.request.sendsBody ∧ r.clientFailed := by
              simpa [clientFault] using hok
            exact hfailed.2
          | ended => exact absurd rfl hu
        obtain ⟨err, herr⟩ := forwardResult_error P job b (.stream u) hr
        have hcharge : ∃ o ∈ log ++ [outcomeEntry P m t id job b (.stream u) r,
            (t, .responded id (resultResponse job (forwardResult P job b (.stream u) r)))],
            o.2.charge :=
          ⟨outcomeEntry P m t id job b (.stream u) r, by simp,
            by simp [outcomeEntry, herr, outcome, Obs.charge]⟩
        refine ⟨.charged ?_ (hgrow _ ha) hcharge, ?_,
          iff_of_true hcharge (Or.inr ⟨r, rfl⟩)⟩
        · rcases hnew with rfl | rfl
          · exact Or.inr ⟨_, _, _, rfl⟩
          · exact Or.inl rfl
        · simp [outcomeEntry, herr, outcome, Obs.silent]
      | dropped _ =>
        exact ⟨.uploading (Or.inr rfl) (hgrow _ ha) (by simpa using hc), hno, hsame _ (by simp)⟩
    · cases ht with
      | dropped hd => exact absurd rfl hd
  | charged hold ha hch =>
    have hch' : ∀ os, ∃ o ∈ log ++ os, o.2.charge := fun os =>
      hch.imp fun o ho => ⟨by simp [ho.1], ho.2⟩
    rcases hold with rfl | ⟨job, b, seen, rfl⟩
    · cases ht with
      | dropped hd => exact absurd rfl hd
    · cases ht with
      | download _ =>
        exact ⟨.charged (Or.inr ⟨_, _, _, rfl⟩) (hgrow _ ha) (hch' _), hno, hsame _ (by simp)⟩
      | downloadFailed _ =>
        exact ⟨.charged (Or.inl rfl) (hgrow _ ha) (hch' _), by simp [Obs.silent],
          iff_of_true (hch' _) (Or.inl hch)⟩
      | downloaded | dropped _ =>
        exact ⟨.charged (Or.inl rfl) (hgrow _ ha) (hch' _), hno, hsame _ (by simp)⟩

end

/-- What a request with a faulty client has written. -/
theorem Story.phase {P : Setup} {id : ℕ} {old : Option Task} {log : List (ℕ × Obs)}
    (h : Story P id (clientFault id · ·) old log) :
    Phase old log ∧ ∀ o ∈ log, o.2.credit = false := by
  cases old with
  | none =>
    rw [h.eq_nil]
    exact ⟨.waiting (Or.inl rfl) rfl (by simp), by simp⟩
  | some task =>
    refine h.rule (I := fun task log => Phase (some task) log ∧ ∀ o ∈ log, o.2.credit = false) ?_ ?_
    · intro m t e os new ht
      exact ⟨ht.phase.1, fun o ho => (ht.phase.2.1 o ho).1⟩
    · rintro m t e old log os new - ⟨hp, hcredit⟩ hok ht
      obtain ⟨hp', hsil, -⟩ := hp.next hok ht
      refine ⟨hp', fun o ho => ?_⟩
      rcases List.mem_append.1 ho with ho | ho
      · exact hcredit o ho
      · exact Obs.credit_of_silent (hsil o ho)

/-! ## Which requests are charged -/

/-- The arrival of the request decides whether an attempt is made. -/
def ArrivedAs (P : Setup) (id : ℕ) (attempted : Prop) (log : List (ℕ × Obs)) (e : ℕ × Obs) : Prop :=
  ∀ req, e.2 = .arrived id req → (attempted ↔ Streams P log e.1 req)

theorem Trans.arrivedAs {P : Setup} {log os : List (ℕ × Obs)} {t id : ℕ} {e : Event} {new : Task}
    (ht : Trans P (P.initial.health.run (healthHistory log)) t id e none os new) :
    AtEach (fun os₁ => ArrivedAs P id (attemptsOf os ≠ []) (log ++ os₁)) os := by
  have key : ∀ req rest, (∀ o ∈ rest, ∀ r, o.2 ≠ .arrived id r) →
      (attemptsOf ((t, .arrived id req) :: rest) ≠ [] ↔ Streams P log t req) →
      AtEach (fun os₁ => ArrivedAs P id (attemptsOf ((t, .arrived id req) :: rest) ≠ [])
        (log ++ os₁)) ((t, .arrived id req) :: rest) := by
    intro req rest hrest hiff
    refine atEach_cons.2 ⟨?_, fun os₁ o os₂ hos r hr => absurd hr (hrest o (by simp [hos]) r)⟩
    rintro r ⟨⟩
    rwa [List.append_nil]
  cases ht with
  | answered ha hl =>
    rw [List.cons_append]
    refine key _ _ ?_ (iff_of_false ?_ fun hs => hs.1 ha)
    all_goals rcases hl with rfl | rfl <;> simp [attemptsOf]
  | noPermit _ hr | startRetry _ hr =>
    exact key _ _ (by simp) (iff_of_false (by simp [attemptsOf]) fun hs => by simp [hs.2.1] at hr)
  | noBackend henter _ hnone =>
    refine key _ _ (by simp [lookEntry]) (iff_of_false (by simp [attemptsOf, lookEntry]) ?_)
    rintro ⟨-, -, -, route, hroute, hne⟩
    rw [henter.route, Option.some.injEq] at hroute
    exact hne (hroute ▸ hnone)
  | noPermitChosen _ _ hpre _ | startPrebuffer _ _ hpre _ =>
    exact key _ _ (by simp [lookEntry]) (iff_of_false (by simp [attemptsOf, lookEntry])
      fun hs => by simp [hs.2.2.1] at hpre)
  | startStream henter hr hpre hb =>
    refine key _ _ (by simp [lookEntry]) (iff_of_true (by simp [attemptsOf, lookEntry]) ?_)
    exact ⟨henter.passed, hr, hpre, _, henter.route, List.ne_nil_of_mem hb⟩

/-- In every run with a faulty client, the request attempts a backend iff it is streamed. -/
theorem attempted_iff_streams {P : Setup} {s : Sys} {id : ℕ}
    (h : Runs (step P) (fun s e => clientFault id (s.tasks.get? id) e.2) P.initial s) :
    AtEach (ArrivedAs P id (attemptsOf (entriesOf id s.log) ≠ [])) s.log := by
  refine Runs.invariant₂ (I := fun s : Sys =>
      AtEach (ArrivedAs P id (attemptsOf (entriesOf id s.log) ≠ [])) s.log)
    (J := fun s => Replays P s ∧
      Story P id (clientFault id · ·) (s.tasks.get? id) (entriesOf id s.log))
    h atEach_nil (fun s hs => ⟨Setup.Reachable.replays (hs.mono fun _ _ _ => trivial),
      story_of_runs id _ hs fun _ _ hg => hg⟩) fun s e s' hJ hI hg hs => ?_
  obtain ⟨hr, hstory⟩ := hJ
  obtain ⟨-, ⟨c, hc⟩ | ⟨id', os, new, hk⟩⟩ := step_cases hs
  · rw [hc.log, atEach_append, entriesOf_append]
    exact ⟨by simpa [entriesOf, Obs.id?] using hI, by simp [ArrivedAs]⟩
  · rw [hk.log, atEach_append, entriesOf_append]
    by_cases hid : id = id'
    · subst hid
      rw [entriesOf_own hk.trans.own]
      have htr := hk.trans
      rw [hr.health] at htr
      generalize hold : s.tasks.get? id = old at hstory htr
      cases old with
      | none =>
        have hnil := hstory.eq_nil
        rw [hnil, List.nil_append]
        refine ⟨fun log₁ o log₂ hlog req ho => ?_, htr.arrivedAs⟩
        have hmem : o ∈ entriesOf id s.log :=
          mem_entriesOf (by simp [hlog]) (by simp [ho, Obs.id?])
        simp [hnil] at hmem
      | some old =>
        have hsil := (hstory.phase.1.next (hold ▸ hg) htr).2.1
        have hnone : attemptsOf os = [] := attemptsOf_silent hsil
        rw [attemptsOf_append, hnone, List.append_nil]
        refine ⟨hI, fun os₁ o os₂ hos req ho => ?_⟩
        have := hsil o (by simp [hos])
        simp [ho, Obs.silent] at this
    · rw [entriesOf_other hk.trans.own hid, List.append_nil]
      refine ⟨hI, fun os₁ o os₂ hos req ho => ?_⟩
      have := hk.trans.own o (by simp [hos])
      simp only [ho, Obs.id?, Option.some.injEq] at this
      exact absurd this hid

/-- A failure of a backend is recorded on account of the request. -/
def Charged (id : ℕ) (log : List (ℕ × Obs)) : Prop :=
  ∃ e ∈ log, ∃ b, e.2 = .health (.request id) (.recordFailure b)

instance (id : ℕ) (log : List (ℕ × Obs)) : Decidable (∃ o ∈ entriesOf id log, o.2.charge) :=
  inferInstanceAs (Decidable (∃ o ∈ _, _))

theorem charged_iff {id : ℕ} {log : List (ℕ × Obs)} :
    Charged id log ↔ ∃ o ∈ entriesOf id log, o.2.charge := by
  constructor
  · rintro ⟨e, he, b, hb⟩
    exact ⟨e, mem_entriesOf he (by simp [hb, Obs.id?]), by simp [hb, Obs.charge]⟩
  · rintro ⟨⟨t, o⟩, ho, hc⟩
    obtain ⟨hmem, hid⟩ := List.mem_filter.1 ho
    cases o with
    | health src c =>
      cases c with
      | recordFailure b =>
        cases src with
        | request id' =>
          obtain rfl : id' = id := by simpa [Obs.id?] using hid
          exact ⟨_, hmem, b, rfl⟩
        | check => simp [Obs.id?] at hid
      | _ => simp [Obs.charge] at hc
    | _ => simp [Obs.charge] at hc

/-- Under a faulty client, a failure is recorded iff the await of `forward` has resolved. -/
theorem charge_iff_resolved {P : Setup} {id : ℕ} {es : List (ℕ × Event)} {s : Sys}
    (h : exec (guarded (step P) fun s e => clientFault id (s.tasks.get? id) e.2) P.initial es =
      some s) :
    (∃ o ∈ entriesOf id s.log, o.2.charge) ↔ ∃ e ∈ es, ∃ r, e.2 = .resolved id r := by
  induction es using List.reverseRecOn generalizing s with
  | nil =>
    obtain rfl : P.initial = s := by simpa [exec] using h
    simp [Setup.initial, entriesOf]
  | append_singleton es e ih =>
    rw [exec_concat] at h
    obtain ⟨s₁, h₁, hs⟩ := Option.bind_eq_some_iff.1 h
    unfold guarded at hs
    split_ifs at hs with hg
    have hlast : (∃ e' ∈ es ++ [e], ∃ r, e'.2 = .resolved id r) ↔
        (∃ o ∈ entriesOf id s₁.log, o.2.charge) ∨ ∃ r, e.2 = .resolved id r := by
      rw [ih h₁]
      simp only [List.mem_append, List.mem_singleton, or_and_right, exists_or, exists_eq_left]
    rw [hlast]
    obtain ⟨-, ⟨c, hc⟩ | ⟨id', os, new, hk⟩⟩ := step_cases hs
    · obtain ⟨b, status, he, -⟩ := hc.event
      rw [hc.log, entriesOf_append]
      simp [he, entriesOf, Obs.id?]
    · rw [hk.log, entriesOf_append]
      by_cases hid : id = id'
      · subst hid
        have hstory := story_of_runs id (clientFault id · ·) (Runs.of_exec .refl h₁).of_guarded
          fun _ _ hg => hg
        have htr := hk.trans
        rw [entriesOf_own htr.own]
        generalize hold : s₁.tasks.get? id = old at hstory htr
        cases old with
        | none =>
          rw [hstory.eq_nil, List.nil_append]
          obtain ⟨-, hos, hne⟩ := htr.phase
          refine iff_of_false ?_ (by simp [hne])
          rintro ⟨o, ho, hch⟩
          simp [(hos o ho).2] at hch
        | some old => exact (hstory.phase.1.next (hold ▸ hg) htr).2.2
      · rw [entriesOf_other hk.trans.own hid, List.append_nil]
        have hother : ∀ r, e.2 ≠ .resolved id r :=
          fun r hr => hid (hk.trans.turn_id (by simp [hr, isTurn])).symm
        simp [hother]

/-- Without a look that finds a window over, and without a failure recorded on its account, the
    request affects no backend. -/
theorem unaffected_of_exec {P : Setup} {id : ℕ} {s : Sys}
    (h : Runs (step P) (fun s e => clientFault id (s.tasks.get? id) e.2) P.initial s)
    (hover : AtEach (fun log e => ∀ req, e.2 = .arrived id req → ¬ FindsOver P log e.1 req) s.log)
    (hcharge : ∀ o ∈ entriesOf id s.log, o.2.charge = false) : Unaffected P id s := by
  revert hover hcharge
  refine Runs.invariant₂ (I := fun s : Sys =>
      AtEach (fun log e => ∀ req, e.2 = .arrived id req → ¬ FindsOver P log e.1 req) s.log →
      (∀ o ∈ entriesOf id s.log, o.2.charge = false) → Unaffected P id s)
    (J := fun s => Replays P s ∧
      Story P id (clientFault id · ·) (s.tasks.get? id) (entriesOf id s.log))
    h (fun _ _ b => rfl) (fun s hs => ⟨Setup.Reachable.replays (hs.mono fun _ _ _ => trivial),
      story_of_runs id _ hs fun _ _ hg => hg⟩) fun s e s' hJ hI hg hs hover hcharge => ?_
  obtain ⟨hr, hstory⟩ := hJ
  obtain ⟨-, ⟨c, hc⟩ | ⟨id', os, new, hk⟩⟩ := step_cases hs
  · rw [hc.log, entriesOf_append] at hcharge
    rw [hc.log, atEach_append] at hover
    have hbefore := hI hover.1 fun o ho => hcharge o (List.mem_append_left _ ho)
    exact hbefore.others hr (by simp [Obs.id?]) hc.log hc.health
  · rw [hk.log, entriesOf_append] at hcharge
    rw [hk.log, atEach_append] at hover
    have hbefore := hI hover.1 fun o ho => hcharge o (List.mem_append_left _ ho)
    by_cases hid : id = id'
    · subst hid
      have htr := hk.trans
      have hown := htr.own
      rw [entriesOf_own hown] at hcharge
      refine hbefore.own hown hk.log ?_
      rw [hk.health]
      generalize hold : s.tasks.get? id = old at hstory htr
      cases old with
      | none =>
        -- the request arrives
        obtain ⟨req, rest, rfl, hevent⟩ : ∃ req rest, os = (e.1, .arrived id req) :: rest ∧
            e.2 = .arrive id req := by
          cases he : e.2 <;> rw [he] at htr <;> cases htr <;> exact ⟨_, _, rfl, rfl⟩
        rw [hevent] at htr
        refine htr.unchanged_iff.2 ?_
        have hfresh := (atEach_cons.1 hover.2).1 req rfl
        rwa [FindsOver, List.append_nil, ← hr.health] at hfresh
      | some old =>
        have hsil := (hstory.phase.1.next (hold ▸ hg) htr).2.1
        have hnil := healthHistory_silent hsil fun o ho => hcharge o (List.mem_append_right _ ho)
        intro b
        rw [hnil]
        rfl
    · exact hbefore.others hr (fun o ho => by
        rw [hk.trans.own o ho]
        simpa using Ne.symm hid) hk.log hk.health

/-- **Client faults.**  In every run in which the client of a request never completes its body and
    the upstream is not at fault, no success is recorded on account of the request.  No failure is
    either, and in no state of the run is a backend affected by the request, iff it was not streamed
    or the await of its attempt never resolves, and it is not the first to look at a backend whose
    window is over. -/
theorem not_charged_iff {P : Setup} {es : List (ℕ × Event)} {s : Sys} {id : ℕ}
    (h : exec (guarded (step P) fun s e => clientFault id (s.tasks.get? id) e.2) P.initial es =
      some s)
    {log₁ log₂ : List (ℕ × Obs)} {t₀ : ℕ} {req : Request}
    (hlog : s.log = log₁ ++ (t₀, .arrived id req) :: log₂) :
    (¬ Charged id s.log ∧ (∀ s₁, Visits (step P) P.initial es s₁ → Unaffected P id s₁) ↔
      (¬ Streams P log₁ t₀ req ∨ ∀ e ∈ es, ∀ r, e.2 ≠ .resolved id r) ∧
        ¬ FindsOver P log₁ t₀ req) ∧
      ∀ e ∈ s.log, ∀ b, e.2 ≠ .health (.request id) (.recordSuccess b) := by
  have hrun := (Runs.of_exec .refl h).of_guarded
  have hexec := exec_of_guarded h
  obtain ⟨hphase, hcredit⟩ := (story_of_runs id (clientFault id · ·) hrun fun _ _ hg => hg).phase
  have hiff := attempted_iff_streams hrun log₁ _ log₂ hlog req rfl
  generalize s.tasks.get? id = old at hphase
  have hcharged : ¬ Charged id s.log ↔
      ¬ Streams P log₁ t₀ req ∨ ∀ e ∈ es, ∀ r, e.2 ≠ .resolved id r := by
    rw [charged_iff]
    constructor
    · intro hnone
      right
      intro e he r hr
      exact hnone ((charge_iff_resolved h).2 ⟨e, he, r, hr⟩)
    · rintro (hns | hne) hch
      · -- without an attempt there is no failure
        have ha : attemptsOf (entriesOf id s.log) = [] := not_not.1 fun ha => hns (hiff.1 ha)
        obtain ⟨o, ho, hch⟩ := hch
        cases hphase with
        | waiting _ _ hc => simp [hc o ho] at hch
        | uploading _ ha' _ => exact ha' ha
        | charged _ ha' _ => exact ha' ha
      · obtain ⟨e, he, r, hr⟩ := (charge_iff_resolved h).1 hch
        exact hne e he r hr
  refine ⟨⟨fun ⟨hno, hsame⟩ => ⟨hcharged.1 hno, ?_⟩, fun ⟨hfree, hover⟩ => ⟨hcharged.2 hfree, ?_⟩⟩,
    fun e he b heq => ?_⟩
  · -- in the state after the arrival
    obtain ⟨es₁, es₂, s₁, s₂, os, new, rfl, hes₁, rfl, hs, hlog₂, hhealth, htr⟩ :=
      arrivesIn_of_exec hexec log₁ log₂ t₀ id req hlog
    have hreach := P.reachable_of_exec hes₁
    have hvisit : ∀ s', exec (step P) P.initial (es₁ ++ [(t₀, .arrive id req)]) = some s' →
        Visits (step P) P.initial (es₁ ++ (t₀, .arrive id req) :: es₂) s' := fun s' hs' =>
      ⟨_, es₂, by simp, hs'⟩
    have hbefore := hsame s₁ ⟨es₁, _, rfl, hes₁⟩
    have hafter := hsame s₂ (hvisit s₂ (by rw [exec_concat, hes₁]; exact hs))
    rw [FindsOver, ← hreach.replays.health, ← htr.unchanged_iff]
    intro b
    rw [← hhealth, hafter b, hlog₂, without_append, without_own htr.own, List.append_nil,
      ← hbefore b]
  · rintro s₁ ⟨es₁, es₂, rfl, hes₁⟩
    rw [exec_append] at h
    obtain ⟨s₁', hg₁, hg₂⟩ := Option.bind_eq_some_iff.1 h
    obtain rfl : s₁' = s₁ := Option.some.inj ((exec_of_guarded hg₁).symm.trans hes₁)
    obtain ⟨os, hos⟩ := log_grows (Runs.of_exec .refl (exec_of_guarded hg₂))
    refine unaffected_of_exec (Runs.of_exec .refl hg₁).of_guarded ?_ fun o ho => ?_
    · intro l o l' hl req' hreq
      obtain ⟨u, o⟩ := o
      obtain rfl : o = .arrived id req' := hreq
      have hlog' : s.log = l ++ (u, .arrived id req') :: (l' ++ os) := by rw [hos, hl]; simp
      obtain ⟨rfl, rfl, rfl⟩ := (P.reachable_of_exec hexec).arrival_unique hlog hlog'
      exact hover
    · by_contra hch
      refine hcharged.2 hfree (charged_iff.2 ⟨o, ?_, by simpa using hch⟩)
      rw [hos, entriesOf_append]
      exact List.mem_append_left _ ho
  · have := hcredit e (mem_entriesOf he (by simp [heq, Obs.id?]))
    simp [heq, Obs.credit] at this

/-- The request that arrives, with its number. -/
def Obs.arrival? : Obs → Option (ℕ × Request)
  | .arrived id request => some (id, request)
  | _ => none

theorem Obs.eq_of_arrival? {o : Obs} {id : ℕ} {request : Request}
    (h : o.arrival? = some (id, request)) : o = .arrived id request := by
  cases o <;> simp [Obs.arrival?] at h
  obtain ⟨rfl, rfl⟩ := h
  rfl

/-- The body of a `POST` stalls: the request is answered with 408, and no backend is affected. -/
theorem stalled_post_not_charged :
    let P := small ["http://127.0.0.1:3001"] 1 1 100
    let es := [(1, .arrive 1 (smallUpload .post 2)), (2, .body 1 (some (.data [1]))),
      (15000000002, .body 1 (some .idleElapsed))]
    ∃ s, exec (guarded (step P) fun s e => clientFault 1 (s.tasks.get? 1) e.2) P.initial es =
        some s ∧
      ¬ Charged 1 s.log ∧ ∀ s₁, Visits (step P) P.initial es s₁ → Unaffected P 1 s₁ := by
  intro P es
  obtain ⟨s, hs, hlog⟩ := exists_of_exec_any
    (guarded (step P) fun s e => clientFault 1 (s.tasks.get? 1) e.2) P.initial es
    (fun s => s.log.head?.bind (·.2.arrival?) = some (1, smallUpload .post 2)) (by decide +kernel)
  refine ⟨s, hs, ?_⟩
  obtain ⟨⟨t₀, o⟩, ho, harrival⟩ := Option.bind_eq_some_iff.1 (of_decide_eq_true hlog)
  obtain ⟨log₂, hlog⟩ := List.head?_eq_some_iff.1 ho
  obtain rfl : o = .arrived 1 (smallUpload .post 2) := Obs.eq_of_arrival? harrival
  have hlog : s.log = [] ++ (t₀, .arrived 1 (smallUpload .post 2)) :: log₂ := hlog
  refine (not_charged_iff hs hlog).1.2 ⟨Or.inl ?_, not_findsOver_nil⟩
  rintro ⟨-, -, hpre, -⟩
  simp [shouldPrebufferRequest, smallUpload, smallRequest] at hpre

/-- The body of a `GET` breaks off while it is streamed: the request to the backend fails with it,
    and the backend is charged and ejected. -/
theorem broken_get_charged :
    let P := small ["http://127.0.0.1:3001"] 1 1 100
    ∃ s, exec (guarded (step P) fun s e => clientFault 1 (s.tasks.get? 1) e.2) P.initial
        [(1, .arrive 1 (smallUpload .get 5)), (2, .body 1 (some (.data [1]))),
        (3, .body 1 (some (.readError "connection reset"))),
        (4, .resolved 1 (.failed ⟨false, false, false, "request body failed"⟩))] = some s ∧
      Runs (step P) (fun s e => clientFault 1 (s.tasks.get? 1) e.2) P.initial s ∧
      Charged 1 s.log ∧ ¬ Unaffected P 1 s := by
  intro P
  obtain ⟨s, hs, hp⟩ := exists_of_exec_any
    (guarded (step P) fun s e => clientFault 1 (s.tasks.get? 1) e.2) P.initial
    [(1, .arrive 1 (smallUpload .get 5)), (2, .body 1 (some (.data [1]))),
      (3, .body 1 (some (.readError "connection reset"))),
      (4, .resolved 1 (.failed ⟨false, false, false, "request body failed"⟩))]
    (fun s => (∃ o ∈ entriesOf 1 s.log, o.2.charge) ∧
      s.health.backendHealth.get? "http://127.0.0.1:3001" ≠
        (P.initial.health.run (healthHistory (without 1 s.log))).backendHealth.get?
          "http://127.0.0.1:3001") (by decide +kernel)
  obtain ⟨hc, hne⟩ := of_decide_eq_true hp
  exact ⟨s, hs, (Runs.of_exec .refl hs).of_guarded, charged_iff.2 hc, fun h => hne (h _)⟩

-- A `POST` whose body stalls is the first to look at a backend whose window is over.
example :
    let P := small ["http://127.0.0.1:3001"] 1 1 100
    (exec (guarded (step P) fun s e => clientFault 1 (s.tasks.get? 1) e.2) P.initial
      [(1, .checked "http://127.0.0.1:3001" 500), (60000000000, .arrive 1 (smallUpload .post 2)),
        (75000000000, .body 1 (some .idleElapsed))]).any fun s =>
      s.health.backendHealth.get? "http://127.0.0.1:3001" = some ⟨false, 0, 0, none, true⟩ ∧
        (P.initial.health.run (healthHistory (without 1 s.log))).backendHealth.get?
          "http://127.0.0.1:3001" = some ⟨false, 0, 0, some 30000000001, false⟩ := by
  decide +kernel

end FerrumProxy
