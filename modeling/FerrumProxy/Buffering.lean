/-
  Buffered request bodies and the permits of `buffer_semaphore`.

  The semaphore bounds the requests that are reading their body: free permits and
  reading requests add up to `max_buffered_bodies` (`Reachable.permits`).  The
  permit goes back when the body is complete, while the body stays in memory for
  the attempts.  So the bodies in memory stay within the cap exactly as long as a
  first chunk is only ever read when there are fewer such bodies than permits
  that are free or held by requests that have not received anything.
-/
import FerrumProxy.Transitions

namespace FerrumProxy

open Lib Sys

namespace Task

/-- In `buffer_request_body`, with a permit. -/
def reads : Task → Bool
  | buffering _ _ _ => true
  | _ => false

/-- In `buffer_request_body`, before the first chunk. -/
def awaits : Task → Bool
  | buffering _ _ buffered => buffered.isEmpty
  | _ => false

/-- A buffered body is kept for the attempts, without a permit. -/
def keeps : Task → Bool
  | forwarding _ _ (.retry _ _ body) => !body.isEmpty
  | forwarding _ _ (.prebuffer body) => !body.isEmpty
  | sleeping _ _ _ body _ => !body.isEmpty
  | _ => false

/-- A partly or fully buffered body is in memory. -/
def holdsBody : Task → Bool
  | buffering _ _ buffered => !buffered.isEmpty
  | task => task.keeps

end Task

/-- Bodies in memory and requests before their first chunk are the requests that read and the bodies
    that are kept. -/
theorem holdsBody_add_awaits (T : Table ℕ Task) :
    T.count Task.holdsBody + T.count Task.awaits = T.count Task.reads + T.count Task.keeps := by
  refine T.count_add_count fun task => ?_
  cases task with
  | buffering job chosen buffered => cases buffered <;> rfl
  | _ => exact (Nat.zero_add _).symm

/-! ## The semaphore -/

theorem permitsOf_eq (old : Option Task) : permitsOf old = Table.ind Task.reads old := by
  rcases old with _ | (_ | _ | _ | _ | _) <;> rfl

/-- **The semaphore.** Free permits and reading requests add up to the configured number. -/
theorem Setup.Reachable.permits {P : Setup} {s : Sys} (h : P.Reachable s) :
    s.permits + s.tasks.count Task.reads = P.config.upstream.maxBufferedBodies := by
  refine Runs.invariant (I := fun s : Sys => s.permits + s.tasks.count Task.reads =
    P.config.upstream.maxBufferedBodies) h rfl fun s e s' hI _ hs => ?_
  obtain ⟨-, ⟨c, hc⟩ | ⟨id, os, new, hk⟩⟩ := step_cases hs
  · rw [hc.permits, hc.tasks, hI]
  · have hp := hk.permits
    have hcount := s.tasks.count_insert id new Task.reads
    rw [permitsOf_eq, permitsOf_eq] at hp
    rw [hk.tasks]
    omega

/-! ## Bodies in memory -/

/-- The step reads the first bytes of a body, within the size limit. -/
def firstChunk (P : Setup) (s : Sys) : Event → Bool
  | .body id (some (.data chunk)) =>
    !chunk.isEmpty && chunk.length ≤ P.config.upstream.maxRequestBodyBytes &&
      (s.tasks.get? id).any Task.awaits
  | _ => false

theorem firstChunk_iff {P : Setup} {s : Sys} {e : Event} : firstChunk P s e ↔
    ∃ id job chosen chunk, e = .body id (some (.data chunk)) ∧ chunk ≠ [] ∧
      chunk.length ≤ P.config.upstream.maxRequestBodyBytes ∧
      s.tasks.get? id = some (.buffering job chosen []) := by
  constructor
  · intro h
    unfold firstChunk at h
    split at h
    · rename_i id chunk
      simp only [Bool.and_eq_true, Bool.not_eq_true', List.isEmpty_eq_false_iff,
        decide_eq_true_eq] at h
      obtain ⟨⟨hne, hl⟩, ha⟩ := h
      cases hold : s.tasks.get? id with
      | none => simp [hold] at ha
      | some task =>
        cases task with
        | buffering job chosen buffered =>
          obtain rfl : buffered = [] := by simpa [hold, Task.awaits] using ha
          exact ⟨id, job, chosen, chunk, rfl, hne, hl, hold⟩
        | _ => simp [hold, Task.awaits] at ha
    · simp at h
  · rintro ⟨id, job, chosen, chunk, rfl, hne, hl, hold⟩
    simp [firstChunk, hne, hl, hold, Task.awaits]

/-- A first chunk is read only when fewer bodies are kept without a permit than permits are free or
    held by requests that have not received anything. -/
def FirstChunkFits (P : Setup) (s : Sys) (e : ℕ × Event) : Prop :=
  firstChunk P s e.2 →
    s.tasks.count Task.keeps < s.permits + s.tasks.count Task.awaits

instance (P : Setup) (s : Sys) (e : ℕ × Event) : Decidable (FirstChunkFits P s e) :=
  inferInstanceAs (Decidable (_ → _))

theorem Head.holdsBody_le {P : Setup} {m : HealthManager} {t id : ℕ} {job : Job}
    {attempted : List String} {n : ℕ} {body : Bytes} {os : List (ℕ × Obs)} {new : Task}
    (h : Head P m t id job attempted n body os new) :
    Table.ind Task.holdsBody (some new) ≤ if !body.isEmpty then 1 else 0 := by
  cases h with
  | late _ => exact Nat.zero_le _
  | exhausted _ _ => exact Nat.zero_le _
  | attempt _ _ => exact le_rfl

/-- Only a first chunk adds a body. -/
theorem Trans.holdsBody_le {P : Setup} {m : HealthManager} {t id : ℕ} {e : Event}
    {old : Option Task} {os : List (ℕ × Obs)} {new : Task} (h : Trans P m t id e old os new) :
    Table.ind Task.holdsBody (some new) ≤ Table.ind Task.holdsBody old ∨
      ∃ job chosen chunk, e = .body id (some (.data chunk)) ∧ chunk ≠ [] ∧
        chunk.length ≤ P.config.upstream.maxRequestBodyBytes ∧
        old = some (.buffering job chosen []) ∧ new = .buffering job chosen chunk := by
  cases h with
  | @chunk job chosen buffered buffered' item hitem =>
    cases item with
    | data bytes =>
      simp only [bufferItem] at hitem
      split_ifs at hitem with hlimit
      obtain rfl := Except.ok.inj hitem
      cases buffered with
      | cons a buffered => exact Or.inl le_rfl
      | nil =>
        cases bytes with
        | nil => exact Or.inl le_rfl
        | cons a bytes =>
          exact Or.inr ⟨job, chosen, a :: bytes, rfl, by simp, by simpa using hlimit, rfl, rfl⟩
    | readError text => simp [bufferItem] at hitem
    | idleElapsed => simp [bufferItem] at hitem
  | bufferedRetry hh => exact Or.inl hh.holdsBody_le
  | bufferedPrebuffer => exact Or.inl le_rfl
  | backoff _ _ _ => exact Or.inl le_rfl
  | again _ _ _ _ hh => exact Or.inl hh.holdsBody_le
  | woken _ hh => exact Or.inl hh.holdsBody_le
  | returned hnew _ => rcases hnew with rfl | rfl <;> exact Or.inl (Nat.zero_le _)
  | _ => exact Or.inl (Nat.zero_le _)

/-- A first chunk within the limit is buffered. -/
theorem Trans.firstChunk {P : Setup} {m : HealthManager} {t id id' : ℕ} {job : Job}
    {chosen : Option String} {chunk : Bytes} {s : Sys} {os : List (ℕ × Obs)} {new : Task}
    (h : Trans P m t id (.body id' (some (.data chunk))) (s.tasks.get? id) os new)
    (hold : s.tasks.get? id' = some (.buffering job chosen []))
    (hl : chunk.length ≤ P.config.upstream.maxRequestBodyBytes) :
    id' = id ∧ new = .buffering job chosen chunk := by
  generalize hold' : s.tasks.get? id = old at h
  have hitem : ∀ timeout, bufferItem P.config.upstream.maxRequestBodyBytes timeout []
      (.data chunk) = .ok chunk := fun timeout => by simp [bufferItem, hl]
  cases h with
  | chunk hok =>
    obtain ⟨rfl, rfl, rfl⟩ : _ ∧ _ ∧ _ := by simpa using hold'.symm.trans hold
    rw [hitem] at hok
    exact ⟨rfl, by rw [Except.ok.inj hok]⟩
  | bufferFailed herr =>
    obtain ⟨rfl, rfl, rfl⟩ : _ ∧ _ ∧ _ := by simpa using hold'.symm.trans hold
    rw [hitem] at herr
    simp at herr
  | upload _ => simp [hold] at hold'
  | uploadFailed _ => simp [hold] at hold'

/-- What a step does to the number of bodies in memory. -/
theorem holdsBody_step {P : Setup} {s s' : Sys} {e : ℕ × Event} (h : step P s e = some s') :
    (firstChunk P s e.2 ∧ s'.tasks.count Task.holdsBody = s.tasks.count Task.holdsBody + 1) ∨
    (¬ firstChunk P s e.2 ∧ s'.tasks.count Task.holdsBody ≤ s.tasks.count Task.holdsBody) := by
  obtain ⟨-, ⟨c, hc⟩ | ⟨id, os, new, hk⟩⟩ := step_cases h
  · obtain ⟨b, status, he, -⟩ := hc.event
    refine Or.inr ⟨?_, by rw [hc.tasks]⟩
    simp [he, firstChunk]
  · have hcount := s.tasks.count_insert id new Task.holdsBody
    rw [← hk.tasks] at hcount
    by_cases hf : firstChunk P s e.2
    · obtain ⟨id', job, chosen, chunk, he, hne, hl, hold⟩ := firstChunk_iff.1 hf
      have htr := hk.trans
      rw [he] at htr
      obtain ⟨rfl, rfl⟩ := htr.firstChunk hold hl
      refine Or.inl ⟨hf, ?_⟩
      have hb : chunk.isEmpty = false := by simpa using hne
      rw [hold] at hcount
      simpa [Task.holdsBody, hb] using hcount
    · refine Or.inr ⟨hf, ?_⟩
      rcases hk.trans.holdsBody_le with hle | ⟨job, chosen, chunk, he, hne, hl, hold, -⟩
      · omega
      · exact absurd (firstChunk_iff.2 ⟨id, job, chosen, chunk, he, hne, hl, hold⟩) hf

/-- **The cap on buffered bodies.**  In every run in which a first chunk is only read when fewer
    bodies are kept without a permit than permits are free or held by requests without a body, at
    most `max_buffered_bodies` bodies are in memory at any time; and the first step that breaks
    this condition exceeds the cap. -/
theorem buffered_bodies_le {P : Setup} {s : Sys}
    (h : Runs (step P) (FirstChunkFits P) P.initial s) :
    s.tasks.count Task.holdsBody ≤ P.config.upstream.maxBufferedBodies ∧
    ∀ e s', step P s e = some s' →
      (s'.tasks.count Task.holdsBody ≤ P.config.upstream.maxBufferedBodies ↔
        FirstChunkFits P s e) := by
  -- by the accounting of the semaphore, the guard says that the cap is not yet reached
  have hfits : ∀ s, Runs (step P) (FirstChunkFits P) P.initial s → ∀ e, (FirstChunkFits P s e ↔
      (firstChunk P s e.2 →
        s.tasks.count Task.holdsBody < P.config.upstream.maxBufferedBodies)) := by
    intro s hs e
    have hr : P.Reachable s := hs.mono fun _ _ _ => trivial
    have hadd := holdsBody_add_awaits s.tasks
    have hper := hr.permits
    unfold FirstChunkFits
    refine imp_congr_right fun _ => ?_
    omega
  have hcap : s.tasks.count Task.holdsBody ≤ P.config.upstream.maxBufferedBodies := by
    induction h with
    | refl => exact Nat.zero_le _
    | tail hr ho he ih =>
      rcases holdsBody_step he with ⟨hf, hc⟩ | ⟨-, hc⟩
      · have := (hfits _ hr _).1 ho hf
        omega
      · omega
  refine ⟨hcap, fun e s' he => ?_⟩
  rw [hfits s h e]
  rcases holdsBody_step he with ⟨hf, hc⟩ | ⟨hf, hc⟩
  · rw [hc]
    exact ⟨fun hle _ => hle, fun hlt => hlt hf⟩
  · exact ⟨fun _ hf' => absurd hf' hf, fun _ => hc.trans hcap⟩

/-- With a cap of one: a second `POST` is read after the first has been answered. -/
theorem two_posts_in_turn :
    let P := small ["http://127.0.0.1:3001"] 1 1 1
    ∃ s, exec (guarded (step P) (FirstChunkFits P)) P.initial
        [(1, .arrive 1 (smallUpload .post 1)), (2, .body 1 (some (.data [1]))), (3, .body 1 none),
        (4, .resolved 1 (.response 200 [])), (5, .arrive 2 (smallUpload .post 1)),
        (6, .body 2 (some (.data [2])))] = some s ∧
      s.tasks.count Task.holdsBody ≤ P.config.upstream.maxBufferedBodies := by
  intro P
  obtain ⟨s, hs, -⟩ := exists_of_exec_any (guarded (step P) (FirstChunkFits P)) P.initial
    [(1, .arrive 1 (smallUpload .post 1)), (2, .body 1 (some (.data [1]))), (3, .body 1 none),
      (4, .resolved 1 (.response 200 [])), (5, .arrive 2 (smallUpload .post 1)),
      (6, .body 2 (some (.data [2])))] (fun _ => true) (by decide +kernel)
  exact ⟨s, hs, (buffered_bodies_le (Runs.of_exec .refl hs).of_guarded).1⟩

/-- With a cap of one: the body of the first `POST` is still kept for its attempt when the second
    one has been read. -/
theorem two_bodies_under_cap_one :
    let P := small ["http://127.0.0.1:3001"] 1 1 1
    ∃ s, exec (step P) P.initial [(1, .arrive 1 (smallUpload .post 1)),
        (2, .body 1 (some (.data [1]))), (3, .body 1 none), (4, .arrive 2 (smallUpload .post 1)),
        (5, .body 2 (some (.data [2])))] = some s ∧ P.Reachable s ∧
      ¬ s.tasks.count Task.holdsBody ≤ P.config.upstream.maxBufferedBodies := by
  intro P
  obtain ⟨s, hs, hc⟩ := exists_of_exec_any (step P) P.initial [(1, .arrive 1 (smallUpload .post 1)),
      (2, .body 1 (some (.data [1]))), (3, .body 1 none), (4, .arrive 2 (smallUpload .post 1)),
      (5, .body 2 (some (.data [2])))]
    (fun s => ¬ s.tasks.count Task.holdsBody ≤ P.config.upstream.maxBufferedBodies)
    (by decide +kernel)
  exact ⟨s, hs, P.reachable_of_exec hs, of_decide_eq_true hc⟩

end FerrumProxy
