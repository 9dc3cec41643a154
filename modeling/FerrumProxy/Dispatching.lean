/-
  Attempts and ejection windows.

  The retry loop and the streaming path call `forward` in the step that chose the
  backend; the pre-buffer path chooses first and then waits for the upload.  So a
  log shows each attempt in one of two ways (`Started`), and an attempt falls into
  a window exactly when its backend was ejected during the upload and that window
  is still open when the upload ends.
-/
import FerrumProxy.Replay

namespace FerrumProxy

open Lib Sys

/-! ## How attempts come about -/

/-- An attempt follows the choice of its backend at once, or it ends a pre-buffered upload. -/
def Started (log : List (ℕ × Obs)) (e : ℕ × Obs) : Prop :=
  ∀ id b d upstream elapsed, e.2 = .attempt id b d upstream elapsed →
    ∃ log₁ mid t₀, log = log₁ ++ (t₀, .selected id b) :: mid ∧
      (mid = [] ∨ ∃ body, d = .prebuffer body)

/-- What the log and the tasks of a state say about its attempts. -/
structure Attempts (s : Sys) : Prop where
  started : AtEach Started s.log
  /-- the backend of a pre-buffered upload has been chosen -/
  chosen : ∀ id job b buffered, s.tasks.get? id = some (.buffering job (some b) buffered) →
    ∃ log₁ mid t₀, s.log = log₁ ++ (t₀, .selected id b) :: mid

section
variable {P : Setup} {m : HealthManager} {log os : List (ℕ × Obs)} {t id : ℕ} {e : Event}
  {old : Option Task} {new : Task}

theorem Trans.started (h : Trans P m t id e old os new)
    (hold : ∀ job b buffered, old = some (.buffering job (some b) buffered) →
      ∃ log₁ mid t₀, log = log₁ ++ (t₀, .selected id b) :: mid) :
    AtEach (fun os₁ => Started (log ++ os₁)) os := by
  rintro os₁ o os₂ hos id' b d upstream elapsed hob
  obtain ⟨rfl, ⟨os₀, rfl⟩ | ⟨body, job, rfl, hbuf⟩⟩ :=
    h.attempts os₁ o os₂ hos id' b d upstream elapsed hob
  · exact ⟨log ++ os₀, [], t, by simp, Or.inl rfl⟩
  · obtain ⟨log₁, mid, t₀, rfl⟩ := hold job b body hbuf
    exact ⟨log₁, mid ++ os₁, t₀, by simp, Or.inr ⟨body, rfl⟩⟩

/-- A request in a pre-buffered upload has just chosen its backend, or was in the upload before. -/
theorem Trans.prebuffer_cases (h : Trans P m t id e old os new) {job : Job} {b : String}
    {buffered : Bytes} (hnew : new = .buffering job (some b) buffered) :
    (∃ os₁, os = os₁ ++ [(t, .selected id b)]) ∨
      ∃ buffered', old = some (.buffering job (some b) buffered') := by
  cases h with
  | startPrebuffer _ _ _ _ => cases hnew; exact Or.inl ⟨[_, _], rfl⟩
  | chunk _ => cases hnew; exact Or.inr ⟨_, rfl⟩
  | bufferedRetry hh => cases hh <;> cases hnew
  | again _ _ _ _ hh => cases hh <;> cases hnew
  | woken _ hh => cases hh <;> cases hnew
  | returned hr _ => rcases hr with rfl | rfl <;> cases hnew
  | _ => cases hnew

end

theorem Attempts.step {P : Setup} {s s' : Sys} {e : ℕ × Event} (h : Attempts s)
    (hs : Sys.step P s e = some s') : Attempts s' := by
  obtain ⟨-, ⟨c, hc⟩ | ⟨id, os, new, hk⟩⟩ := step_cases hs
  · refine ⟨?_, fun id job b buffered hb => ?_⟩
    · rw [hc.log, atEach_append]
      exact ⟨h.started, by simp [Started]⟩
    · rw [hc.tasks] at hb
      obtain ⟨log₁, mid, t₀, hlog⟩ := h.chosen id job b buffered hb
      exact ⟨log₁, mid ++ [(e.1, .health .check c)], t₀, by rw [hc.log, hlog]; simp⟩
  · refine ⟨?_, fun id' job b buffered hb => ?_⟩
    · rw [hk.log, atEach_append]
      exact ⟨h.started, hk.trans.started fun job b buffered => h.chosen id job b buffered⟩
    · rw [hk.log]
      -- an upload that goes on keeps its place in the log, a new one has just been chosen
      have hkeep : ∀ buffered', s.tasks.get? id' = some (.buffering job (some b) buffered') →
          ∃ log₁ mid t₀, s.log ++ os = log₁ ++ (t₀, .selected id' b) :: mid := by
        intro buffered' hb'
        obtain ⟨log₁, mid, t₀, hlog⟩ := h.chosen id' job b buffered' hb'
        exact ⟨log₁, mid ++ os, t₀, by rw [hlog]; simp⟩
      rw [hk.tasks] at hb
      by_cases hid : id' = id
      · subst hid
        rw [Table.get?_insert_self, Option.some.injEq] at hb
        rcases hk.trans.prebuffer_cases hb with ⟨os₁, hos⟩ | ⟨buffered', hb'⟩
        · exact ⟨s.log ++ os₁, [], e.1, by rw [hos]; simp⟩
        · exact hkeep buffered' hb'
      · rw [Table.get?_insert_ne _ _ hid] at hb
        exact hkeep buffered hb

theorem Setup.Reachable.attempts {P : Setup} {s : Sys} (h : P.Reachable s) : Attempts s :=
  Runs.invariant h ⟨by simp [Setup.initial], by simp [Setup.initial, Table.empty]⟩
    fun _ _ _ hI _ hs => hI.step hs

/-! ## Attempts into a window -/

/-- An attempt that is not inside an ejection window of its backend, by the log before it. -/
def OutsideWindow (P : Setup) (log : List (ℕ × Obs)) (e : ℕ × Obs) : Prop :=
  match e.2 with
  | .attempt _ b _ _ _ => ¬ InWindow P log b e.1
  | _ => True

/-- No attempt of the log starts inside an ejection window of its backend. -/
def AttemptsOutsideWindows (P : Setup) (log : List (ℕ × Obs)) : Prop :=
  AtEach (OutsideWindow P) log

instance (P : Setup) (log : List (ℕ × Obs)) : (e : ℕ × Obs) → Decidable (OutsideWindow P log e)
  | (t, .attempt _ b _ _ _) => inferInstanceAs (Decidable (¬ InWindow P log b t))
  | (_, .arrived _ _) | (_, .health _ _) | (_, .selected _ _) | (_, .pause _ _ _ _)
  | (_, .responded _ _) => isTrue trivial

instance (P : Setup) (log : List (ℕ × Obs)) : Decidable (AttemptsOutsideWindows P log) :=
  inferInstanceAs (Decidable (AtEach _ _))

/-- Of every pre-buffered upload of the log, from the choice of its backend to its end: whenever the
    backend was ejected meanwhile, that window is over at the end. -/
def UploadsUndisturbed (P : Setup) (log : List (ℕ × Obs)) : Prop :=
  ∀ log₁ mid log₂ t₀ t id b body upstream elapsed,
    log = log₁ ++ (t₀, .selected id b) :: mid ++
      (t, .attempt id b (.prebuffer body) upstream elapsed) :: log₂ →
    ∀ w ∈ (P.initial.health.run (healthHistory log₁)).ejections b (healthHistory mid),
      w + P.initial.health.ejectionDuration ≤ t

/-- **Attempts and windows.** In any interleaving, no attempt starts inside an ejection window of its
    backend, iff no backend chosen for a pre-buffered upload is ejected during the upload for
    longer than the upload lasts. -/
theorem attempts_outside_windows_iff {P : Setup} {s : Sys} (h : P.Reachable s) :
    AttemptsOutsideWindows P s.log ↔ UploadsUndisturbed P s.log := by
  constructor
  · intro ha log₁ mid log₂ t₀ t id b body upstream elapsed hlog w hw
    by_contra hlt
    refine ha _ _ log₂ hlog ?_
    rw [inWindow_append]
    right
    rw [healthHistory_plain rfl]
    exact ⟨w, hw, not_le.1 hlt⟩
  · rintro hu log₁ ⟨t, o⟩ log₂ hlog
    cases o with
    | attempt id b d upstream elapsed =>
      intro hw
      obtain ⟨log₀, mid, t₀, rfl, hmid⟩ := h.attempts.started log₁ _ log₂ hlog id b d upstream
        elapsed rfl
      obtain ⟨hout, -⟩ := h.chosen log₀ (t₀, .selected id b) (mid ++ _ :: log₂)
        (by rw [hlog, List.append_assoc]; rfl) id b rfl
      have ht : t₀ ≤ t := by
        have ho := h.replays.ordered
        rw [hlog] at ho
        exact (List.pairwise_append.1 ho).2.2 (t₀, .selected id b) (by simp) _
          (List.mem_cons_self ..)
      rw [inWindow_append, healthHistory_plain rfl] at hw
      rcases hw with hw | ⟨w, hw, hlt⟩
      · exact hout (hw.anti ht)
      · rcases hmid with rfl | ⟨body, rfl⟩
        · simp [HealthManager.ejections] at hw
        · exact absurd (hu log₀ mid log₂ t₀ t id b body upstream elapsed hlog w hw) (not_le.2 hlt)
    | _ => trivial

/-- A `POST` whose backend passes a check during the upload, while another backend is ejected. -/
theorem undisturbed_post :
    let P := small ["http://127.0.0.1:3001", "http://127.0.0.1:3002"] 1 1 100
    ∃ s, exec (step P) P.initial [(1, .arrive 1 (smallUpload .post 1)),
        (2, .checked "http://127.0.0.1:3002" 500), (3, .checked "http://127.0.0.1:3001" 200),
        (4, .body 1 (some (.data [1]))), (5, .body 1 none)] = some s ∧
      UploadsUndisturbed P s.log := by
  intro P
  obtain ⟨s, hs, hout⟩ := exists_of_exec_any (step P) P.initial
    [(1, .arrive 1 (smallUpload .post 1)),
      (2, .checked "http://127.0.0.1:3002" 500), (3, .checked "http://127.0.0.1:3001" 200),
      (4, .body 1 (some (.data [1]))), (5, .body 1 none)]
    (fun s => AttemptsOutsideWindows P s.log) (by decide +kernel)
  exact ⟨s, hs, (attempts_outside_windows_iff (P.reachable_of_exec hs)).1 (of_decide_eq_true hout)⟩

/-- A `POST` chooses the only backend, which then fails a check and is ejected at 3; the end of the
    upload at 4 starts the attempt all the same. -/
theorem post_to_ejected_backend :
    let P := small ["http://127.0.0.1:3001"] 1 1 100
    ∃ s, exec (step P) P.initial [(1, .arrive 1 (smallUpload .post 1)),
        (2, .body 1 (some (.data [1]))), (3, .checked "http://127.0.0.1:3001" 500),
        (4, .body 1 none)] = some s ∧ P.Reachable s ∧ ¬ AttemptsOutsideWindows P s.log := by
  intro P
  obtain ⟨s, hs, hin⟩ := exists_of_exec_any (step P) P.initial
    [(1, .arrive 1 (smallUpload .post 1)),
      (2, .body 1 (some (.data [1]))), (3, .checked "http://127.0.0.1:3001" 500),
      (4, .body 1 none)]
    (fun s => ¬ AttemptsOutsideWindows P s.log) (by decide +kernel)
  exact ⟨s, hs, P.reachable_of_exec hs, of_decide_eq_true hin⟩

end FerrumProxy
