/-
  Calls that overlap.

  When calls on one backend overlap, the windows are still exact, since they are read
  and written under the mutex (`Windows`).  No order of the accesses leaves a backend
  excluded for good: whatever takes away the last reason to keep it is followed by an
  access that gives a new one (`kept_or_owed`).  And no call waits for ever: the mutex is
  held by a query that can go on (`held`), and every access brings its call nearer to its
  end (`rank_action`).
-/
import FerrumProxy.Atomics

namespace FerrumProxy

open Lib

namespace Atomics

variable {S : Settings} {t : ℕ} {c c' : Cell} {p q : Point} {s : Pool Cell Point}

/-! ## Windows -/

/-- The answer of a look is whether a window is open. -/
def Told (D : ℕ) (log : List (ℕ × Entry)) (e : ℕ × Entry) : Prop :=
  ∀ a, e.2 = .looked a → (a = true ↔ Covered D (ejectionsOf log) e.1)

/-- `ejected_until` agrees with the ejections so far, and so did every look. -/
structure Windows (D : ℕ) (c : Cell) : Prop where
  past : ∀ e ∈ c.log, e.1 ≤ c.now
  pending : ∀ till, c.health.ejectedUntil = some till →
    ∀ t, Covered D (ejectionsOf c.log) t ↔ t < till
  closed : c.health.ejectedUntil = none → ¬ Covered D (ejectionsOf c.log) c.now
  looks : AtEach (Told D) c.log

namespace Windows

variable {D : ℕ}

theorem later (h : Windows D c) (ht : c.now ≤ t) : Windows D { c with now := t } where
  past e he := (h.past e he).trans ht
  pending := h.pending
  closed hn hc := h.closed hn (hc.anti ht)
  looks := h.looks

/-- Accesses to the other fields. -/
theorem same (h : Windows D c) (hn : c'.now = c.now) (hl : c'.log = c.log)
    (hu : c'.health.ejectedUntil = c.health.ejectedUntil) : Windows D c' where
  past := by
    rw [hl, hn]
    exact h.past
  pending till ht := by
    rw [hl]
    exact h.pending till (hu ▸ ht)
  closed ht := by
    rw [hl, hn]
    exact h.closed (hu ▸ ht)
  looks := by
    rw [hl]
    exact h.looks

theorem ejections_past (h : Windows D c) : ∀ s ∈ ejectionsOf c.log, s ≤ c.now := by
  intro s hs
  obtain ⟨e, he, hse⟩ := List.mem_filterMap.1 hs
  split_ifs at hse
  exact Option.some.inj hse ▸ h.past e he

theorem past_concat (h : Windows D c) (x : Entry) : ∀ e ∈ c.log ++ [(c.now, x)], e.1 ≤ c.now := by
  intro e he
  rcases List.mem_append.1 he with he | he
  · exact h.past e he
  · rw [List.mem_singleton.1 he]

theorem eject (h : Windows D c) :
    Windows D ((c.set (·.eject D c.now)).write .ejected) where
  past := h.past_concat _
  pending till hu t := by
    obtain rfl : c.now + D = till := Option.some.inj hu
    show Covered D (ejectionsOf (c.log ++ [(c.now, .ejected)])) t ↔ _
    rw [ejectionsOf_ejected]
    exact covered_concat_iff h.ejections_past
  closed hn := by cases hn
  looks := by
    refine atEach_append.2 ⟨h.looks, ?_⟩
    simp [Told]

/-- A look writes whether a window is open. -/
theorem look (h : Windows D c) {answer : Bool}
    (ha : answer = true ↔ Covered D (ejectionsOf c.log) c.now) :
    Windows D (c.write (.looked answer)) where
  past := h.past_concat _
  pending till hu t := by
    show Covered D (ejectionsOf (c.log ++ [(c.now, .looked answer)])) t ↔ _
    rw [ejectionsOf_looked]
    exact h.pending till hu t
  closed hn := by
    show ¬ Covered D (ejectionsOf (c.log ++ [(c.now, .looked answer)])) c.now
    rw [ejectionsOf_looked]
    exact h.closed hn
  looks := by
    refine atEach_append.2 ⟨h.looks, ?_⟩
    simpa [Told] using ha

/-- The window that is over is taken away. -/
theorem clear (h : Windows D c) {till : ℕ} (hu : c.health.ejectedUntil = some till)
    (hle : till ≤ c.now) : Windows D (c.set ({ · with ejectedUntil := none })) where
  past := h.past
  pending till' hu' := by cases hu'
  closed _ := fun hc => absurd ((h.pending till hu c.now).1 hc) (not_lt.2 hle)
  looks := h.looks

end Windows

theorem windows_action (h : action S t c p = some (c', q)) (hw : Windows S.ejectionDuration c) :
    Windows S.ejectionDuration c' := by
  obtain ⟨hle, hcases⟩ := action_cases h
  have hw := hw.later hle
  rcases hcases with ⟨p₀, rfl, hs⟩ | ⟨p₀, rfl, hf⟩ | ⟨q₀, p₀, rfl, hq⟩
  · obtain ⟨rfl, -⟩ := Prod.mk.inj hs
    cases p₀ <;> exact hw.same rfl rfl rfl
  · cases p₀ with
    | ejectAgain | eject =>
      obtain ⟨-, rfl, -⟩ := eject_cases hf
      exact hw.eject
    | _ =>
      obtain ⟨rfl, -⟩ := Prod.mk.inj (Option.some.inj hf)
      exact hw.same rfl rfl rfl
  · cases p₀ with
    | look =>
      obtain ⟨-, ⟨till, hu, hlt, rfl, -⟩ | ⟨till, hu, hle, rfl, -⟩ | ⟨hu, rfl, -⟩⟩ := look_cases hq
      · exact hw.look (iff_of_true rfl ((hw.pending till hu t).2 hlt))
      · have hover : ¬ Covered S.ejectionDuration (ejectionsOf c.log) t := fun hc =>
          absurd ((hw.pending till hu t).1 hc) (not_lt.2 hle)
        exact ((hw.clear hu hle).look (iff_of_false (by simp) hover)).same rfl rfl rfl
      · exact hw.look (iff_of_false (by simp) (hw.closed hu))
    | _ =>
      obtain ⟨rfl, -⟩ := Prod.mk.inj (Option.some.inj hq)
      exact hw.same rfl rfl rfl

theorem Reachable.windows (h : Reachable S s) :
    Windows S.ejectionDuration s.shared :=
  Pool.shared_invariant h ⟨by simp [initial], by simp [initial, BackendHealth.initial],
    by simp [initial, ejectionsOf], by simp [initial]⟩ fun _ _ _ _ _ => windows_action

/-! ## Reasons to keep the backend -/

/-- There is a reason to keep the backend, now or later: it is healthy, its window is pending, or it
    is half-open. -/
def Kept (c : Cell) : Prop :=
  c.health.healthy ∨ c.health.ejectedUntil.isSome ∨ c.health.probing

/-- The call has taken a reason away and is about to give another one. -/
def Owes : Point → Bool
  | .success .restore | .failure .ejectAgain | .failure .failed | .failure .eject
  | .query _ (.reopen _) => true
  | _ => false

theorem recordSuccess_kept {p : SuccessPoint} (h : Kept c ∨ Owes (.success p)) :
    Kept (recordSuccess S c p).1 ∨ Owes (recordSuccess S c p).2 := by
  cases p with
  | closeProbe => exact Or.inr rfl
  | restore => exact Or.inl (Or.inl rfl)
  | recover => exact Or.inl (Or.inl rfl)
  | _ => exact Or.inl (h.resolve_right (by simp [Owes]))

theorem recordFailure_kept {p : FailurePoint} (h : recordFailure S c p = some (c', q))
    (hk : Kept c ∨ Owes (.failure p)) : Kept c' ∨ Owes q := by
  cases p with
  | closeProbe | fail | failed =>
    obtain ⟨rfl, rfl⟩ := Prod.mk.inj (Option.some.inj h)
    exact Or.inr rfl
  | ejectAgain | eject =>
    obtain ⟨-, rfl, -⟩ := eject_cases h
    exact Or.inl (Or.inr (Or.inl rfl))
  | _ =>
    obtain ⟨rfl, rfl⟩ := Prod.mk.inj (Option.some.inj h)
    exact Or.inl (hk.resolve_right (by simp [Owes]))

theorem query_kept {q₀ : Query} {p : QueryPoint} (h : query q₀ c p = some (c', q))
    (hk : Kept c ∨ Owes (.query q₀ p)) : Kept c' ∨ Owes q := by
  cases p with
  | look =>
    have hc : Kept c := hk.resolve_right (by simp [Owes])
    obtain ⟨-, ⟨till, -, -, rfl, -⟩ | ⟨till, -, -, -, rfl⟩ | ⟨-, rfl, -⟩⟩ := look_cases h
    · exact Or.inl hc
    · exact Or.inr rfl
    · exact Or.inl hc
  | reopen t =>
    obtain ⟨rfl, -⟩ := Prod.mk.inj (Option.some.inj h)
    exact Or.inl (Or.inr (Or.inr rfl))
  | _ =>
    obtain ⟨rfl, -⟩ := Prod.mk.inj (Option.some.inj h)
    exact Or.inl (hk.resolve_right (by simp [Owes]))

theorem kept_action (h : action S t c p = some (c', q)) (hk : Kept c ∨ Owes p) :
    Kept c' ∨ Owes q := by
  obtain ⟨-, ⟨p₀, rfl, hs⟩ | ⟨p₀, rfl, hf⟩ | ⟨q₀, p₀, rfl, hq⟩⟩ := action_cases h
  · have := recordSuccess_kept (S := S) (c := { c with now := t }) hk
    rwa [hs] at this
  · exact recordFailure_kept hf hk
  · exact query_kept hq hk

/-- **Kept or owed.** -/
theorem Reachable.kept_or_owed (h : Reachable S s) :
    Kept s.shared ∨ s.Some (Owes · = true) :=
  Pool.someone (G := (Kept ·.shared)) h (Or.inl (Or.inl rfl)) (fun _ _ => trivial)
    (fun _ _ _ _ _ hk => hk) fun _ _ _ _ _ _ _ _ hact hk => (kept_action hact hk).imp_right Or.inl

/-! ## The mutex -/

/-- The query holds the mutex. -/
def Holds : Point → Bool
  | .query _ (.reopen _) => true
  | _ => false

theorem lock_action (h : action S t c p = some (c', q)) (hk : c.locked = false ∨ Holds p) :
    c'.locked = false ∨ Holds q := by
  obtain ⟨-, ⟨p₀, rfl, hs⟩ | ⟨p₀, rfl, hf⟩ | ⟨q₀, p₀, rfl, hq⟩⟩ := action_cases h
  · have hl := hk.resolve_right (by simp [Holds])
    obtain ⟨rfl, -⟩ := Prod.mk.inj hs
    cases p₀ <;> exact Or.inl hl
  · have hl := hk.resolve_right (by simp [Holds])
    cases p₀ with
    | ejectAgain | eject =>
      obtain ⟨-, rfl, -⟩ := eject_cases hf
      exact Or.inl hl
    | _ =>
      obtain ⟨rfl, -⟩ := Prod.mk.inj (Option.some.inj hf)
      exact Or.inl hl
  · cases p₀ with
    | look =>
      have hl := hk.resolve_right (by simp [Holds])
      obtain ⟨-, ⟨till, -, -, rfl, -⟩ | ⟨till, -, -, -, rfl⟩ | ⟨-, rfl, -⟩⟩ := look_cases hq
      · exact Or.inl hl
      · exact Or.inr rfl
      · exact Or.inl hl
    | reopen t₀ =>
      obtain ⟨rfl, -⟩ := Prod.mk.inj (Option.some.inj hq)
      exact Or.inl rfl
    | _ =>
      have hl := hk.resolve_right (by simp [Holds])
      obtain ⟨rfl, -⟩ := Prod.mk.inj (Option.some.inj hq)
      exact Or.inl hl

/-- The mutex is held by a query that can go on. -/
theorem Reachable.held (h : Reachable S s) :
    s.shared.locked = false ∨ s.Some (Holds · = true) :=
  Pool.someone (G := fun s : Pool Cell Point => s.shared.locked = false) h (Or.inl rfl)
    (fun _ _ => trivial) (fun _ _ _ _ _ hl => hl)
    fun _ _ _ _ _ _ _ _ hact hk => (lock_action hact hk).imp_right Or.inl

theorem Quiet.not_some (h : Quiet s) {A : Point → Prop}
    (hA : ∀ answer, ¬ A (.returned answer)) : ¬ s.Some A := by
  rintro ⟨id, p, hp, ha⟩
  obtain ⟨answer, rfl⟩ := h id p hp
  exact hA answer ha

/-! ## Answers -/

/-- When no call is in progress, a query keeps the backend iff no window is open. -/
theorem eligible_iff {D : ℕ} (hw : Windows D c) (hk : Kept c) (ht : c.now ≤ t) :
    c.health.eligible t ↔ ¬ Covered D (ejectionsOf c.log) t := by
  have hw := hw.later ht
  rcases hu : c.health.ejectedUntil with _ | till
  · refine iff_of_true ?_ (hw.closed hu)
    rw [BackendHealth.eligible, BackendHealth.look_of_none hu]
    simpa [Kept, BackendHealth.ejected, hu] using hk
  · rw [show Covered D (ejectionsOf c.log) t ↔ t < till from hw.pending till hu t]
    by_cases hlt : t < till
    · simp [BackendHealth.eligible, BackendHealth.ejected, hu, hlt]
    · rw [BackendHealth.eligible, BackendHealth.look_of_over hu hlt]
      simp [BackendHealth.ejected, hu, hlt]

/-- What a query has found out at its look: a backend that it keeps was outside the windows. -/
def Vouched (log : List (ℕ × Entry)) : Point → Prop
  | .query _ (.reopen t) => (t, .looked false) ∈ log
  | .query q (.healthy t ejected) => (t, .looked ejected) ∈ log ∧ (q = .filter → ejected = false)
  | .query q (.probing t ejected healthy) =>
    (t, .looked ejected) ∈ log ∧ (healthy = true ∨ q = .filter → ejected = false)
  | .returned (some (t, true)) => (t, .looked false) ∈ log
  | _ => True

theorem Vouched.mono {log log' : List (ℕ × Entry)} (hsub : log ⊆ log') (h : Vouched log p) :
    Vouched log' p := by
  unfold Vouched at h ⊢
  split at h
  · exact hsub h
  · exact ⟨hsub h.1, h.2⟩
  · exact ⟨hsub h.1, h.2⟩
  · exact hsub h
  · trivial

theorem Vouched.looked {log : List (ℕ × Entry)} {ejected : Bool} (q : Query)
    (h : (t, .looked ejected) ∈ log) : Vouched log (q.looked t ejected) := by
  cases q with
  | filter => cases ejected <;> simp_all [Query.looked, Vouched]
  | status => simp_all [Query.looked, Vouched]

theorem vouched_query {q₀ : Query} {p₀ : QueryPoint} (h : query q₀ c p₀ = some (c', q))
    (hv : Vouched c.log (.query q₀ p₀)) : Vouched c'.log q := by
  cases p₀ with
  | look =>
    obtain ⟨-, ⟨till, -, -, rfl, rfl⟩ | ⟨till, -, -, rfl, rfl⟩ | ⟨-, rfl, rfl⟩⟩ := look_cases h
    · exact Vouched.looked q₀ (by simp [Cell.write])
    · simp [Vouched, Cell.write, Cell.set]
    · exact Vouched.looked q₀ (by simp [Cell.write])
  | reopen t₀ =>
    obtain ⟨rfl, rfl⟩ := Prod.mk.inj (Option.some.inj h)
    exact Vouched.looked q₀ hv
  | healthy t₀ ejected =>
    obtain ⟨rfl, rfl⟩ := Prod.mk.inj (Option.some.inj h)
    obtain ⟨hmem, hfilter⟩ := hv
    cases q₀ with
    | filter =>
      obtain rfl := hfilter rfl
      show Vouched c.log (if c.health.healthy then _ else _)
      split_ifs
      · exact hmem
      · exact ⟨hmem, fun _ => rfl⟩
    | status => exact ⟨hmem, by simp⟩
  | probing t₀ ejected healthy =>
    obtain ⟨rfl, rfl⟩ := Prod.mk.inj (Option.some.inj h)
    obtain ⟨hmem, hkeep⟩ := hv
    cases ejected <;> cases healthy <;> cases hp : c.health.probing <;> simp_all [Vouched]

theorem Reachable.vouched (h : Reachable S s) :
    ∀ id p, s.points.get? id = some p → Vouched s.shared.log p := by
  refine Pool.each (A := fun _ p c => Vouched c.log p) h (by simp [initial, Table.empty])
    (fun s id call _ => by cases call <;> trivial) ?_ ?_
  · intro id t c p c' q hact hv
    obtain ⟨-, ⟨p₀, rfl, hs⟩ | ⟨p₀, rfl, hf⟩ | ⟨q₀, p₀, rfl, hq⟩⟩ := action_cases hact
    · rcases recordSuccess_point hs with ⟨p', rfl⟩ | rfl <;> trivial
    · rcases recordFailure_point hf with ⟨p', rfl⟩ | rfl <;> trivial
    · exact vouched_query hq hv
  · intro id p t c p' c' q hact hv
    exact hv.mono (log_action hact)

/-- **Overlapping calls.** However the accesses of the calls on a backend interleave, every look
    at `ejected_until` answers whether a window is open at that instant, and a query that has kept
    the backend looked at it outside every window that had been opened.  Once no call is in progress
    nothing is left behind: the mutex is free, and a query at any later instant keeps the backend
    iff no window is open then. -/
theorem overlapping_calls_exact (S : Settings) (h : Reachable S s) :
    AtEach (fun log e => ∀ answer, e.2 = .looked answer →
      (answer = true ↔ Covered S.ejectionDuration (ejectionsOf log) e.1)) s.shared.log ∧
    (∀ id t, s.points.get? id = some (.returned (some (t, true))) →
      (t, .looked false) ∈ s.shared.log) ∧
    (Quiet s → ∀ q id t, s.points.get? id = none → s.shared.now ≤ t → ∃ n s' answer,
      exec (step S) s (.start id (.query q) :: List.replicate n (.act id t)) = some s' ∧
      s'.points.get? id = some (.returned (some (t, answer))) ∧
      (answer = true ↔ ¬ Covered S.ejectionDuration (ejectionsOf s.shared.log) t)) := by
  refine ⟨h.windows.looks, fun id t hp => h.vouched id _ hp, fun hquiet q id t hnone ht => ?_⟩
  have hkept : Kept s.shared := h.kept_or_owed.resolve_right (hquiet.not_some (by simp [Owes]))
  have hfree : s.shared.locked = false := h.held.resolve_right (hquiet.not_some (by simp [Holds]))
  obtain ⟨n, hn⟩ := query_alone (S := S) q ht hfree
  obtain ⟨s', hs', -, hp, -⟩ := Pool.exec_alone enter
    (s := { s with points := s.points.insert id (enter (.query q)) })
    (Table.get?_insert_self ..) hn
  refine ⟨n, s', _, ?_, hp, eligible_iff h.windows hkept ht⟩
  rw [exec, step, Pool.step, if_pos hnone]
  exact hs'

/-- A failure opens a window in the course of a success; a query after it keeps the backend. -/
theorem overlapping_calls_exact_race : ∃ s, Reachable ⟨1, 1, 30⟩ s ∧ Quiet s ∧
    ∃ n s', exec (step ⟨1, 1, 30⟩) s (.start 9 (.query .filter) :: List.replicate n (.act 9 40)) =
      some s' ∧ s'.points.get? 9 = some (.returned (some (40, true))) := by
  obtain ⟨s, hs, hp⟩ := exists_of_exec_any (step ⟨1, 1, 30⟩) initial
    [.start 0 .recordFailure, .start 1 .recordSuccess, .act 0 1, .act 0 1, .act 0 1, .act 1 2,
      .act 0 2, .act 0 2, .act 0 3, .act 0 4, .act 1 5, .act 1 6, .act 1 7, .act 1 7, .act 1 8]
    (fun s => decide (Quiet s ∧ s.points.get? 9 = none ∧ s.shared.now ≤ 40 ∧
      ejectionsOf s.shared.log = [4])) (by decide +kernel)
  obtain ⟨hquiet, hnone, hnow, hlog⟩ := of_decide_eq_true hp
  have hrun : Reachable ⟨1, 1, 30⟩ s := Runs.of_exec .refl hs
  obtain ⟨n, s', answer, hexec, hget, hanswer⟩ :=
    (overlapping_calls_exact ⟨1, 1, 30⟩ hrun).2.2 hquiet .filter 9 40 hnone hnow
  obtain rfl : answer = true := hanswer.2 (by simp [hlog, Covered])
  exact ⟨s, hrun, hquiet, n, s', hexec, hget⟩

/-! ## The end of the calls -/

/-- The accesses that a call has left at most. -/
def rank : Point → ℕ
  | .success .start => 6
  | .success .probing => 5
  | .success .closeProbe => 3
  | .success .restore => 2
  | .success .restored => 1
  | .success .count => 4
  | .success (.healthy _) => 3
  | .success .recover => 2
  | .success .recovered => 1
  | .failure .start => 7
  | .failure .probing => 6
  | .failure .closeProbe => 2
  | .failure .ejectAgain => 1
  | .failure .count => 5
  | .failure (.healthy _) => 4
  | .failure .fail => 3
  | .failure .failed => 2
  | .failure .eject => 1
  | .query _ .look => 4
  | .query _ (.reopen _) => 3
  | .query _ (.healthy _ _) => 2
  | .query _ (.probing _ _ _) => 1
  | .returned _ => 0

theorem rank_le (p : Point) : rank p ≤ 7 * if !p.isReturned then 1 else 0 := by
  unfold rank
  split <;> simp [Point.isReturned]

theorem rank_looked (q : Query) (t : ℕ) (ejected : Bool) : rank (q.looked t ejected) ≤ 2 := by
  cases q <;> cases ejected <;> simp [Query.looked, rank]

theorem rank_action (h : action S t c p = some (c', q)) : rank q < rank p := by
  obtain ⟨-, ⟨p₀, rfl, hs⟩ | ⟨p₀, rfl, hf⟩ | ⟨q₀, p₀, rfl, hq⟩⟩ := action_cases h
  · cases p₀ with
    | probing | healthy =>
      obtain ⟨-, rfl⟩ := Prod.mk.inj hs
      split_ifs <;> simp [rank]
    | _ =>
      obtain ⟨-, rfl⟩ := Prod.mk.inj hs
      simp [rank]
  · cases p₀ with
    | ejectAgain | eject =>
      obtain ⟨-, -, rfl⟩ := eject_cases hf
      simp [rank]
    | probing | healthy =>
      obtain ⟨-, rfl⟩ := Prod.mk.inj (Option.some.inj hf)
      split_ifs <;> simp [rank]
    | _ =>
      obtain ⟨-, rfl⟩ := Prod.mk.inj (Option.some.inj hf)
      simp [rank]
  · cases p₀ with
    | look =>
      obtain ⟨-, ⟨till, -, -, -, rfl⟩ | ⟨till, -, -, -, rfl⟩ | ⟨-, -, rfl⟩⟩ := look_cases hq
      · exact (rank_looked ..).trans_lt (by simp [rank])
      · simp [rank]
      · exact (rank_looked ..).trans_lt (by simp [rank])
    | reopen t₀ =>
      obtain ⟨-, rfl⟩ := Prod.mk.inj (Option.some.inj hq)
      exact (rank_looked ..).trans_lt (by simp [rank])
    | healthy t₀ ejected =>
      obtain ⟨-, rfl⟩ := Prod.mk.inj (Option.some.inj hq)
      cases q₀ with
      | filter =>
        show rank (if c.health.healthy then _ else _) < _
        split_ifs <;> simp [rank]
      | status => simp [rank]
    | probing t₀ ejected healthy =>
      obtain ⟨-, rfl⟩ := Prod.mk.inj (Option.some.inj hq)
      simp [rank]

/-- Only the mutex makes a call wait. -/
theorem action_isSome (hp : p.isReturned = false) (hl : c.locked = false ∨ Holds p) :
    (action S c.now c p).isSome := by
  simp only [action, le_refl, if_true]
  cases p with
  | success p₀ => rfl
  | failure p₀ =>
    have hfree := hl.resolve_right (by simp [Holds])
    cases p₀ <;> simp [recordFailure, Cell.eject, hfree]
  | query q₀ p₀ =>
    cases p₀ with
    | look =>
      have hl := hl.resolve_right (by simp [Holds])
      simp only [query, hl, Bool.false_eq_true, if_false]
      split
      · split_ifs <;> rfl
      · rfl
    | _ => rfl
  | returned answer => cases hp

theorem remaining_le (s : Pool Cell Point) :
    s.remaining rank ≤ 7 * s.points.count fun p => !p.isReturned := by
  unfold Pool.remaining Table.count
  induction s.points.keys with
  | nil => simp
  | cons id ids ih =>
    rw [List.map_cons, List.sum_cons, List.countP_cons]
    cases hp : s.points.get? id with
    | none => simpa using ih
    | some p =>
      have hrank := rank_le p
      rw [Option.elim_some, Option.any_some]
      omega

/-- **The calls come to an end.** In every state that overlapping calls can reach, some call can go
    on unless all have returned, and no order of the accesses is longer than seven for each call in
    progress. -/
theorem calls_complete (S : Settings) (h : Reachable S s) :
    (¬ Quiet s → ∃ id s', step S s (.act id s.shared.now) = some s') ∧
    ∀ es s', (∀ e ∈ es, ∃ id t, e = Pool.Event.act id t) → exec (step S) s es = some s' →
      es.length ≤ 7 * s.points.count fun p => !p.isReturned := by
  constructor
  · intro hnot
    have hgo : ∀ id p, s.points.get? id = some p → p.isReturned = false →
        s.shared.locked = false ∨ Holds p → ∃ id s', step S s (.act id s.shared.now) = some s' := by
      intro id p hp hret hl
      obtain ⟨r, hr⟩ := Option.isSome_iff_exists.1 (action_isSome (S := S) hret hl)
      exact ⟨id, ⟨r.1, s.points.insert id r.2⟩, by simp [step, Pool.step, hp, hr]⟩
    rcases h.held with hfree | ⟨id, p, hp, hholds⟩
    · obtain ⟨id, p, hp, hne⟩ : ∃ id p, s.points.get? id = some p ∧
          ∀ answer, p ≠ .returned answer := by
        simpa [Quiet] using hnot
      refine hgo id p hp ?_ (Or.inl hfree)
      cases p with
      | returned answer => exact absurd rfl (hne answer)
      | _ => rfl
    · refine hgo id p hp ?_ (Or.inr hholds)
      cases p with
      | returned answer => cases hholds
      | _ => rfl
  · intro es s' hacts hexec
    exact (Pool.exec_length_le (fun _ _ _ _ _ => rank_action) hacts hexec).trans (remaining_le s)

/-- A call holds the mutex while two others have yet to look or to count. -/
theorem calls_complete_mutex_held : ∃ s, Reachable ⟨1, 1, 1⟩ s ∧ s.shared.locked = true ∧
    ∃ id s', step ⟨1, 1, 1⟩ s (.act id s.shared.now) = some s' := by
  obtain ⟨s, hs, hp⟩ := exists_of_exec_any (step ⟨1, 1, 1⟩) initial
    ([.start 0 .recordFailure] ++ List.replicate 7 (.act 0 1) ++
      [.start 1 (.query .filter), .start 2 .recordFailure, .act 1 5])
    (fun s => decide (¬ Quiet s ∧ s.shared.locked = true)) (by decide +kernel)
  obtain ⟨hquiet, hlocked⟩ := of_decide_eq_true hp
  have hrun : Reachable ⟨1, 1, 1⟩ s := Runs.of_exec .refl hs
  exact ⟨s, hrun, hlocked, (calls_complete ⟨1, 1, 1⟩ hrun).1 hquiet⟩

end Atomics

end FerrumProxy
