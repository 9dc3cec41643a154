/-
  A counter of failures that a success resets.

  `hits k c cs` runs the counter from `c` over the outcomes `cs` (`true` is a
  failure) and tells whether it reaches `k`.  When the outcomes come in blocks in
  which only the first one can be a success, it does so iff some stretch of blocks
  without a success, from the start or from a block with one, has enough failures
  (`hits_flatten_iff`); in any case, iff so many failures come in a row (`hits_iff`).
-/
import Mathlib.Data.List.Basic

namespace Lib

/-- The counter, started at `c`, reaches `k`. -/
def hits (k : ℕ) : ℕ → List Bool → Bool
  | _, [] => false
  | c, true :: cs => k ≤ c + 1 || hits k (c + 1) cs
  | _, false :: cs => hits k 0 cs

/-- The block starts with a success. -/
def resets (x : List Bool) : Bool := x.head? == some false

/-- The counter after a block. -/
def counted (c : ℕ) (x : List Bool) : ℕ := (if resets x then 0 else c) + x.count true

/-- Some blocks without a success, from the start with a counter of `c` or after a block with a
    success, bring the counter to `k`. -/
def Streak (k c : ℕ) (xs : List (List Bool)) : Prop :=
  ∃ before mid after, xs = before ++ mid ++ after ∧ (∀ x ∈ mid, resets x = false) ∧
    (before = [] ∧ k ≤ c + mid.flatten.count true ∨
      ∃ before' x, before = before' ++ [x] ∧ resets x ∧
        k ≤ x.count true + mid.flatten.count true)

variable {k c : ℕ}

/-- Failures only add up. -/
theorem hits_failures (hc : c < k) {t : List Bool} (ht : ∀ v ∈ t, v = true) (cs : List Bool) :
    hits k c (t ++ cs) ↔ k ≤ c + t.count true ∨ hits k (c + t.count true) cs := by
  induction t generalizing c with
  | nil => simp [Nat.not_le.2 hc]
  | cons v t ih =>
    obtain ⟨rfl, ht'⟩ := List.forall_mem_cons.1 ht
    rw [List.cons_append, hits, List.count_cons_self, Bool.or_eq_true, decide_eq_true_iff,
      ← Nat.add_assoc, Nat.add_right_comm]
    by_cases hk : k ≤ c + 1
    · exact iff_of_true (Or.inl hk) (Or.inl (by omega))
    · rw [ih (Nat.not_le.1 hk) ht']
      exact or_iff_right hk

/-- One block. -/
theorem hits_block (hc : c < k) {x : List Bool} (hx : ∀ v ∈ x.tail, v = true) (cs : List Bool) :
    hits k c (x ++ cs) ↔ k ≤ counted c x ∨ hits k (counted c x) cs := by
  unfold counted
  cases x with
  | nil => simpa [resets] using hits_failures hc (t := []) (by simp) cs
  | cons v x =>
    cases v with
    | false =>
      have := hits_failures (c := 0) (Nat.zero_lt_of_lt hc) hx cs
      simpa [hits, resets] using this
    | true =>
      have := hits_failures hc (t := true :: x) (by simpa using hx) cs
      simpa [resets] using this

theorem streak_of_le {xs : List (List Bool)} (h : k ≤ c) : Streak k c xs :=
  ⟨[], [], xs, rfl, by simp, Or.inl ⟨rfl, by simpa using h⟩⟩

/-- A streak starts after the first block, or the first block counts for it. -/
theorem streak_cons (hc : c < k) {x : List Bool} {xs : List (List Bool)} :
    Streak k c (x :: xs) ↔ Streak k (counted c x) xs := by
  unfold counted
  constructor
  · rintro ⟨before, mid, after, hxs, hmid, ⟨rfl, hk⟩ | ⟨before', y, rfl, hy, hk⟩⟩
    · cases mid with
      | nil => simp at hk; omega
      | cons z mid =>
        obtain ⟨rfl, rfl⟩ := List.cons.inj hxs
        obtain ⟨hz, hmid⟩ := List.forall_mem_cons.1 hmid
        refine ⟨[], mid, after, rfl, hmid, Or.inl ⟨rfl, ?_⟩⟩
        rw [hz]
        simp only [List.flatten_cons, List.count_append] at hk
        simp only [Bool.false_eq_true, if_false]
        omega
    · cases before' with
      | nil =>
        obtain ⟨rfl, rfl⟩ := List.cons.inj hxs
        refine ⟨[], mid, after, rfl, hmid, Or.inl ⟨rfl, ?_⟩⟩
        rw [hy]
        simpa using hk
      | cons z before' =>
        obtain ⟨rfl, rfl⟩ := List.cons.inj hxs
        exact ⟨before' ++ [y], mid, after, rfl, hmid, Or.inr ⟨before', y, rfl, hy, hk⟩⟩
  · rintro ⟨before, mid, after, rfl, hmid, ⟨rfl, hk⟩ | ⟨before', y, rfl, hy, hk⟩⟩
    · cases hx : resets x with
      | true =>
        rw [hx] at hk
        exact ⟨[x], mid, after, rfl, hmid, Or.inr ⟨[], x, rfl, hx, by simpa using hk⟩⟩
      | false =>
        refine ⟨[], x :: mid, after, rfl, List.forall_mem_cons.2 ⟨hx, hmid⟩, Or.inl ⟨rfl, ?_⟩⟩
        rw [hx] at hk
        simp only [Bool.false_eq_true, if_false] at hk
        rw [List.flatten_cons, List.count_append]
        omega
    · exact ⟨x :: (before' ++ [y]), mid, after, rfl, hmid, Or.inr ⟨x :: before', y, rfl, hy, hk⟩⟩

/-- **Streaks.** The counter reaches `k` iff there is a streak. -/
theorem hits_flatten_iff (hc : c < k) {xs : List (List Bool)}
    (hxs : ∀ x ∈ xs, ∀ v ∈ x.tail, v = true) : hits k c xs.flatten ↔ Streak k c xs := by
  induction xs generalizing c with
  | nil =>
    refine iff_of_false (by simp [hits]) ?_
    rintro ⟨before, mid, after, hnil, -, h⟩
    obtain ⟨hbm, rfl⟩ := List.append_eq_nil_iff.1 hnil.symm
    obtain ⟨rfl, rfl⟩ := List.append_eq_nil_iff.1 hbm
    rcases h with ⟨-, hk⟩ | ⟨before', x, hnil, -⟩
    · simp at hk; omega
    · simp at hnil
  | cons x xs ih =>
    obtain ⟨hx, hxs⟩ := List.forall_mem_cons.1 hxs
    rw [List.flatten_cons, hits_block hc hx, streak_cons hc]
    by_cases hk : k ≤ counted c x
    · exact iff_of_true (Or.inl hk) (streak_of_le hk)
    · rw [or_iff_right hk, ih (Nat.not_le.1 hk) hxs]

theorem length_le_count_flatten {xs : List (List Bool)} (h : ∀ x ∈ xs, true ∈ x) :
    xs.length ≤ xs.flatten.count true := by
  induction xs with
  | nil => simp
  | cons x xs ih =>
    obtain ⟨hx, hxs⟩ := List.forall_mem_cons.1 h
    have := List.count_pos_iff.2 hx
    have := ih hxs
    rw [List.flatten_cons, List.count_append, List.length_cons]
    omega

/-- `k` blocks with a failure are a streak if only the first of them may have a success. -/
theorem streak_of_length {xs : List (List Bool)} (hk : k ≤ xs.length) (hxs : ∀ x ∈ xs, true ∈ x)
    (htail : ∀ x ∈ xs.tail, resets x = false) : Streak k c xs := by
  have hcount := length_le_count_flatten hxs
  cases xs with
  | nil => exact streak_of_le (Nat.le_trans hk (Nat.zero_le c))
  | cons x xs =>
    cases hx : resets x with
    | true =>
      refine ⟨[x], xs, [], by simp, htail, Or.inr ⟨[], x, rfl, hx, ?_⟩⟩
      rw [List.flatten_cons, List.count_append] at hcount
      omega
    | false =>
      exact ⟨[], x :: xs, [], by simp, List.forall_mem_cons.2 ⟨hx, htail⟩, Or.inl ⟨rfl, by omega⟩⟩

/-! ## Failures in a row -/

/-- The counter reaches `k` iff the failures it still needs come first, or `k` failures come in a
    row later. -/
theorem hits_iff {cs : List Bool} (hc : c < k) :
    hits k c cs ↔ List.replicate (k - c) true <+: cs ∨ List.replicate k true <:+: cs := by
  induction cs generalizing c with
  | nil =>
    have hne : k - c ≠ 0 := by omega
    have hk : k ≠ 0 := by omega
    simp [hits, hne, hk]
  | cons v cs ih =>
    cases v with
    | false =>
      have hfirst : ∀ n, n ≠ 0 → ¬ List.replicate n true <+: false :: cs := by
        intro n hn hpre
        cases n with
        | zero => exact hn rfl
        | succ n =>
          rw [List.replicate_succ, List.cons_prefix_cons] at hpre
          cases hpre.1
      rw [hits, ih (Nat.zero_lt_of_lt hc), List.infix_cons_iff,
        or_iff_right (hfirst (k - c) (by omega)), or_iff_right (hfirst k (by omega)), Nat.sub_zero]
      exact or_iff_right_of_imp List.IsPrefix.isInfix
    | true =>
      have hnext : List.replicate (k - c) true <+: true :: cs ↔
          List.replicate (k - (c + 1)) true <+: cs := by
        rw [show k - c = k - (c + 1) + 1 by omega, List.replicate_succ, List.cons_prefix_cons]
        exact and_iff_right rfl
      rw [hits, Bool.or_eq_true, decide_eq_true_iff, hnext, List.infix_cons_iff]
      by_cases hk : k ≤ c + 1
      · have hnone : k - (c + 1) = 0 := by omega
        exact iff_of_true (Or.inl hk) (Or.inl (by rw [hnone]; exact List.nil_prefix))
      · rw [or_iff_right hk, ih (Nat.not_le.1 hk)]
        -- a row that starts at once includes the failures still needed
        have hrow : List.replicate k true <+: true :: cs →
            List.replicate (k - (c + 1)) true <+: cs := by
          intro hpre
          refine hnext.1 (List.IsPrefix.trans ⟨List.replicate c true, ?_⟩ hpre)
          rw [List.replicate_append_replicate, Nat.sub_add_cancel (Nat.le_of_lt hc)]
        tauto

end Lib
