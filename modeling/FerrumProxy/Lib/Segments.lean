/-
  Splitting a list at a separator.

  The parts of `p` are a leading part of the parts of `l` iff `l` is `p`, or `p`
  followed by a separator is a prefix of `l` (`splitOn_isPrefix_iff`).
-/
import Mathlib.Data.List.Basic

namespace Lib

universe u
variable {α : Type u} {a : α}

theorem intercalate_append {xs ys : List (List α)} (hxs : xs ≠ []) (hys : ys ≠ []) :
    [a].intercalate (xs ++ ys) = [a].intercalate xs ++ a :: [a].intercalate ys := by
  induction xs with
  | nil => exact absurd rfl hxs
  | cons x xs ih =>
    cases xs with
    | nil => simp [List.intercalate_cons_of_ne_nil hys]
    | cons x' xs =>
      calc [a].intercalate (x :: x' :: xs ++ ys)
          = x ++ [a] ++ [a].intercalate (x' :: xs ++ ys) := List.intercalate_cons_cons
        _ = x ++ [a] ++ ([a].intercalate (x' :: xs) ++ a :: [a].intercalate ys) := by
            rw [ih (by simp)]
        _ = x ++ [a] ++ [a].intercalate (x' :: xs) ++ a :: [a].intercalate ys := by
            rw [List.append_assoc (x ++ [a])]
        _ = [a].intercalate (x :: x' :: xs) ++ a :: [a].intercalate ys := by
            rw [← List.intercalate_cons_cons]

/-- **Leading parts.** -/
theorem splitOn_isPrefix_iff [DecidableEq α] {p l : List α} :
    p.splitOn a <+: l.splitOn a ↔ l = p ∨ p ++ [a] <+: l := by
  constructor
  · rintro ⟨t, ht⟩
    have hl : l = [a].intercalate (p.splitOn a ++ t) := by
      rw [ht, List.intercalate_splitOn]
    by_cases hnil : t = []
    · left
      rw [hl, hnil, List.append_nil, List.intercalate_splitOn]
    · right
      rw [hl, intercalate_append (List.splitOn_ne_nil a p) hnil, List.intercalate_splitOn]
      exact ⟨[a].intercalate t, by simp⟩
  · rintro (rfl | ⟨rest, rfl⟩)
    · exact List.prefix_rfl
    · rw [List.append_assoc, List.singleton_append, List.splitOn_append_cons_self]
      exact List.prefix_append ..

end Lib
