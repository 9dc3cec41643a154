/-
  Spending a quota.

  `fitting size limit seen l` is the longest leading part of `l` whose sizes, on top
  of what has been seen before, stay within the limit.
-/
import Mathlib.Algebra.GroupWithZero.Nat
import Mathlib.Data.List.Basic

namespace Lib

universe u
variable {α : Type u} {size : α → ℕ} {limit seen : ℕ} {l : List α}

/-- The longest leading part that fits. -/
def fitting (size : α → ℕ) (limit : ℕ) : ℕ → List α → List α
  | _, [] => []
  | seen, a :: as =>
    if seen + size a ≤ limit then a :: fitting size limit (seen + size a) as else []

theorem fitting_isPrefix : fitting size limit seen l <+: l := by
  induction l generalizing seen with
  | nil => exact List.prefix_rfl
  | cons a as ih =>
    unfold fitting
    split_ifs with h
    · exact (List.prefix_cons_inj a).2 ih
    · exact List.nil_prefix

/-- What fits stays within the limit. -/
theorem add_sum_fitting_le (h : seen ≤ limit) :
    seen + ((fitting size limit seen l).map size).sum ≤ limit := by
  induction l generalizing seen with
  | nil => simpa [fitting] using h
  | cons a as ih =>
    unfold fitting
    split_ifs with ha
    · have hrest := ih ha
      rw [List.map_cons, List.sum_cons]
      omega
    · simpa using h

theorem fitting_of_lt (h : limit < seen) : fitting size limit seen l = [] := by
  cases l with
  | nil => rfl
  | cons a as => exact if_neg (by omega)

end Lib
