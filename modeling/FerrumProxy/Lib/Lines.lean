/-
  Multimaps as lists of lines.

  A line has a key and a value, and a key may have several lines.  Only the values
  of one key in their order are significant (`values`); two lists of lines with the
  same values for every key are the same multimap.
-/
import Mathlib.Data.List.Basic

namespace Lib

universe u v
variable {κ : Type u} {ν : Type v} [DecidableEq κ]

/-- The values of a key, in order. -/
def values (l : List (κ × ν)) (k : κ) : List ν :=
  l.filterMap fun e => if e.1 = k then some e.2 else none

@[simp] theorem values_nil (k : κ) : values ([] : List (κ × ν)) k = [] := rfl

@[simp] theorem values_append (l l' : List (κ × ν)) (k : κ) :
    values (l ++ l') k = values l k ++ values l' k := List.filterMap_append ..

theorem values_cons (e : κ × ν) (l : List (κ × ν)) (k : κ) :
    values (e :: l) k = (if e.1 = k then [e.2] else []) ++ values l k := by
  unfold values
  rw [List.filterMap_cons]
  split_ifs <;> rfl

/-- Lookup finds the first value. -/
theorem lookup_eq_head? [BEq κ] [LawfulBEq κ] (l : List (κ × ν)) (k : κ) :
    l.lookup k = (values l k).head? := by
  induction l with
  | nil => rfl
  | cons e l ih =>
    obtain ⟨k', v⟩ := e
    rw [values_cons, List.lookup_cons]
    by_cases hk : k = k'
    · simp [hk]
    · rw [beq_false_of_ne hk, if_neg (Ne.symm hk)]
      exact ih

/-- Keeping the lines of some keys keeps the values of these keys. -/
theorem values_filter (l : List (κ × ν)) (p : κ → Bool) (k : κ) :
    values (l.filter fun e => p e.1) k = if p k then values l k else [] := by
  induction l with
  | nil => simp
  | cons e l ih =>
    obtain ⟨k', v⟩ := e
    rw [List.filter_cons, values_cons]
    by_cases hp : p k'
    · rw [if_pos hp, values_cons, ih]
      by_cases hk : k' = k
      · subst hk
        simp [hp]
      · simp [hk]
    · rw [if_neg hp, ih]
      by_cases hk : k' = k
      · subst hk
        simp [hp]
      · simp [hk]

/-- The same multimap. -/
def SameLines (l l' : List (κ × ν)) : Prop := ∀ k, values l k = values l' k

end Lib
