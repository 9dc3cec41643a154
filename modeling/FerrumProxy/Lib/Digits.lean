/-
  Hexadecimal digits.

  `readHex` reads digits from the front, most significant first; it inverts
  `Nat.toDigits 16`, with any number of zeros in front.
-/
import Mathlib.Data.List.Basic

namespace Lib

/-- The value of a hexadecimal digit in lower case. -/
def hexValue (c : Char) : Option ℕ :=
  if '0' ≤ c ∧ c ≤ '9' then some (c.toNat - 48)
  else if 'a' ≤ c ∧ c ≤ 'f' then some (c.toNat - 87)
  else none

theorem hexValue_digitChar : ∀ d < 16, hexValue (Nat.digitChar d) = some d := by decide

/-- Read the digits of a number behind those of `n`. -/
def readHex : ℕ → List Char → Option ℕ
  | n, [] => some n
  | n, c :: l => (hexValue c).bind fun d => readHex (16 * n + d) l

theorem readHex_append (n : ℕ) (l l' : List Char) :
    readHex n (l ++ l') = (readHex n l).bind (readHex · l') := by
  induction l generalizing n with
  | nil => rfl
  | cons c l ih =>
    rw [List.cons_append, readHex, readHex, Option.bind_assoc]
    congr 1
    funext d
    exact ih _

/-- A number is its last digit behind the others. -/
theorem toDigits_induction {Q : ℕ → List Char → Prop}
    (hdigit : ∀ d < 16, Q d [Nat.digitChar d])
    (hmore : ∀ n d l, d < 16 → Q n l → Q (16 * n + d) (l ++ [Nat.digitChar d])) (n : ℕ) :
    Q n (Nat.toDigits 16 n) := by
  induction n using Nat.strongRecOn with
  | ind n ih =>
    by_cases hlt : n < 16
    · rw [Nat.toDigits_of_lt_base hlt]
      exact hdigit n hlt
    · have hdiv : n / 16 < n := Nat.div_lt_self (by omega) (by decide)
      have hstep := hmore (n / 16) (n % 16) _ (Nat.mod_lt _ (by decide)) (ih _ hdiv)
      rwa [Nat.div_add_mod, ← Nat.toDigits_of_base_le (by decide) (Nat.le_of_not_lt hlt)] at hstep

/-- **Round trip.** -/
theorem readHex_toDigits (n : ℕ) : readHex 0 (Nat.toDigits 16 n) = some n := by
  refine toDigits_induction (Q := fun n l => readHex 0 l = some n) ?_ ?_ n
  · intro d hd
    simp [readHex, hexValue_digitChar d hd]
  · intro n d l hd hl
    simp [readHex_append, hl, readHex, hexValue_digitChar d hd]

/-- Zeros in front do not change a number. -/
theorem readHex_zeros (k : ℕ) (l : List Char) :
    readHex 0 (List.replicate k '0' ++ l) = readHex 0 l := by
  induction k with
  | zero => rfl
  | succ k ih =>
    rw [List.replicate_succ, List.cons_append, readHex, show hexValue '0' = some 0 from rfl,
      Option.bind_some]
    exact ih

/-- What holds of the sixteen digits holds of the digits of a number. -/
theorem forall_mem_toDigits {Q : Char → Prop} (hQ : ∀ d < 16, Q (Nat.digitChar d)) (n : ℕ) :
    ∀ c ∈ Nat.toDigits 16 n, Q c := by
  refine toDigits_induction (Q := fun _ l => ∀ c ∈ l, Q c) ?_ ?_ n
  · intro d hd c hc
    exact List.mem_singleton.1 hc ▸ hQ d hd
  · intro _ d l hd hl c hc
    rcases List.mem_append.1 hc with hc | hc
    · exact hl c hc
    · exact List.mem_singleton.1 hc ▸ hQ d hd

end Lib
