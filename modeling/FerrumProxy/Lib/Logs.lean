/-
  Logs: lists that only grow at their end.

  `AtEach Q l` says that every entry of `l` is related by `Q` to the entries
  before it.  It splits along `++` and `::`, so that a step that writes a few
  entries has to be looked at for those entries only.
-/
import Mathlib.Data.List.Basic

namespace Lib

universe u
variable {α : Type u} {Q Q' : List α → α → Prop}

/-- Every entry of `l` is related by `Q` to the entries before it. -/
def AtEach (Q : List α → α → Prop) (l : List α) : Prop :=
  ∀ l₁ a l₂, l = l₁ ++ a :: l₂ → Q l₁ a

@[simp] theorem atEach_nil : AtEach Q [] := fun l₁ a l₂ h => by simp at h

@[simp] theorem atEach_cons {a : α} {l : List α} :
    AtEach Q (a :: l) ↔ Q [] a ∧ AtEach (fun l₁ => Q (a :: l₁)) l := by
  constructor
  · intro h
    refine ⟨h [] a l rfl, fun l₁ b l₂ he => h (a :: l₁) b l₂ ?_⟩
    rw [he]; rfl
  · rintro ⟨h₀, h⟩ l₁ b l₂ he
    cases l₁ with
    | nil => obtain ⟨rfl, -⟩ := List.cons.inj he; exact h₀
    | cons c l₁ => obtain ⟨rfl, rfl⟩ := List.cons.inj he; exact h l₁ b l₂ rfl

theorem atEach_append {l l' : List α} :
    AtEach Q (l ++ l') ↔ AtEach Q l ∧ AtEach (fun l₁ => Q (l ++ l₁)) l' := by
  induction l generalizing Q with
  | nil => simp
  | cons a l ih => simp [ih, and_assoc]

instance AtEach.decidable : {Q : List α → α → Prop} → [∀ l a, Decidable (Q l a)] →
    (l : List α) → Decidable (AtEach Q l)
  | _, _, [] => isTrue atEach_nil
  | Q, _, a :: l =>
    have := AtEach.decidable (Q := fun l₁ => Q (a :: l₁)) l
    decidable_of_iff _ atEach_cons.symm

theorem AtEach.imp {l : List α} (h : AtEach Q l) (hq : ∀ l₁ a, a ∈ l → Q l₁ a → Q' l₁ a) :
    AtEach Q' l := fun l₁ a l₂ he => hq l₁ a (by simp [he]) (h l₁ a l₂ he)

/-- What comes before a later entry starts with what comes before an earlier one, and with that
    entry. -/
theorem concat_isPrefix_of_lt {l l₁ l₂ m₁ m₂ : List α} {a b : α} (ha : l = l₁ ++ a :: l₂)
    (hb : l = m₁ ++ b :: m₂) (h : l₁.length < m₁.length) : l₁ ++ [a] <+: m₁ := by
  have hl : l₁ ++ [a] <+: l := ⟨l₂, by rw [ha]; simp⟩
  have hm : m₁ <+: l := ⟨b :: m₂, hb.symm⟩
  refine List.prefix_of_prefix_length_le hl hm ?_
  rw [List.length_append, List.length_singleton]
  exact h

end Lib
