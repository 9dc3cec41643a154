/-
  Time windows of one length.

  A window opened at `s` covers the instants before `s + D`.  `Covered D ws t`:
  some window of `ws` still covers `t`.  Since all windows have the same length,
  the one opened last closes last (`covered_concat_iff`), and once no window covers
  an instant none covers a later one (`Covered.anti`).
-/
import Mathlib.Algebra.Order.Monoid.Unbundled.Basic
import Mathlib.Order.Lattice

namespace Lib

universe u
variable {T : Type u} [LinearOrder T] [Add T] [AddRightMono T]

/-- Some window opened at an instant of `ws` covers `t`. -/
def Covered (D : T) (ws : List T) (t : T) : Prop := ∃ s ∈ ws, t < s + D

instance (D : T) (ws : List T) (t : T) : Decidable (Covered D ws t) :=
  inferInstanceAs (Decidable (∃ s ∈ ws, t < s + D))

omit [AddRightMono T] in
@[simp] theorem covered_nil (D t : T) : ¬ Covered D [] t := by simp [Covered]

omit [AddRightMono T] in
theorem not_covered {D t : T} {ws : List T} : ¬ Covered D ws t ↔ ∀ s ∈ ws, s + D ≤ t := by
  simp [Covered]

omit [AddRightMono T] in
/-- A later instant is covered by fewer windows. -/
theorem Covered.anti {D t t' : T} {ws : List T} (h : Covered D ws t') (ht : t ≤ t') :
    Covered D ws t := by
  obtain ⟨s, hs, hlt⟩ := h
  exact ⟨s, hs, lt_of_le_of_lt ht hlt⟩

omit [AddRightMono T] in
theorem covered_append {D t : T} {ws ws' : List T} :
    Covered D (ws ++ ws') t ↔ Covered D ws t ∨ Covered D ws' t := by
  simp only [Covered, List.mem_append]
  constructor
  · rintro ⟨s, hs | hs, h⟩
    exacts [Or.inl ⟨s, hs, h⟩, Or.inr ⟨s, hs, h⟩]
  · rintro (⟨s, hs, h⟩ | ⟨s, hs, h⟩)
    exacts [⟨s, Or.inl hs, h⟩, ⟨s, Or.inr hs, h⟩]

/-- The window opened last closes last. -/
theorem covered_concat_iff {D t s : T} {ws : List T} (h : ∀ s' ∈ ws, s' ≤ s) :
    Covered D (ws ++ [s]) t ↔ t < s + D := by
  constructor
  · rintro ⟨s', hs', hlt⟩
    rcases List.mem_append.1 hs' with hs' | hs'
    · exact lt_of_lt_of_le hlt (add_le_add_left (h s' hs') D)
    · rwa [List.mem_singleton.1 hs'] at hlt
  · exact fun hlt => ⟨s, by simp, hlt⟩

end Lib
