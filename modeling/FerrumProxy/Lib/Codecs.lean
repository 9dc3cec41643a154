/-
  Writing values one after the other, and reading them back.

  A codec writes a value and reads one from the front of a text; a valid value is read
  back whatever stands behind it, and what stands behind it is left.  So codecs compose:
  one after the other (`pair`), one of two (`choice`), separated and ended by marks
  (`many`), and as a whole text of values (`readAll_flatMap`).
-/
import Mathlib.Data.List.Basic

namespace Lib

universe u v w

/-- A format for values of `α`, with the values that it can carry. -/
structure Codec (χ : Type u) (α : Type v) where
  write : α → List χ
  read : List χ → Option (α × List χ)
  Valid : α → Prop
  read_write : ∀ a rest, Valid a → read (write a ++ rest) = some (a, rest)

namespace Codec

variable {χ : Type u} {α : Type v} {β : Type w}

/-- One value after the other. -/
def pair (A : Codec χ α) (B : Codec χ β) : Codec χ (α × β) where
  write p := A.write p.1 ++ B.write p.2
  read l := (A.read l).bind fun r => (B.read r.2).map fun r' => ((r.1, r'.1), r'.2)
  Valid p := A.Valid p.1 ∧ B.Valid p.2
  read_write p rest h := by
    rw [List.append_assoc, A.read_write _ _ h.1, Option.bind_some, B.read_write _ _ h.2]
    rfl

/-- The same text for the values of another type. -/
def via (C : Codec χ α) (f : β → α) (g : α → β) (hg : ∀ b, g (f b) = b) : Codec χ β where
  write b := C.write (f b)
  read l := (C.read l).map fun r => (g r.1, r.2)
  Valid b := C.Valid (f b)
  read_write b rest h := by
    rw [C.read_write _ _ h, Option.map_some, hg]

/-- Values of two kinds, told apart by what stands in front. -/
def choice (p : List χ → Bool) (A : Codec χ α) (B : Codec χ β) : Codec χ (α ⊕ β) where
  write := Sum.elim A.write B.write
  read l :=
    if p l then (A.read l).map fun r => (.inl r.1, r.2)
    else (B.read l).map fun r => (.inr r.1, r.2)
  Valid := Sum.elim (fun a => A.Valid a ∧ ∀ rest, p (A.write a ++ rest) = true)
    (fun b => B.Valid b ∧ ∀ rest, p (B.write b ++ rest) = false)
  read_write
    | .inl a, rest, h => by
      rw [Sum.elim_inl, if_pos (h.2 rest), A.read_write _ _ h.1]
      rfl
    | .inr b, rest, h => by
      rw [Sum.elim_inr, if_neg (by simp [h.2 rest]), B.read_write _ _ h.1]
      rfl

section
variable [DecidableEq χ]

/-- Take a text from the front. -/
def takeLiteral : List χ → List χ → Option (List χ)
  | [], l => some l
  | _ :: _, [] => none
  | c :: cs, d :: l => if c = d then takeLiteral cs l else none

theorem takeLiteral_append (cs l : List χ) : takeLiteral cs (cs ++ l) = some l := by
  induction cs with
  | nil => rfl
  | cons c cs ih => rw [List.cons_append, takeLiteral, if_pos rfl, ih]

/-- A fixed text before a value. -/
def after (text : List χ) (C : Codec χ α) : Codec χ α where
  write a := text ++ C.write a
  read l := (takeLiteral text l).bind C.read
  Valid := C.Valid
  read_write a rest h := by
    rw [List.append_assoc, takeLiteral_append, Option.bind_some, C.read_write a rest h]

/-- Words that end at a mark, which is taken. -/
def upTo (mark : χ) : Codec χ (List χ) where
  write w := w ++ [mark]
  read l := some (l.takeWhile (· ≠ mark), (l.dropWhile (· ≠ mark)).tail)
  Valid w := mark ∉ w
  read_write w rest h := by
    have hw : ∀ c ∈ w, (decide (c ≠ mark)) = true := fun c hc =>
      decide_eq_true fun he => h (he ▸ hc)
    rw [List.append_assoc, List.takeWhile_append_of_pos hw, List.dropWhile_append_of_pos hw]
    simp

/-- Words that end where a value begins, which starts with a mark. -/
def word (marks : List χ) (C : Codec χ α)
    (hC : ∀ a, ∃ c l, C.write a = c :: l ∧ c ∈ marks) : Codec χ (List χ × α) where
  write p := p.1 ++ C.write p.2
  read l := (C.read (l.dropWhile (· ∉ marks))).map fun r => ((l.takeWhile (· ∉ marks), r.1), r.2)
  Valid p := (∀ c ∈ p.1, c ∉ marks) ∧ C.Valid p.2
  read_write p rest h := by
    have hw : ∀ c ∈ p.1, (decide (c ∉ marks)) = true := fun c hc => decide_eq_true (h.1 c hc)
    obtain ⟨c, l, hcl, hc⟩ := hC p.2
    have hstop : (C.write p.2 ++ rest).dropWhile (· ∉ marks) = C.write p.2 ++ rest ∧
        (C.write p.2 ++ rest).takeWhile (· ∉ marks) = [] := by
      simp [hcl, hc]
    rw [List.append_assoc, List.takeWhile_append_of_pos hw, List.dropWhile_append_of_pos hw,
      hstop.1, hstop.2, C.read_write _ _ h.2]
    simp

/-- Read values, each behind the mark `more`, up to the mark `stop`. -/
def readMany (more stop : χ) (read : List χ → Option (α × List χ)) :
    ℕ → List χ → Option (List α × List χ)
  | 0, _ => none
  | _ + 1, [] => none
  | n + 1, c :: l =>
    if c = stop then some ([], l)
    else if c = more then
      (read l).bind fun r => (readMany more stop read n r.2).map fun r' => (r.1 :: r'.1, r'.2)
    else none

theorem readMany_write (C : Codec χ α) {more stop : χ} (hne : more ≠ stop) (as : List α)
    (h : ∀ a ∈ as, C.Valid a) (rest : List χ) {n : ℕ} (hn : as.length < n) :
    readMany more stop C.read n (as.flatMap (fun a => more :: C.write a) ++ stop :: rest) =
      some (as, rest) := by
  induction as generalizing n with
  | nil =>
    obtain ⟨n, rfl⟩ := Nat.exists_eq_succ_of_ne_zero (Nat.ne_of_gt hn)
    simp [readMany]
  | cons a as ih =>
    obtain ⟨n, rfl⟩ := Nat.exists_eq_succ_of_ne_zero (Nat.ne_of_gt (Nat.zero_lt_of_lt hn))
    rw [List.flatMap_cons, List.append_assoc, List.cons_append, readMany, if_neg hne, if_pos rfl,
      C.read_write _ _ (h a (List.mem_cons_self ..)), Option.bind_some,
      ih (fun a' ha' => h a' (List.mem_cons_of_mem _ ha')) (Nat.lt_of_succ_lt_succ hn)]
    rfl

/-- Any number of values, each behind the mark `more`, and the mark `stop` behind the last one. -/
def many (more stop : χ) (hne : more ≠ stop) (C : Codec χ α) : Codec χ (List α) where
  write as := as.flatMap (fun a => more :: C.write a) ++ [stop]
  read l := readMany more stop C.read l.length l
  Valid as := ∀ a ∈ as, C.Valid a
  read_write as rest h := by
    rw [List.append_assoc, List.singleton_append]
    refine readMany_write C hne as h rest ?_
    have hlen : as.length ≤ (as.flatMap fun a => more :: C.write a).length := by
      clear h
      induction as with
      | nil => exact Nat.zero_le _
      | cons a as ih =>
        rw [List.flatMap_cons, List.length_append, List.length_cons, List.length_cons]
        omega
    rw [List.length_append, List.length_cons]
    omega

/-- What `many` writes starts with one of its marks. -/
theorem many_starts {more stop : χ} (hne : more ≠ stop) (C : Codec χ α) (as : List α) :
    ∃ c l, (many more stop hne C).write as = c :: l ∧ c ∈ [more, stop] := by
  cases as with
  | nil => exact ⟨stop, [], rfl, by simp⟩
  | cons a as => exact ⟨more, _, rfl, by simp⟩

end

/-! ## Whole texts -/

/-- Read values up to the end of the text. -/
def readAll (C : Codec χ α) : ℕ → List χ → Option (List α)
  | _, [] => some []
  | 0, _ :: _ => none
  | n + 1, c :: l => (C.read (c :: l)).bind fun r => (readAll C n r.2).map (r.1 :: ·)

/-- **Round trip.** A text of valid values is read back as these values. -/
theorem readAll_flatMap (C : Codec χ α) (hne : ∀ a, C.write a ≠ []) (as : List α)
    (h : ∀ a ∈ as, C.Valid a) {n : ℕ} (hn : as.length ≤ n) :
    C.readAll n (as.flatMap C.write) = some as := by
  induction as generalizing n with
  | nil => cases n <;> rfl
  | cons a as ih =>
    obtain ⟨n, rfl⟩ := Nat.exists_eq_succ_of_ne_zero (Nat.ne_of_gt (Nat.lt_of_lt_of_le
      (Nat.succ_pos _) hn))
    obtain ⟨c, l, hcl⟩ := List.exists_cons_of_ne_nil (hne a)
    have hread := C.read_write a (as.flatMap C.write) (h a (List.mem_cons_self ..))
    rw [List.flatMap_cons]
    rw [hcl, List.cons_append] at hread ⊢
    rw [readAll, hread, Option.bind_some,
      ih (fun a' ha' => h a' (List.mem_cons_of_mem _ ha')) (Nat.le_of_succ_le_succ hn)]
    rfl

end Codec

end Lib
