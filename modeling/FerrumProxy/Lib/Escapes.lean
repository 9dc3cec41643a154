/-
  Escaping with one escape character `e`.

  `escape e code` replaces each entry that has a code by `e` and this code.  Reading
  the result back (`unescape`) gives the entries again, as soon as the codes can be
  told apart and `e` itself has one (`unescape_escape`); what stands in the result
  without an escape are the entries without a code (`bare_escape`).
-/
import Mathlib.Data.List.Basic

namespace Lib

universe u
variable {α : Type u} {e : α} {code name : α → Option α} {l : List α}

/-- The escape of one entry. -/
def escapeOne (e : α) (code : α → Option α) (a : α) : List α :=
  match code a with
  | some d => [e, d]
  | none => [a]

/-- Escape the entries that have a code. -/
def escape (e : α) (code : α → Option α) (l : List α) : List α := l.flatMap (escapeOne e code)

theorem escapeOne_of_some {a d : α} (h : code a = some d) : escapeOne e code a = [e, d] := by
  simp [escapeOne, h]

theorem escapeOne_of_none {a : α} (h : code a = none) : escapeOne e code a = [a] := by
  simp [escapeOne, h]

/-- Nothing is escaped where nothing has a code. -/
theorem escape_eq_self (h : ∀ a ∈ l, code a = none) : escape e code l = l := by
  induction l with
  | nil => rfl
  | cons a l ih =>
    obtain ⟨ha, hl⟩ := List.forall_mem_cons.1 h
    rw [escape, List.flatMap_cons, escapeOne_of_none ha]
    exact congrArg (a :: ·) (ih hl)

variable [DecidableEq α]

/-- Read an escaped list; an escape without a meaning is an error. -/
def unescape (e : α) (name : α → Option α) : List α → Option (List α)
  | [] => some []
  | [a] => if a = e then none else some [a]
  | a :: d :: ds =>
    if a = e then (name d).bind fun a => (unescape e name ds).map (a :: ·)
    else (unescape e name (d :: ds)).map (a :: ·)

/-- The entries that stand without an escape. -/
def bare (e : α) : List α → List α
  | [] => []
  | [a] => if a = e then [] else [a]
  | a :: d :: ds => if a = e then bare e ds else a :: bare e (d :: ds)

theorem unescape_cons_of_ne {a : α} (h : a ≠ e) (l : List α) :
    unescape e name (a :: l) = (unescape e name l).map (a :: ·) := by
  cases l with
  | nil => simp [unescape, h]
  | cons d ds => rw [unescape, if_neg h]

theorem bare_cons_of_ne {a : α} (h : a ≠ e) (l : List α) : bare e (a :: l) = a :: bare e l := by
  cases l with
  | nil => simp [bare, h]
  | cons d ds => rw [bare, if_neg h]

/-- **Round trip.** -/
theorem unescape_escape (hcode : ∀ a d, code a = some d → name d = some a) (he : code e ≠ none) :
    unescape e name (escape e code l) = some l := by
  induction l with
  | nil => rfl
  | cons a l ih =>
    rw [escape, List.flatMap_cons]
    cases hca : code a with
    | some d =>
      rw [escapeOne_of_some hca]
      show unescape e name (e :: d :: escape e code l) = _
      rw [unescape, if_pos rfl, hcode a d hca, ih]
      rfl
    | none =>
      have hne : a ≠ e := fun hae => he (hae ▸ hca)
      rw [escapeOne_of_none hca]
      show unescape e name (a :: escape e code l) = _
      rw [unescape_cons_of_ne hne, ih]
      rfl

/-- Only the entries without a code stand without an escape. -/
theorem bare_escape (he : code e ≠ none) :
    bare e (escape e code l) = l.filter fun a => (code a).isNone := by
  induction l with
  | nil => rfl
  | cons a l ih =>
    rw [escape, List.flatMap_cons]
    cases hca : code a with
    | some d =>
      rw [escapeOne_of_some hca, List.filter_cons_of_neg (by simp [hca])]
      show bare e (e :: d :: escape e code l) = _
      rw [bare, if_pos rfl, ih]
    | none =>
      have hne : a ≠ e := fun hae => he (hae ▸ hca)
      rw [escapeOne_of_none hca, List.filter_cons_of_pos (by simp [hca])]
      show bare e (a :: escape e code l) = _
      rw [bare_cons_of_ne hne, ih]

end Lib
