/-
  A channel that keeps the last value sent (`tokio::sync::watch`).

  A receiver remembers the version it has seen last, and its `changed` waits until
  there is a newer one or the sender is dropped; the newer version comes first.
  A channel of a flag is used to tell tasks to stop: a task `heeds` it when
  `changed` fails or the flag is set.  A flag that is set at most once (`Latched`)
  is heeded by every task, however late it looks (`heeds_of_raised`).
-/
import Mathlib.Data.Nat.Notation
import Mathlib.Tactic.ByContra

namespace Lib

universe u

/-- The shared part of the channel. -/
structure Watch (α : Type u) where
  value : α
  version : ℕ
  /-- the sender has not been dropped -/
  sender : Bool
deriving DecidableEq, Repr

namespace Watch

variable {α : Type u}

/-- A new channel. -/
def channel (v : α) : Watch α := ⟨v, 0, true⟩

/-- `send`, while there is a receiver. -/
def send (w : Watch α) (v : α) : Watch α := { w with value := v, version := w.version + 1 }

def dropSender (w : Watch α) : Watch α := { w with sender := false }

/-- What `changed` gives a receiver that has seen the version `seen`: the version it has seen now,
    an error, or nothing while it waits. -/
def changed (w : Watch α) (seen : ℕ) : Option (Except Unit ℕ) :=
  if w.version ≠ seen then some (.ok w.version)
  else if w.sender then none
  else some (.error ())

/-! ## Flags -/

/-- What a task takes from `changed.is_err() || *rx.borrow()`, and the version it has seen now. -/
def heeds (w : Watch Bool) (seen : ℕ) : Option (Bool × ℕ) :=
  (w.changed seen).map fun
    | .ok version => (w.value, version)
    | .error () => (true, seen)

/-- The flag has been set at most once, and never reset. -/
def Latched (w : Watch Bool) : Prop := w.version = w.value.toNat

/-- The flag is set, or nobody is left to set it. -/
def Raised (w : Watch Bool) : Prop := w.value = true ∨ w.sender = false

variable {w : Watch Bool} {seen : ℕ}

theorem heeds_of_ne (h : w.version ≠ seen) : w.heeds seen = some (w.value, w.version) := by
  simp [heeds, changed, h]

theorem heeds_of_dropped (h : w.sender = false) (hseen : w.version = seen) :
    w.heeds seen = some (true, seen) := by
  simp [heeds, changed, h, hseen]

theorem heeds_eq_none_iff : w.heeds seen = none ↔ w.version = seen ∧ w.sender = true := by
  by_cases hseen : w.version = seen
  · simp [heeds, changed, hseen]
  · simp [heeds, changed, hseen]

/-- What a task takes from a flag that is latched is to stop; it has seen every version then. -/
theorem Latched.of_heeds (h : w.Latched) (hseen : seen ≤ w.version) {r : Bool × ℕ}
    (hr : w.heeds seen = some r) : r = (true, w.version) ∧ w.Raised := by
  unfold Latched at h
  by_cases hne : w.version = seen
  · have hdropped : w.sender = false := by
      by_contra hsender
      rw [Bool.not_eq_false] at hsender
      rw [heeds_eq_none_iff.2 ⟨hne, hsender⟩] at hr
      cases hr
    rw [heeds_of_dropped hdropped hne] at hr
    exact ⟨by rw [hne]; exact (Option.some.inj hr).symm, Or.inr hdropped⟩
  · -- a version above another one is that of the flag set
    have hvalue : w.value = true := by
      cases hv : w.value with
      | true => rfl
      | false =>
        rw [hv, Bool.toNat_false] at h
        omega
    rw [heeds_of_ne hne, hvalue] at hr
    exact ⟨(Option.some.inj hr).symm, Or.inl hvalue⟩

/-- **No signal is missed.**  Once the flag is raised, a task that has seen no version yet is told
    to stop the next time it looks. -/
theorem heeds_of_raised (h : w.Latched) (hw : w.Raised) :
    w.heeds 0 = some (true, w.version) := by
  unfold Latched at h
  cases hv : w.value with
  | true =>
    rw [hv, Bool.toNat_true] at h
    rw [heeds_of_ne (by omega), hv]
  | false =>
    rw [hv, Bool.toNat_false] at h
    have hdropped : w.sender = false := hw.resolve_left (by simp [hv])
    rw [heeds_of_dropped hdropped h, h]

/-- Once the sender is dropped, a task that looks is told to stop each time. -/
theorem heeds_of_sender (h : w.Latched) (hw : w.sender = false) (hseen : seen ≤ w.version) :
    w.heeds seen = some (true, w.version) := by
  cases hr : w.heeds seen with
  | none => simp [heeds_eq_none_iff.1 hr] at hw
  | some r => rw [(h.of_heeds hseen hr).1]

end Watch

end Lib
