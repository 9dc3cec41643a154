/-
  Going round a list.

  `GoesRound l w`: every entry of `w` is a position together with the entry of `l`
  at this position, counted round and round.  As many entries as `l` has make up
  `l` in some order iff no two of their positions agree modulo its length
  (`GoesRound.perm_iff`).  Among consecutive positions all residues are met equally
  often, up to one (`count_range'_mod`).
-/
import Mathlib.Data.List.Nodup
import Mathlib.Data.List.Perm.Basic
import Mathlib.Data.Nat.ModEq

namespace Lib

universe u
variable {α : Type u} {l : List α} {w : List (ℕ × α)}

/-- Each entry of `w` is the entry of `l` at its position, going round. -/
def GoesRound (l : List α) (w : List (ℕ × α)) : Prop := ∀ p ∈ w, l[p.1 % l.length]? = some p.2

@[simp] theorem goesRound_nil : GoesRound l [] := by simp [GoesRound]

theorem goesRound_append {w' : List (ℕ × α)} :
    GoesRound l (w ++ w') ↔ GoesRound l w ∧ GoesRound l w' := List.forall_mem_append

/-- Two entries are the same iff their positions agree modulo the length. -/
theorem GoesRound.eq_iff (hl : l.Nodup) (h : GoesRound l w) {p q : ℕ × α} (hp : p ∈ w)
    (hq : q ∈ w) : p.2 = q.2 ↔ p.1 % l.length = q.1 % l.length := by
  have hpl := h p hp
  have hql := h q hq
  constructor
  · intro heq
    rw [heq] at hpl
    exact (List.getElem?_inj (List.getElem?_eq_some_iff.1 hpl).1 hl).1 (hpl.trans hql.symm)
  · intro heq
    rw [heq] at hpl
    exact Option.some.inj (hpl.symm.trans hql)

/-- Going once round, in any order. -/
theorem GoesRound.perm_iff (hl : l.Nodup) (h : GoesRound l w) (hlen : w.length = l.length) :
    (w.map (·.2)).Perm l ↔ (w.map (·.1 % l.length)).Nodup := by
  have hsub : w.map (·.2) ⊆ l := by
    intro a ha
    obtain ⟨p, hp, rfl⟩ := List.mem_map.1 ha
    exact List.mem_of_getElem? (h p hp)
  have hnodup : (w.map (·.2)).Nodup ↔ (w.map (·.1 % l.length)).Nodup := by
    unfold List.Nodup
    rw [List.pairwise_map, List.pairwise_map]
    exact List.Pairwise.iff_of_mem fun hp hq => not_congr (h.eq_iff hl hp hq)
  rw [← hnodup]
  constructor
  · exact fun hperm => hperm.nodup_iff.2 hl
  · intro hw
    refine (List.subperm_of_subset hw hsub).perm_of_length_le ?_
    rw [List.length_map, hlen]

/-- At most `n` consecutive positions are distinct modulo `n`. -/
theorem nodup_map_mod_range' {n k : ℕ} (hk : k ≤ n) (s : ℕ) :
    ((List.range' s k).map (· % n)).Nodup := by
  refine List.Nodup.map_on (fun i hi j hj hij => ?_) List.nodup_range'
  obtain ⟨hsi, hi⟩ := List.mem_range'_1.1 hi
  obtain ⟨hsj, hj⟩ := List.mem_range'_1.1 hj
  -- both are `s` and a remainder
  obtain ⟨i, rfl⟩ := Nat.exists_eq_add_of_le hsi
  obtain ⟨j, rfl⟩ := Nat.exists_eq_add_of_le hsj
  have hmod : i ≡ j [MOD n] := Nat.ModEq.add_left_cancel' s hij
  rw [hmod.eq_of_lt_of_lt (by omega) (by omega)]

/-- Consecutive positions go once round. -/
theorem GoesRound.perm_of_consecutive (hl : l.Nodup) (h : GoesRound l w) {k : ℕ}
    (hk : w.map (·.1) = List.range' k l.length) : (w.map (·.2)).Perm l := by
  have hlen : w.length = l.length := by simpa using congrArg List.length hk
  have hmap : w.map (·.1 % l.length) = (w.map (·.1)).map (· % l.length) := by simp
  rw [h.perm_iff hl hlen, hmap, hk]
  exact nodup_map_mod_range' le_rfl k

/-! ## Consecutive positions -/

/-- Going once round meets every residue. -/
theorem count_range'_mod_self {n j : ℕ} (hj : j < n) (s : ℕ) :
    ((List.range' s n).map (· % n)).count j = 1 := by
  have hle := List.nodup_iff_count_le_one.1 (nodup_map_mod_range' (le_refl n) s) j
  have hmem : j ∈ (List.range' s n).map (· % n) := by
    -- the distance from `s` to `j`, going forwards
    refine List.mem_map.2 ⟨s + (j + (n - s % n)) % n, ?_, ?_⟩
    · exact List.mem_range'_1.2 ⟨by omega, Nat.add_lt_add_left (Nat.mod_lt _ (by omega)) s⟩
    · have hs : s % n < n := Nat.mod_lt _ (by omega)
      have hdiv := Nat.div_add_mod s n
      have hsum : s + (j + (n - s % n)) = j + n * (s / n + 1) := by
        rw [Nat.mul_add]
        omega
      rw [Nat.add_mod_mod, hsum, Nat.add_mul_mod_self_left, Nat.mod_eq_of_lt hj]
  have hpos := List.count_pos_iff.2 hmem
  omega

/-- **Even rotation.** Of `k` consecutive positions, each residue modulo `n` is met `k / n` times,
    rounded down or up. -/
theorem count_range'_mod {n j : ℕ} (hj : j < n) (s k : ℕ) :
    ((List.range' s k).map (· % n)).count j = k / n ∨
      ((List.range' s k).map (· % n)).count j = (k + n - 1) / n := by
  induction k using Nat.strong_induction_on generalizing s with
  | _ k ih =>
    rcases Nat.lt_or_ge k n with hk | hk
    · have hle := List.nodup_iff_count_le_one.1 (nodup_map_mod_range' hk.le s) j
      have hfloor : k / n = 0 := Nat.div_eq_of_lt hk
      rcases Nat.eq_zero_or_pos k with rfl | hpos
      · exact Or.inl (by simp)
      · have hceil : (k + n - 1) / n = 1 := by
          rw [Nat.div_eq_iff (by omega)]
          omega
        omega
    · -- one round, and the rest of the positions
      obtain ⟨k, rfl⟩ := Nat.exists_eq_add_of_le hk
      have hsplit : List.range' s (n + k) = List.range' s n ++ List.range' (s + n) k := by
        rw [List.range'_append_1]
      have hfloor : (n + k) / n = k / n + 1 := by
        rw [Nat.add_comm, Nat.add_div_right k (by omega)]
      have hceil : (n + k + n - 1) / n = (k + n - 1) / n + 1 := by
        rw [show n + k + n - 1 = k + n - 1 + n by omega, Nat.add_div_right _ (by omega)]
      have hrest := ih k (by omega) (s + n)
      rw [hsplit, List.map_append, List.count_append, count_range'_mod_self hj, hfloor, hceil]
      omega

end Lib
