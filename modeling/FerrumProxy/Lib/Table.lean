/-
  Finite tables: what a hash map holds, together with its keys in some order.

  A table carries the proof that its key list and its lookup agree, so that
  walking the keys visits every entry exactly once.  `modify` changes the value
  of an existing key and nothing else; `insert` adds or overwrites one entry.
  `count P` is the number of entries whose value satisfies `P`; one update
  changes it by what the old and the new value contribute (`count_insert`).  In the
  same way `total` adds up a table of numbers (`total_insert`).
-/
import Mathlib.Algebra.GroupWithZero.Nat
import Mathlib.Data.List.Dedup
import Mathlib.Logic.Function.Basic

namespace Lib

universe u v

/-- A finite map from `κ` to `ν` with its keys. -/
structure Table (κ : Type u) (ν : Type v) where
  keys : List κ
  get? : κ → Option ν
  nodup : keys.Nodup
  mem_keys : ∀ k, k ∈ keys ↔ (get? k).isSome

namespace Table

variable {κ : Type u} {ν : Type v}

/-- The table without entries. -/
def empty : Table κ ν := ⟨[], fun _ => none, List.nodup_nil, by simp⟩

/-- The entries, in the order of the keys. -/
def entries (T : Table κ ν) : List (κ × ν) :=
  T.keys.filterMap fun k => (T.get? k).map (k, ·)

/-- The number of entries whose value satisfies `P`. -/
def count (T : Table κ ν) (P : ν → Bool) : ℕ := T.keys.countP fun k => (T.get? k).any P

theorem count_pos {T : Table κ ν} {k : κ} {v : ν} {P : ν → Bool} (hk : T.get? k = some v)
    (hv : P v = true) : 0 < T.count P :=
  List.countP_pos_iff.2 ⟨k, (T.mem_keys k).2 (by simp [hk]), by simp [hk, hv]⟩

theorem mem_entries (T : Table κ ν) (e : κ × ν) : e ∈ T.entries ↔ T.get? e.1 = some e.2 := by
  unfold entries
  rw [List.mem_filterMap]
  constructor
  · rintro ⟨k, -, hk⟩
    obtain ⟨v, hv, rfl⟩ := Option.map_eq_some_iff.1 hk
    exact hv
  · intro h
    exact ⟨e.1, (T.mem_keys _).2 (by simp [h]), by rw [h]; rfl⟩

/-- The keys of the entries are the keys of the table. -/
theorem map_fst_entries (T : Table κ ν) : T.entries.map (·.1) = T.keys := by
  have hkeys : ∀ k ∈ T.keys, ((T.get? k).map (k, ·)).map Prod.fst = some k := by
    intro k hk
    obtain ⟨v, hv⟩ := Option.isSome_iff_exists.1 ((T.mem_keys k).1 hk)
    rw [hv]
    rfl
  unfold entries
  rw [List.map_filterMap, List.filterMap_congr hkeys, List.filterMap_some]

variable [DecidableEq κ]

/-- The table with value `f k` at each of the keys `ks`. -/
def ofKeys (ks : List κ) (f : κ → ν) : Table κ ν where
  keys := ks.dedup
  get? k := if k ∈ ks then some (f k) else none
  nodup := ks.nodup_dedup
  mem_keys k := by by_cases h : k ∈ ks <;> simp [h]

/-- Apply `f` to the value at `k`, if there is one. -/
def modify (T : Table κ ν) (k : κ) (f : ν → ν) : Table κ ν where
  keys := T.keys
  get? := Function.update T.get? k ((T.get? k).map f)
  nodup := T.nodup
  mem_keys k' := by
    by_cases h : k' = k
    · subst h; simp [T.mem_keys]
    · simp [h, T.mem_keys]

/-- Set the value at `k`. -/
def insert (T : Table κ ν) (k : κ) (v : ν) : Table κ ν where
  keys := if k ∈ T.keys then T.keys else T.keys ++ [k]
  get? := Function.update T.get? k (some v)
  nodup := by
    split_ifs with h
    · exact T.nodup
    · exact List.nodup_append.2 ⟨T.nodup, List.nodup_singleton k, by
        rintro a ha b hb rfl; exact h (List.mem_singleton.1 hb ▸ ha)⟩
  mem_keys k' := by
    by_cases h : k' = k
    · subst h; split_ifs with hk <;> simp [hk]
    · split_ifs with hk <;> simp [h, T.mem_keys]

@[simp] theorem keys_modify (T : Table κ ν) (k : κ) (f : ν → ν) : (T.modify k f).keys = T.keys :=
  rfl

@[simp] theorem get?_modify_self (T : Table κ ν) (k : κ) (f : ν → ν) :
    (T.modify k f).get? k = (T.get? k).map f := by simp [modify]

theorem get?_modify (T : Table κ ν) (k k' : κ) (f : ν → ν) :
    (T.modify k f).get? k' = if k' = k then (T.get? k).map f else T.get? k' := by
  simp [modify, Function.update_apply]

@[simp] theorem get?_insert_self (T : Table κ ν) (k : κ) (v : ν) :
    (T.insert k v).get? k = some v := by simp [insert]

theorem get?_insert_ne (T : Table κ ν) {k k' : κ} (v : ν) (h : k' ≠ k) :
    (T.insert k v).get? k' = T.get? k' := by simp [insert, h]

theorem get?_ofKeys (ks : List κ) (f : κ → ν) (k : κ) :
    (ofKeys ks f).get? k = if k ∈ ks then some (f k) else none := rfl

omit [DecidableEq κ] in
/-- Two tables with the same keys and the same lookup are equal. -/
theorem ext {T T' : Table κ ν} (hk : T.keys = T'.keys) (hg : ∀ k, T.get? k = T'.get? k) :
    T = T' := by
  cases T with
  | mk ks g _ _ =>
    cases T' with
    | mk ks' g' _ _ =>
      obtain rfl : ks = ks' := hk
      obtain rfl : g = g' := funext hg
      rfl

theorem modify_eq_self (T : Table κ ν) (k : κ) (f : ν → ν) (h : ∀ v, T.get? k = some v → f v = v) :
    T.modify k f = T := by
  refine ext rfl fun k' => ?_
  rw [get?_modify]
  split_ifs with hk
  · subst hk
    cases hv : T.get? k' with
    | none => rfl
    | some v => simp [h v hv]
  · rfl

/-- Changes of different entries commute. -/
theorem modify_comm (T : Table κ ν) {k k' : κ} (h : k ≠ k') (f g : ν → ν) :
    (T.modify k f).modify k' g = (T.modify k' g).modify k f := by
  refine ext rfl fun i => ?_
  simp only [get?_modify]
  by_cases hi : i = k
  · subst hi
    simp [h]
  · by_cases hi' : i = k'
    · subst hi'
      simp [hi]
    · simp [hi, hi']

/-! ## Counting -/

/-- What an entry contributes to a count. -/
def ind (P : ν → Bool) (v : Option ν) : ℕ := if v.any P then 1 else 0

@[simp] theorem ind_none (P : ν → Bool) : ind P none = 0 := rfl

@[simp] theorem ind_some (P : ν → Bool) (v : ν) : ind P (some v) = if P v then 1 else 0 := rfl

omit [DecidableEq κ] in
/-- Counting over a duplicate-free list, when a predicate changes at one member only. -/
theorem countP_update {l : List κ} (hl : l.Nodup) {p q : κ → Bool} {k : κ} (hk : k ∈ l)
    (hpq : ∀ k', k' ≠ k → p k' = q k') :
    l.countP p + (if q k then 1 else 0) = l.countP q + (if p k then 1 else 0) := by
  induction l with
  | nil => simp at hk
  | cons a l ih =>
    obtain ⟨ha, hl⟩ := List.nodup_cons.1 hl
    rw [List.countP_cons, List.countP_cons]
    rcases List.mem_cons.1 hk with rfl | hk
    · have : l.countP p = l.countP q :=
        List.countP_congr fun x hx => by rw [hpq x fun h => ha (h ▸ hx)]
      omega
    · have := ih hl hk
      rw [hpq a fun h => ha (h ▸ hk)]
      omega

theorem count_insert (T : Table κ ν) (k : κ) (v : ν) (P : ν → Bool) :
    (T.insert k v).count P + ind P (T.get? k) = T.count P + ind P (some v) := by
  have hne : ∀ k', k' ≠ k → ((T.insert k v).get? k').any P = (T.get? k').any P :=
    fun k' hne => by rw [get?_insert_ne T v hne]
  simp only [count, ind]
  by_cases hk : k ∈ T.keys
  · rw [show (T.insert k v).keys = T.keys from if_pos hk]
    have key := countP_update T.nodup hk hne
    rwa [get?_insert_self] at key
  · have hn : T.get? k = none := by simpa [T.mem_keys] using hk
    have hc : T.keys.countP (fun k' => ((T.insert k v).get? k').any P) =
        T.keys.countP fun k' => (T.get? k').any P :=
      List.countP_congr fun x hx => by rw [hne x fun he => hk (he ▸ hx)]
    rw [show (T.insert k v).keys = T.keys ++ [k] from if_neg hk, List.countP_append, hc, hn]
    simp

omit [DecidableEq κ] in
/-- Counts add up when the contributions of every value do. -/
theorem count_add_count (T : Table κ ν) {P Q P' Q' : ν → Bool}
    (h : ∀ v, ind P (some v) + ind Q (some v) = ind P' (some v) + ind Q' (some v)) :
    T.count P + T.count Q = T.count P' + T.count Q' := by
  have h' : ∀ o : Option ν, ind P o + ind Q o = ind P' o + ind Q' o
    | none => rfl
    | some v => h v
  unfold count
  induction T.keys with
  | nil => rfl
  | cons k ks ih =>
    have hk := h' (T.get? k)
    simp only [ind] at hk
    simp only [List.countP_cons]
    omega

/-! ## Tables of numbers -/

/-- The sum of the values. -/
def total (T : Table κ ℕ) : ℕ := (T.entries.map (·.2)).sum

omit [DecidableEq κ] in
theorem total_eq (T : Table κ ℕ) : T.total = (T.keys.map fun k => (T.get? k).getD 0).sum := by
  unfold total entries
  induction T.keys with
  | nil => rfl
  | cons k ks ih =>
    rw [List.filterMap_cons, List.map_cons, List.sum_cons, ← ih]
    cases T.get? k <;> simp

omit [DecidableEq κ] in
/-- Summing over a duplicate-free list, when a summand changes at one member only. -/
theorem sum_update {l : List κ} (hl : l.Nodup) {f g : κ → ℕ} {k : κ} (hk : k ∈ l)
    (hfg : ∀ k', k' ≠ k → f k' = g k') : (l.map f).sum + g k = (l.map g).sum + f k := by
  induction l with
  | nil => simp at hk
  | cons a l ih =>
    obtain ⟨ha, hl⟩ := List.nodup_cons.1 hl
    rw [List.map_cons, List.map_cons, List.sum_cons, List.sum_cons]
    rcases List.mem_cons.1 hk with rfl | hk
    · have : l.map f = l.map g := List.map_congr_left fun x hx => hfg x fun h => ha (h ▸ hx)
      rw [this]
      omega
    · have := ih hl hk
      rw [hfg a fun h => ha (h ▸ hk)]
      omega

theorem total_insert (T : Table κ ℕ) (k : κ) (v : ℕ) :
    (T.insert k v).total + (T.get? k).getD 0 = T.total + v := by
  have hne : ∀ k', k' ≠ k → ((T.insert k v).get? k').getD 0 = (T.get? k').getD 0 :=
    fun k' hne => by rw [get?_insert_ne T v hne]
  rw [total_eq, total_eq]
  by_cases hk : k ∈ T.keys
  · rw [show (T.insert k v).keys = T.keys from if_pos hk]
    have key := sum_update T.nodup hk hne
    rwa [get?_insert_self] at key
  · have hn : T.get? k = none := by simpa [T.mem_keys] using hk
    have hmap : T.keys.map (fun k' => ((T.insert k v).get? k').getD 0) =
        T.keys.map fun k' => (T.get? k').getD 0 :=
      List.map_congr_left fun x hx => hne x fun he => hk (he ▸ hx)
    rw [show (T.insert k v).keys = T.keys ++ [k] from if_neg hk, List.map_append, List.sum_append,
      hmap, hn]
    simp

end Table

end Lib
