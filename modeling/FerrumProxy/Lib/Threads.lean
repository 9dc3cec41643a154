/-
  Threads that share a state.

  A pool is a shared state together with the program point of each thread.  A call
  starts a new thread at its entry; an action is one access of one thread to the
  shared state, and is undefined while the thread has to wait.  The environment
  decides who goes next.

  Three rules lead from single actions to whole runs: what every action keeps of the
  shared state (`shared_invariant`), what a thread knows at its program point and no other
  thread spoils (`each`), and what holds unless some thread is about to restore it
  (`someone`).
-/
import FerrumProxy.Lib.Runs
import FerrumProxy.Lib.Table

namespace Lib

universe u v w x

/-- A shared state and the program point of each thread. -/
structure Pool (σ : Type u) (π : Type v) where
  shared : σ
  points : Table ℕ π

namespace Pool

variable {σ : Type u} {π : Type v} {κ : Type w} {ι : Type x}

/-- A call is made, or a thread takes its next action. -/
inductive Event (κ : Type w) (ι : Type x) where
  | start (id : ℕ) (call : κ)
  | act (id : ℕ) (input : ι)

/-- One step of one thread. -/
def step (enter : κ → π) (action : ι → σ → π → Option (σ × π)) (s : Pool σ π) :
    Event κ ι → Option (Pool σ π)
  | .start id call =>
    if s.points.get? id = none then some { s with points := s.points.insert id (enter call) }
    else none
  | .act id input => (s.points.get? id).bind fun p => (action input s.shared p).map fun r =>
      ⟨r.1, s.points.insert id r.2⟩

/-- Some thread is at a program point of `A`. -/
def Some (A : π → Prop) (s : Pool σ π) : Prop := ∃ id p, s.points.get? id = some p ∧ A p

section
variable {enter : κ → π} {action : ι → σ → π → Option (σ × π)} {s s' : Pool σ π}
  {e : Event κ ι}

/-- **What a step can do.** -/
theorem step_cases (h : step enter action s e = some s') :
    (∃ id call, e = .start id call ∧ s.points.get? id = none ∧
      s' = { s with points := s.points.insert id (enter call) }) ∨
    ∃ id input p g q, e = .act id input ∧ s.points.get? id = some p ∧
      action input s.shared p = some (g, q) ∧ s' = ⟨g, s.points.insert id q⟩ := by
  cases e with
  | start id call =>
    obtain ⟨hnone, he⟩ := Option.ite_none_right_eq_some.1 h
    exact Or.inl ⟨id, call, rfl, hnone, (Option.some.inj he).symm⟩
  | act id input =>
    obtain ⟨p, hp, hmap⟩ := Option.bind_eq_some_iff.1 h
    obtain ⟨⟨g, q⟩, hact, he⟩ := Option.map_eq_some_iff.1 hmap
    exact Or.inr ⟨id, input, p, g, q, rfl, hp, hact, he.symm⟩

/-- A thread at a program point of `A` stays there while another one moves. -/
theorem Some.other {A : π → Prop} {id : ℕ} {q : π} {g : σ}
    (h : ∃ id' p, id' ≠ id ∧ s.points.get? id' = some p ∧ A p) :
    (⟨g, s.points.insert id q⟩ : Pool σ π).Some A := by
  obtain ⟨id', p, hne, hp, ha⟩ := h
  exact ⟨id', p, by rwa [Table.get?_insert_ne _ _ hne], ha⟩

theorem Some.self {A : π → Prop} {id : ℕ} {q : π} {g : σ} (h : A q) :
    (⟨g, s.points.insert id q⟩ : Pool σ π).Some A := ⟨id, q, Table.get?_insert_self .., h⟩

variable {ok : Pool σ π → Event κ ι → Prop} {s₀ : Pool σ π}

/-- **Shared invariants.** What every action keeps. -/
theorem shared_invariant {I : σ → Prop} (h : Runs (step enter action) ok s₀ s) (h₀ : I s₀.shared)
    (hact : ∀ input g p g' p', action input g p = some (g', p') → I g → I g') : I s.shared := by
  refine h.invariant (I := fun s : Pool σ π => I s.shared) h₀ fun s e s' hI _ hs => ?_
  rcases step_cases hs with ⟨id, call, -, -, rfl⟩ | ⟨id, input, p, g, q, -, -, hact', rfl⟩
  · exact hI
  · exact hact _ _ _ _ _ hact' hI

/-- **Assertions of a thread.** What holds at the entry, is carried from point to point, and is not
    spoiled by the actions of the others. -/
theorem each {A : ℕ → π → σ → Prop} (h : Runs (step enter action) ok s₀ s)
    (h₀ : ∀ id p, s₀.points.get? id = some p → A id p s₀.shared)
    (henter : ∀ s id call, ok s (.start id call) → A id (enter call) s.shared)
    (hown : ∀ id input g p g' p', action input g p = some (g', p') → A id p g → A id p' g')
    (hother : ∀ id q input g p g' p', action input g p = some (g', p') → A id q g → A id q g') :
    ∀ id p, s.points.get? id = some p → A id p s.shared := by
  refine h.invariant (I := fun s : Pool σ π => ∀ id p, s.points.get? id = some p → A id p s.shared)
    h₀ fun s e s' hI hok hs => ?_
  intro id p hp
  rcases step_cases hs with ⟨id', call, rfl, -, rfl⟩ | ⟨id', input, p', g, q, -, hp', hact, rfl⟩
  · by_cases hid : id = id'
    · subst hid
      rw [Table.get?_insert_self, Option.some.injEq] at hp
      exact hp ▸ henter s id call hok
    · exact hI id p (by rwa [Table.get?_insert_ne _ _ hid] at hp)
  · by_cases hid : id = id'
    · subst hid
      rw [Table.get?_insert_self, Option.some.injEq] at hp
      exact hp ▸ hown id input _ _ _ _ hact (hI id p' hp')
    · rw [Table.get?_insert_ne _ _ hid] at hp
      exact hother id p input _ _ _ _ hact (hI id p hp)

/-- **Obligations.** `G` holds, or some thread is at a point of `A` and about to restore it: an
    action that starts with `G` or at a point of `A` ends with `G`, at a point of `A`, or leaves
    another thread there. -/
theorem someone {G J : Pool σ π → Prop} {A : π → Prop}
    (h : Runs (step enter action) ok s₀ s) (h₀ : G s₀ ∨ s₀.Some A)
    (hJ : ∀ s, Runs (step enter action) ok s₀ s → J s)
    (henter : ∀ s id call, ok s (.start id call) → s.points.get? id = none → G s →
      G { s with points := s.points.insert id (enter call) })
    (hact : ∀ s id input p g q, J s → s.points.get? id = some p →
      action input s.shared p = some (g, q) → G s ∨ A p →
      G ⟨g, s.points.insert id q⟩ ∨ A q ∨ ∃ id' p', id' ≠ id ∧ s.points.get? id' = some p' ∧ A p') :
    G s ∨ s.Some A := by
  refine Runs.invariant₂ (I := fun s : Pool σ π => G s ∨ s.Some A) h h₀ hJ
    fun s e s' hJs hI hok hs => ?_
  rcases step_cases hs with ⟨id, call, rfl, hnone, rfl⟩ | ⟨id, input, p, g, q, -, hp, hact', rfl⟩
  · rcases hI with hG | ⟨id', p, hp, ha⟩
    · exact Or.inl (henter s id call hok hnone hG)
    · have hne : id' ≠ id := by
        rintro rfl
        rw [hnone] at hp
        cases hp
      exact Or.inr (Some.other ⟨id', p, hne, hp, ha⟩)
  · by_cases hmine : G s ∨ A p
    · rcases hact s id input p g q hJs hp hact' hmine with hG | ha | hother
      · exact Or.inl hG
      · exact Or.inr (Some.self ha)
      · exact Or.inr (Some.other hother)
    · -- the obligation is another thread's
      obtain ⟨id', p', hp', ha⟩ := hI.resolve_left fun hG => hmine (Or.inl hG)
      have hne : id' ≠ id := by
        rintro rfl
        rw [hp, Option.some.injEq] at hp'
        exact hmine (Or.inr (hp' ▸ ha))
      exact Or.inr (Some.other ⟨id', p', hne, hp', ha⟩)

end

/-! ## A thread by itself -/

/-- The actions of one thread, one after the other, with the same input. -/
def iterate (action : ι → σ → π → Option (σ × π)) (input : ι) : ℕ → σ → π → Option (σ × π)
  | 0, g, p => some (g, p)
  | n + 1, g, p => (action input g p).bind fun r => iterate action input n r.1 r.2

theorem iterate_trans {action : ι → σ → π → Option (σ × π)} {input : ι} {n m : ℕ} {g g₁ : σ}
    {p p₁ : π} (h : iterate action input n g p = some (g₁, p₁)) :
    iterate action input (n + m) g p = iterate action input m g₁ p₁ := by
  induction n generalizing g p with
  | zero =>
    obtain ⟨rfl, rfl⟩ := Prod.mk.inj (Option.some.inj h)
    rw [Nat.zero_add]
  | succ n ih =>
    obtain ⟨⟨g₂, p₂⟩, hact, hrest⟩ := Option.bind_eq_some_iff.1 h
    rw [Nat.add_right_comm, iterate, hact, Option.bind_some, ih hrest]

/-- A thread that goes on while the others do not. -/
theorem exec_alone (enter : κ → π) {action : ι → σ → π → Option (σ × π)} {s : Pool σ π} {id n : ℕ}
    {input : ι} {p q : π} {g : σ} (hp : s.points.get? id = some p)
    (hrun : iterate action input n s.shared p = some (g, q)) :
    ∃ s', exec (step enter action) s (List.replicate n (.act id input)) = some s' ∧
      s'.shared = g ∧ s'.points.get? id = some q ∧
      ∀ id', id' ≠ id → s'.points.get? id' = s.points.get? id' := by
  induction n generalizing s p with
  | zero =>
    obtain ⟨rfl, rfl⟩ := Prod.mk.inj (Option.some.inj hrun)
    exact ⟨s, rfl, rfl, hp, fun _ _ => rfl⟩
  | succ n ih =>
    obtain ⟨⟨g₁, p₁⟩, hact, hrest⟩ := Option.bind_eq_some_iff.1 hrun
    have hstep : step enter action s (.act id input) = some ⟨g₁, s.points.insert id p₁⟩ := by
      simp [step, hp, hact]
    obtain ⟨s', hs', hg, hq, hothers⟩ := ih (s := ⟨g₁, s.points.insert id p₁⟩)
      (Table.get?_insert_self ..) hrest
    refine ⟨s', ?_, hg, hq, fun id' hne => ?_⟩
    · rw [List.replicate_succ, exec, hstep]
      exact hs'
    · rw [hothers id' hne]
      exact Table.get?_insert_ne _ _ hne

/-! ## How long the threads go on -/

/-- The steps that the threads have left, by a rank of the program points. -/
def remaining (rank : π → ℕ) (s : Pool σ π) : ℕ :=
  (s.points.keys.map fun id => (s.points.get? id).elim 0 rank).sum

theorem remaining_act (rank : π → ℕ) {s : Pool σ π} {id : ℕ} {p q : π} {g : σ}
    (hp : s.points.get? id = some p) :
    remaining rank ⟨g, s.points.insert id q⟩ + rank p = remaining rank s + rank q := by
  have hid : id ∈ s.points.keys := (s.points.mem_keys id).2 (by simp [hp])
  have hne : ∀ id', id' ≠ id → ((s.points.insert id q).get? id').elim 0 rank =
      (s.points.get? id').elim 0 rank := fun id' hne => by rw [Table.get?_insert_ne _ _ hne]
  have hsum := Table.sum_update s.points.nodup hid hne
  rw [Table.get?_insert_self, hp] at hsum
  unfold remaining
  rwa [show (s.points.insert id q).keys = s.points.keys from if_pos hid]

/-- When every action lowers the rank of its thread, the threads come to an end. -/
theorem exec_length_le {enter : κ → π} {action : ι → σ → π → Option (σ × π)} {rank : π → ℕ}
    (hrank : ∀ input g p g' q, action input g p = some (g', q) → rank q < rank p) :
    ∀ {es : List (Event κ ι)} {s s' : Pool σ π}, (∀ e ∈ es, ∃ id input, e = .act id input) →
      exec (step enter action) s es = some s' → es.length ≤ remaining rank s
  | [], _, _, _, _ => Nat.zero_le _
  | e :: es, s, s', hacts, hexec => by
    obtain ⟨s₁, hstep, hrest⟩ := Option.bind_eq_some_iff.1 hexec
    have ih := exec_length_le hrank (fun e he => hacts e (List.mem_cons_of_mem _ he)) hrest
    obtain ⟨id, input, rfl⟩ := hacts e (List.mem_cons_self ..)
    rcases step_cases hstep with ⟨_, _, he, -, -⟩ | ⟨id', input', p, g, q, -, hp, hact, rfl⟩
    · cases he
    · have hlt := hrank _ _ _ _ _ hact
      have hrem := remaining_act rank (q := q) (g := g) hp
      rw [List.length_cons]
      omega

end Pool

end Lib
