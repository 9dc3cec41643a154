/-
  Runs of partial step functions.

  `Runs step ok s₀ s`: the state `s` is reached from `s₀` by steps each of which
  meets the guard `ok` in the state where it is taken.  With the guard
  `fun _ _ => True` these are all runs.  `Runs.invariant` is the induction rule
  every safety result uses; `Runs.invariant₂` is the same with an invariant that
  is already known of every reachable state.
-/
import Mathlib.Data.List.Induction
import Mathlib.Tactic.SplitIfs

namespace Lib

universe u v
variable {σ : Type u} {ε : Type v}

/-- The states reached from `s₀` by steps that meet the guard `ok`. -/
inductive Runs (step : σ → ε → Option σ) (ok : σ → ε → Prop) (s₀ : σ) : σ → Prop
  | refl : Runs step ok s₀ s₀
  | tail {s s' : σ} {e : ε} : Runs step ok s₀ s → ok s e → step s e = some s' →
      Runs step ok s₀ s'

namespace Runs

variable {step : σ → ε → Option σ} {ok ok' : σ → ε → Prop} {s₀ s₁ s : σ}

/-- **Invariants.** What holds initially and is kept by every guarded step holds of every state
    reached. -/
theorem invariant {I : σ → Prop} (h : Runs step ok s₀ s) (h₀ : I s₀)
    (hs : ∀ s e s', I s → ok s e → step s e = some s' → I s') : I s := by
  induction h with
  | refl => exact h₀
  | tail _ ho he ih => exact hs _ _ _ ih ho he

/-- Invariants kept with the help of an invariant `J` known before. -/
theorem invariant₂ {I J : σ → Prop} (h : Runs step ok s₀ s) (h₀ : I s₀)
    (hJ : ∀ s, Runs step ok s₀ s → J s)
    (hs : ∀ s e s', J s → I s → ok s e → step s e = some s' → I s') : I s := by
  induction h with
  | refl => exact h₀
  | tail hr ho he ih => exact hs _ _ _ (hJ _ hr) ih ho he

/-- A weaker guard allows more runs. -/
theorem mono (hok : ∀ s e, ok s e → ok' s e) (h : Runs step ok s₀ s) : Runs step ok' s₀ s := by
  induction h with
  | refl => exact .refl
  | tail _ ho he ih => exact .tail ih (hok _ _ ho) he

theorem trans (h₁ : Runs step ok s₀ s₁) (h₂ : Runs step ok s₁ s) : Runs step ok s₀ s := by
  induction h₂ with
  | refl => exact h₁
  | tail _ ho he ih => exact .tail ih ho he

end Runs

/-- Execute a list of steps. -/
def exec (step : σ → ε → Option σ) : σ → List ε → Option σ
  | s, [] => some s
  | s, e :: es => (step s e).bind fun s' => exec step s' es

theorem exec_append (step : σ → ε → Option σ) (s : σ) (es es' : List ε) :
    exec step s (es ++ es') = (exec step s es).bind (exec step · es') := by
  induction es generalizing s with
  | nil => rfl
  | cons e es ih => simp only [List.cons_append, exec, ih, Option.bind_assoc]

/-- The last step of an execution. -/
theorem exec_concat (step : σ → ε → Option σ) (s : σ) (es : List ε) (e : ε) :
    exec step s (es ++ [e]) = (exec step s es).bind (step · e) := by
  induction es generalizing s with
  | nil => simp [exec]
  | cons e' es ih => simp only [List.cons_append, exec, ih, Option.bind_assoc]

/-- **Histories.** What holds of no steps and is kept by one more step holds of every execution,
    of the steps together with the state they end in. -/
theorem exec_rule {step : σ → ε → Option σ} {s₀ : σ} {I : List ε → σ → Prop} (h₀ : I [] s₀)
    (hs : ∀ es s e s', exec step s₀ es = some s → I es s → step s e = some s' → I (es ++ [e]) s')
    {es : List ε} {s : σ} (h : exec step s₀ es = some s) : I es s := by
  induction es using List.reverseRecOn generalizing s with
  | nil => exact Option.some.inj h ▸ h₀
  | append_singleton es e ih =>
    rw [exec_concat] at h
    obtain ⟨s', hs', he⟩ := Option.bind_eq_some_iff.1 h
    exact hs _ _ _ _ hs' (ih hs') he

/-- **Bounded work.**  When the steps of `mine` lower a rank and the others do not raise it, an
    execution has no more of the former than the rank it starts with. -/
theorem exec_countP_le {step : σ → ε → Option σ} {J : σ → Prop} {mine : ε → Bool} {rank : σ → ℕ}
    (hJ : ∀ s e s', J s → step s e = some s' → J s')
    (hmine : ∀ s e s', J s → mine e → step s e = some s' → rank s' < rank s)
    (hother : ∀ s e s', J s → step s e = some s' → rank s' ≤ rank s)
    {es : List ε} {s s' : σ} (h : exec step s es = some s') (hs : J s) :
    es.countP mine + rank s' ≤ rank s := by
  induction es generalizing s with
  | nil =>
    obtain rfl := Option.some.inj h
    show 0 + rank s ≤ rank s
    omega
  | cons e es ih =>
    obtain ⟨s₁, he, hrest⟩ := Option.bind_eq_some_iff.1 h
    have hle := ih hrest (hJ _ _ _ hs he)
    rw [List.countP_cons]
    split_ifs with hm
    · have hlt := hmine _ _ _ hs hm he
      omega
    · have := hother _ _ _ hs he
      omega

/-- **Simulation.**  A relation that the steps of `ok` keep is kept by the executions made of
    them. -/
theorem exec_simulates {τ : Type*} {step : σ → ε → Option σ} {step' : τ → ε → Option τ}
    {R : σ → τ → Prop} {ok : ε → Prop}
    (hstep : ∀ s t e s', R s t → ok e → step s e = some s' → ∃ t', step' t e = some t' ∧ R s' t')
    {es : List ε} {s s' : σ} {t : τ} (hok : ∀ e ∈ es, ok e) (h : R s t)
    (hs : exec step s es = some s') : ∃ t', exec step' t es = some t' ∧ R s' t' := by
  induction es generalizing s t with
  | nil => exact ⟨t, rfl, Option.some.inj hs ▸ h⟩
  | cons e es ih =>
    obtain ⟨s₁, he, hrest⟩ := Option.bind_eq_some_iff.1 hs
    obtain ⟨t₁, he', h₁⟩ := hstep _ _ _ _ h (hok e (List.mem_cons_self ..)) he
    obtain ⟨t', hrest', h'⟩ := ih (fun e' he' => hok e' (List.mem_cons_of_mem _ he')) h₁ hrest
    exact ⟨t', Option.bind_eq_some_iff.2 ⟨t₁, he', hrest'⟩, h'⟩

/-- The step function with a guard that can be computed. -/
def guarded (step : σ → ε → Option σ) (ok : σ → ε → Prop) [∀ s e, Decidable (ok s e)] (s : σ)
    (e : ε) : Option σ :=
  if ok s e then step s e else none

/-- What a guarded execution does, the unguarded one does too. -/
theorem exec_of_guarded {step : σ → ε → Option σ} {ok : σ → ε → Prop} [∀ s e, Decidable (ok s e)]
    {es : List ε} {s s' : σ} (h : exec (guarded step ok) s es = some s') :
    exec step s es = some s' := by
  induction es generalizing s with
  | nil => exact h
  | cons e es ih =>
    obtain ⟨s₁, he, hrest⟩ := Option.bind_eq_some_iff.1 h
    unfold guarded at he
    split_ifs at he
    exact Option.bind_eq_some_iff.2 ⟨s₁, he, ih hrest⟩

/-- The execution of `es` from `s₀` passes through the state `s`. -/
def Visits (step : σ → ε → Option σ) (s₀ : σ) (es : List ε) (s : σ) : Prop :=
  ∃ es₁ es₂, es = es₁ ++ es₂ ∧ exec step s₀ es₁ = some s

/-- An execution is a run. -/
theorem Runs.of_exec {step : σ → ε → Option σ} {s₀ : σ} :
    ∀ {es : List ε} {s s' : σ}, Runs step (fun _ _ => True) s₀ s →
      exec step s es = some s' → Runs step (fun _ _ => True) s₀ s'
  | [], s, s', h, he => by simp only [exec, Option.some.injEq] at he; exact he ▸ h
  | e :: es, s, s', h, he => by
    simp only [exec, Option.bind_eq_some_iff] at he
    obtain ⟨s₁, h₁, h₂⟩ := he
    exact Runs.of_exec (.tail h trivial h₁) h₂

/-- A run of the guarded step function is a run whose steps meet the guard. -/
theorem Runs.of_guarded {step : σ → ε → Option σ} {ok : σ → ε → Prop}
    [∀ s e, Decidable (ok s e)] {s₀ s : σ} (h : Runs (guarded step ok) (fun _ _ => True) s₀ s) :
    Runs step ok s₀ s := by
  induction h with
  | refl => exact .refl
  | tail _ _ he ih =>
    unfold guarded at he
    split_ifs at he with hok
    exact .tail ih hok he

/-- An execution of steps of `ok` is a run of them. -/
theorem Runs.of_forall {step : σ → ε → Option σ} {ok : ε → Prop} :
    ∀ {es : List ε} {s s' : σ}, exec step s es = some s' → (∀ e ∈ es, ok e) →
      Runs step (fun _ e => ok e) s s'
  | [], s, s', he, _ => by simp only [exec, Option.some.injEq] at he; exact he ▸ .refl
  | e :: es, s, s', he, hok => by
    obtain ⟨s₁, h₁, h₂⟩ := Option.bind_eq_some_iff.1 he
    exact (Runs.tail .refl (hok e (List.mem_cons_self ..)) h₁).trans
      (Runs.of_forall h₂ fun e' he' => hok e' (List.mem_cons_of_mem _ he'))

/-- Every step of an execution from `s` meets the guard. -/
def Obeys (step : σ → ε → Option σ) (ok : σ → ε → Prop) : σ → List ε → Prop
  | _, [] => True
  | s, e :: es => ok s e ∧ ∀ s', step s e = some s' → Obeys step ok s' es

/-- An execution whose steps meet the guard is a guarded run. -/
theorem Runs.of_obeys {step : σ → ε → Option σ} {ok : σ → ε → Prop} :
    ∀ {es : List ε} {s s' : σ}, exec step s es = some s' → Obeys step ok s es → Runs step ok s s'
  | [], s, s', he, _ => by simp only [exec, Option.some.injEq] at he; exact he ▸ .refl
  | e :: es, s, s', he, ⟨hok, hobeys⟩ => by
    simp only [exec, Option.bind_eq_some_iff] at he
    obtain ⟨s₁, h₁, h₂⟩ := he
    exact (Runs.tail .refl hok h₁).trans (Runs.of_obeys h₂ (hobeys s₁ h₁))

instance Obeys.decidable (step : σ → ε → Option σ) (ok : σ → ε → Prop)
    [∀ s e, Decidable (ok s e)] : (s : σ) → (es : List ε) → Decidable (Obeys step ok s es)
  | _, [] => isTrue trivial
  | s, e :: es =>
    have : Decidable (∀ s', step s e = some s' → Obeys step ok s' es) :=
      match h : step s e with
      | none => isTrue fun s' hs => by simp at hs
      | some s' =>
        have := Obeys.decidable step ok s' es
        decidable_of_iff (Obeys step ok s' es) (by simp)
    inferInstanceAs (Decidable (ok s e ∧ ∀ s', step s e = some s' → Obeys step ok s' es))

/-- A computed property of the state an execution ends in. -/
theorem exists_of_exec_any (step : σ → ε → Option σ) (s : σ) (es : List ε) (p : σ → Bool)
    (h : (exec step s es).any p) : ∃ s', exec step s es = some s' ∧ p s' := by
  cases he : exec step s es with
  | none => simp [he] at h
  | some s' => exact ⟨s', rfl, by simpa [he] using h⟩

end Lib
