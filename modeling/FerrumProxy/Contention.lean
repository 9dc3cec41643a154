/-
  Failures that are counted at the same time.

  `record_failure` adds to `consecutive_failures` and then decides on the number it
  read there, while other calls add to it, store zero and store `healthy`.  No order
  of these accesses loses an ejection or makes one up: when only failures have been
  recorded, and all calls have returned, the backend has been ejected iff at least
  `failure_threshold` of them were made (`ejected_iff_threshold`).

  That it is not lost rests on three obligations, each taken over by another call or
  carried out: `healthy` is stored before the ejection (`healthy_or_ejecting`), the
  threshold has been read by some call (`below_or_deciding`), and the counter is the number
  of additions (`counted_or_ejecting`).
-/
import FerrumProxy.Overlapping

namespace FerrumProxy

open Lib

namespace Atomics

/-- Runs in which no success is recorded. -/
def FailuresOnly (S : Settings) (s : Pool Cell Point) : Prop :=
  Runs (step S) (fun _ e => ∀ id, e ≠ .start id .recordSuccess) initial s

instance (e : Pool.Event Call ℕ) : Decidable (∀ id, e ≠ .start id .recordSuccess) :=
  match e with
  | .start id .recordSuccess => isFalse fun h => h id rfl
  | .start _ .recordFailure => isTrue (by simp)
  | .start _ (.query _) => isTrue (by simp)
  | .act _ _ => isTrue (by simp)

/-- The backend has been ejected. -/
def Ejected (c : Cell) : Prop := ∃ t, (t, .ejected) ∈ c.log

/-- A call of `record_failure`. -/
def Failing : Point → Bool
  | .failure _ | .returned none => true
  | _ => false

/-- The failure has been added to the counter. -/
def Counted : Point → Bool
  | .failure (.healthy _) | .failure .fail | .failure .failed | .failure .eject
  | .returned none => true
  | _ => false

/-- `healthy` is false, and the ejection follows. -/
def Ejecting : Point → Bool
  | .failure .failed | .failure .eject => true
  | _ => false

/-- The call has read a number that reaches the threshold, and has not ejected yet. -/
def Deciding (S : Settings) : Point → Bool
  | .failure (.healthy n) => S.failureThreshold ≤ n
  | .failure .fail | .failure .failed | .failure .eject => true
  | _ => false

variable {S : Settings} {t : ℕ} {c c' : Cell} {p q : Point} {s : Pool Cell Point}

theorem Ejected.action (h : action S t c p = some (c', q)) (he : Ejected c) : Ejected c' :=
  he.imp fun _ hmem => log_action h hmem

theorem Ejected.write (c : Cell) : Ejected (c.write .ejected) := ⟨c.now, by simp [Cell.write]⟩

/-- No call of `record_success` is in progress. -/
theorem FailuresOnly.no_success (h : FailuresOnly S s) {id : ℕ} {p₀ : SuccessPoint} :
    s.points.get? id ≠ some (.success p₀) := by
  refine fun hp => Pool.each (A := fun _ (p : Point) _ => ∀ p₀, p ≠ .success p₀) h
    (by simp [initial, Table.empty]) ?_ ?_ (fun _ _ _ _ _ _ _ _ hq => hq) id _ hp p₀ rfl
  · intro s id call hok p₀
    cases call with
    | recordSuccess => exact absurd rfl (hok id)
    | _ => simp [enter]
  · intro id t c p c' q hact hp p₁
    obtain ⟨-, ⟨p₀, rfl, -⟩ | ⟨p₀, rfl, hf⟩ | ⟨q₀, p₀, rfl, hq⟩⟩ := action_cases hact
    · exact absurd rfl (hp p₀)
    · rcases recordFailure_point hf with ⟨p', rfl⟩ | rfl <;> simp
    · rcases query_point hq with ⟨p', rfl⟩ | ⟨a, rfl⟩ <;> simp

/-- A query leaves `healthy` and the counter alone. -/
theorem query_frame {q₀ : Query} {p₀ : QueryPoint} (h : query q₀ c p₀ = some (c', q)) :
    c'.health.healthy = c.health.healthy ∧
      c'.health.consecutiveFailures = c.health.consecutiveFailures := by
  cases p₀ with
  | look =>
    obtain ⟨-, ⟨till, -, -, rfl, -⟩ | ⟨till, -, -, rfl, -⟩ | ⟨-, rfl, -⟩⟩ := look_cases h <;>
      exact ⟨rfl, rfl⟩
  | _ =>
    obtain ⟨rfl, -⟩ := Prod.mk.inj (Option.some.inj h)
    exact ⟨rfl, rfl⟩

/-! ## No ejection is lost -/

theorem healthy_action (h : action S t c p = some (c', q))
    (hk : (c.health.healthy ∨ Ejected c) ∨ Ejecting p) :
    (c'.health.healthy ∨ Ejected c') ∨ Ejecting q := by
  have hlog : Ejected c → Ejected c' := Ejected.action h
  obtain ⟨-, ⟨p₀, rfl, hs⟩ | ⟨p₀, rfl, hf⟩ | ⟨q₀, p₀, rfl, hq⟩⟩ := action_cases h
  · have hG := hk.resolve_right (by simp [Ejecting])
    cases p₀ with
    | restore | recover =>
      obtain ⟨rfl, -⟩ := Prod.mk.inj hs
      exact Or.inl (Or.inl rfl)
    | _ =>
      obtain ⟨rfl, -⟩ := Prod.mk.inj hs
      exact Or.inl (hG.imp_right hlog)
  · cases p₀ with
    | ejectAgain | eject =>
      obtain ⟨-, rfl, -⟩ := eject_cases hf
      exact Or.inl (Or.inr (Ejected.write _))
    | fail | failed =>
      obtain ⟨-, rfl⟩ := Prod.mk.inj (Option.some.inj hf)
      exact Or.inr rfl
    | _ =>
      have hG := hk.resolve_right (by simp [Ejecting])
      obtain ⟨rfl, -⟩ := Prod.mk.inj (Option.some.inj hf)
      exact Or.inl (hG.imp_right hlog)
  · have hG := hk.resolve_right (by simp [Ejecting])
    exact Or.inl (hG.imp (fun hh => (query_frame hq).1.trans hh) hlog)

/-- `healthy` is stored before the ejection. -/
theorem FailuresOnly.healthy_or_ejecting (h : FailuresOnly S s) :
    (s.shared.health.healthy ∨ Ejected s.shared) ∨ s.Some (Ejecting · = true) :=
  Pool.someone (G := fun s : Pool Cell Point => s.shared.health.healthy ∨ Ejected s.shared) h
    (Or.inl (Or.inl rfl)) (fun _ _ => trivial) (fun _ _ _ _ _ hG => hG)
    fun _ _ _ _ _ _ _ _ hact hk => (healthy_action hact hk).imp_right Or.inl

/-- What happens to the counter and to a call that has reached the threshold.  The decision may be
    another call's when `healthy` is false already. -/
theorem deciding_action (h : action S t c p = some (c', q)) (hp : ∀ p₀, p ≠ .success p₀)
    (hk : (c.health.consecutiveFailures < S.failureThreshold ∨ Ejected c) ∨ Deciding S p) :
    ((c'.health.consecutiveFailures < S.failureThreshold ∨ Ejected c') ∨ Deciding S q) ∨
      c.health.healthy = false ∧ Ejecting p = false := by
  have hlog : Ejected c → Ejected c' := Ejected.action h
  obtain ⟨-, ⟨p₀, rfl, hs⟩ | ⟨p₀, rfl, hf⟩ | ⟨q₀, p₀, rfl, hq⟩⟩ := action_cases h
  · exact absurd rfl (hp p₀)
  · cases p₀ with
    | ejectAgain | eject =>
      obtain ⟨-, rfl, -⟩ := eject_cases hf
      exact Or.inl (Or.inl (Or.inr (Ejected.write _)))
    | fail | failed =>
      obtain ⟨-, rfl⟩ := Prod.mk.inj (Option.some.inj hf)
      exact Or.inl (Or.inr rfl)
    | count =>
      obtain ⟨rfl, rfl⟩ := Prod.mk.inj (Option.some.inj hf)
      by_cases hle : S.failureThreshold ≤ c.health.consecutiveFailures + 1
      · exact Or.inl (Or.inr (decide_eq_true hle))
      · exact Or.inl (Or.inl (Or.inl (not_le.1 hle)))
    | healthy n =>
      obtain ⟨rfl, rfl⟩ := Prod.mk.inj (Option.some.inj hf)
      rcases hk with hk | hk
      · exact Or.inl (Or.inl (hk.imp_right hlog))
      · have hle : S.failureThreshold ≤ n := of_decide_eq_true hk
        cases hh : c.health.healthy with
        | false => exact Or.inr ⟨rfl, rfl⟩
        | true => exact Or.inl (Or.inr (by simp [hle, Deciding]))
    | _ =>
      have hG := hk.resolve_right (by simp [Deciding])
      obtain ⟨rfl, -⟩ := Prod.mk.inj (Option.some.inj hf)
      exact Or.inl (Or.inl (hG.imp_right hlog))
  · have hG := hk.resolve_right (by simp [Deciding])
    exact Or.inl (Or.inl (hG.imp (fun hlt => (query_frame hq).2.trans_lt hlt) hlog))

theorem deciding_of_ejecting (h : Ejecting p) : Deciding S p := by
  unfold Ejecting at h
  split at h
  · rfl
  · rfl
  · cases h

/-- Some call has read that the threshold is reached. -/
theorem FailuresOnly.below_or_deciding (hpos : 0 < S.failureThreshold) (h : FailuresOnly S s) :
    (s.shared.health.consecutiveFailures < S.failureThreshold ∨ Ejected s.shared) ∨
      s.Some (Deciding S · = true) := by
  refine Pool.someone (G := fun s : Pool Cell Point =>
    s.shared.health.consecutiveFailures < S.failureThreshold ∨ Ejected s.shared) h
    (Or.inl (Or.inl hpos)) (J := FailuresOnly S) (fun _ hr => hr) (fun _ _ _ _ _ hG => hG) ?_
  intro s id t p c' q hr hp hact hk
  have hnot : ∀ p₀, p ≠ .success p₀ := by
    rintro p₀ rfl
    exact hr.no_success hp
  rcases deciding_action hact hnot hk with (hG | hA) | ⟨hh, hmine⟩
  · exact Or.inl hG
  · exact Or.inr (Or.inl hA)
  · -- `healthy` is false already, so that another call is about to eject, or has ejected
    rcases hr.healthy_or_ejecting with (hh' | he) | ⟨id', p', hp', hA⟩
    · rw [hh] at hh'
      cases hh'
    · exact Or.inl (Or.inr (he.action hact))
    · refine Or.inr (Or.inr ⟨id', p', ?_, hp', deciding_of_ejecting hA⟩)
      rintro rfl
      rw [hp, Option.some.injEq] at hp'
      rw [← hp', hmine] at hA
      cases hA

/-- A call that has been counted stays so, and only the addition counts one. -/
theorem counted_action (h : action S t c p = some (c', q)) (hp : ∀ p₀, p ≠ .success p₀) :
    Counted q = (Counted p || p == .failure .count || p == .failure .ejectAgain) := by
  obtain ⟨-, ⟨p₀, rfl, hs⟩ | ⟨p₀, rfl, hf⟩ | ⟨q₀, p₀, rfl, hq⟩⟩ := action_cases h
  · exact absurd rfl (hp p₀)
  · cases p₀ with
    | ejectAgain | eject =>
      obtain ⟨-, -, rfl⟩ := eject_cases hf
      rfl
    | probing | healthy =>
      obtain ⟨-, rfl⟩ := Prod.mk.inj (Option.some.inj hf)
      split_ifs <;> rfl
    | _ =>
      obtain ⟨-, rfl⟩ := Prod.mk.inj (Option.some.inj hf)
      rfl
  · rcases query_point hq with ⟨p', rfl⟩ | ⟨a, rfl⟩ <;> rfl

theorem count_enter {P : Point → Bool} {id : ℕ} {call : Call} (hnone : s.points.get? id = none)
    (hP : P (enter call) = false) : (s.points.insert id (enter call)).count P = s.points.count P := by
  have := s.points.count_insert id (enter call) P
  simpa [hnone, hP] using this

theorem count_act {id : ℕ} (hp : s.points.get? id = some p) (hact : action S t s.shared p = some (c', q))
    (hnot : ∀ p₀, p ≠ .success p₀) : (s.points.insert id q).count Counted =
      s.points.count Counted + if p = .failure .count ∨ p = .failure .ejectAgain then 1 else 0 := by
  have hcount := s.points.count_insert id q Counted
  have hq := counted_action hact hnot
  rw [hp, Table.ind_some, Table.ind_some, hq] at hcount
  by_cases h : p = .failure .count ∨ p = .failure .ejectAgain
  · rcases h with rfl | rfl <;> simpa [Counted] using hcount
  · obtain ⟨h₁, h₂⟩ := not_or.1 h
    simpa [h₁, h₂] using hcount

/-- The counter is the number of calls that have added to it. -/
theorem FailuresOnly.counted_or_ejecting (h : FailuresOnly S s) :
    (s.shared.health.consecutiveFailures = s.points.count Counted ∨ Ejected s.shared) ∨
      s.Some (· = .failure .eject) := by
  refine Pool.someone (G := fun s : Pool Cell Point =>
    s.shared.health.consecutiveFailures = s.points.count Counted ∨ Ejected s.shared) h
    (Or.inl (Or.inl rfl)) (J := FailuresOnly S) (fun _ hr => hr) ?_ ?_
  · intro s id call _ hnone hG
    refine hG.imp_left fun he => he.trans (count_enter hnone ?_).symm
    cases call <;> rfl
  · intro s id t p c' q hr hp hact hk
    have hnot : ∀ p₀, p ≠ .success p₀ := by
      rintro p₀ rfl
      exact hr.no_success hp
    have hcount := count_act hp hact hnot
    have hlog : Ejected s.shared → Ejected c' := Ejected.action hact
    obtain ⟨-, ⟨p₀, rfl, hs⟩ | ⟨p₀, rfl, hf⟩ | ⟨q₀, p₀, rfl, hq⟩⟩ := action_cases hact
    · exact absurd rfl (hnot p₀)
    · cases p₀ with
      | ejectAgain | eject =>
        obtain ⟨-, rfl, -⟩ := eject_cases hf
        exact Or.inl (Or.inr (Ejected.write _))
      | failed =>
        obtain ⟨-, rfl⟩ := Prod.mk.inj (Option.some.inj hf)
        exact Or.inr (Or.inl rfl)
      | count =>
        have hG := hk.resolve_right (by simp)
        obtain ⟨rfl, -⟩ := Prod.mk.inj (Option.some.inj hf)
        refine Or.inl (hG.imp (fun he => ?_) hlog)
        rw [hcount, ← he]
        rfl
      | _ =>
        have hG := hk.resolve_right (by simp)
        obtain ⟨rfl, -⟩ := Prod.mk.inj (Option.some.inj hf)
        refine Or.inl (hG.imp (fun he => ?_) hlog)
        rw [hcount, ← he]
        rfl
    · have hG := hk.resolve_right (by simp)
      refine Or.inl (hG.imp (fun he => ?_) hlog)
      rw [hcount, ← he, (query_frame hq).2]
      rfl

/-! ## No ejection is made up -/

/-- What a call has seen is covered by the `n` failures that have been counted. -/
def Due (S : Settings) (n : ℕ) : Point → Prop
  | .failure (.healthy m) => m ≤ n
  | .failure .closeProbe | .failure .ejectAgain | .failure .fail | .failure .failed
  | .failure .eject | .query _ (.reopen _) => S.failureThreshold ≤ n
  | _ => True

theorem Due.mono {n n' : ℕ} (hle : n ≤ n') (h : Due S n p) : Due S n' p := by
  unfold Due at h ⊢
  split at h
  all_goals first | exact h.trans hle | trivial

/-- Whatever follows from an ejection needs the threshold, and the counter needs the additions. -/
structure Justified (S : Settings) (n : ℕ) (c : Cell) : Prop where
  counter : c.health.consecutiveFailures ≤ n
  ejected : Ejected c → S.failureThreshold ≤ n
  pending : c.health.ejectedUntil.isSome → S.failureThreshold ≤ n
  probing : c.health.probing → S.failureThreshold ≤ n

namespace Justified

variable {n n' : ℕ}

theorem mono (h : Justified S n c) (hle : n ≤ n') : Justified S n' c :=
  ⟨h.counter.trans hle, fun he => (h.ejected he).trans hle, fun hu => (h.pending hu).trans hle,
    fun hp => (h.probing hp).trans hle⟩

/-- Once the threshold is reached, only the counter matters. -/
theorem of_reached (hn : S.failureThreshold ≤ n) (hc : c.health.consecutiveFailures ≤ n) :
    Justified S n c := ⟨hc, fun _ => hn, fun _ => hn, fun _ => hn⟩

end Justified

theorem justified_failure {n n' : ℕ} {p₀ : FailurePoint} (h : recordFailure S c p₀ = some (c', q))
    (hj : Justified S n c) (hd : Due S n (.failure p₀)) (hle : n ≤ n')
    (hcount : p₀ = .count → n < n') : Justified S n' c' ∧ Due S n' q := by
  have hd' := hd.mono hle
  have hj' := hj.mono hle
  cases p₀ with
  | ejectAgain | eject =>
    obtain ⟨-, rfl, rfl⟩ := eject_cases h
    exact ⟨Justified.of_reached hd' hj'.counter, trivial⟩
  | closeProbe | fail =>
    obtain ⟨rfl, rfl⟩ := Prod.mk.inj (Option.some.inj h)
    exact ⟨Justified.of_reached hd' hj'.counter, hd'⟩
  | failed =>
    obtain ⟨rfl, rfl⟩ := Prod.mk.inj (Option.some.inj h)
    exact ⟨Justified.of_reached hd' (Nat.zero_le _), hd'⟩
  | count =>
    obtain ⟨rfl, rfl⟩ := Prod.mk.inj (Option.some.inj h)
    have hc : c.health.consecutiveFailures + 1 ≤ n' := hj.counter.trans_lt (hcount rfl)
    exact ⟨⟨hc, hj'.ejected, hj'.pending, hj'.probing⟩, hc⟩
  | start =>
    obtain ⟨rfl, rfl⟩ := Prod.mk.inj (Option.some.inj h)
    exact ⟨⟨hj'.counter, hj'.ejected, hj'.pending, hj'.probing⟩, trivial⟩
  | probing =>
    obtain ⟨rfl, rfl⟩ := Prod.mk.inj (Option.some.inj h)
    refine ⟨hj', ?_⟩
    split_ifs with hp
    · exact hj'.probing hp
    · trivial
  | healthy m =>
    obtain ⟨rfl, rfl⟩ := Prod.mk.inj (Option.some.inj h)
    refine ⟨hj', ?_⟩
    split_ifs with hp
    · have hm : S.failureThreshold ≤ m := by simp_all
      exact hm.trans hd'
    · trivial

theorem justified_query {n : ℕ} {q₀ : Query} {p₀ : QueryPoint} (h : query q₀ c p₀ = some (c', q))
    (hj : Justified S n c) (hd : Due S n (.query q₀ p₀)) : Justified S n c' ∧ Due S n q := by
  have hlooked : ∀ t ejected, Due S n (q₀.looked t ejected) := by
    intro t ejected
    cases q₀ <;> cases ejected <;> trivial
  have hlook : ∀ a, Justified S n (c.write (.looked a)) := by
    refine fun a => ⟨hj.counter, ?_, hj.pending, hj.probing⟩
    rintro ⟨t, hmem⟩
    exact hj.ejected ⟨t, by simpa [Cell.write] using hmem⟩
  cases p₀ with
  | look =>
    obtain ⟨-, ⟨till, -, -, rfl, rfl⟩ | ⟨till, hu, -, rfl, rfl⟩ | ⟨-, rfl, rfl⟩⟩ := look_cases h
    · exact ⟨hlook true, hlooked _ _⟩
    · have hn := hj.pending (by simp [hu])
      exact ⟨Justified.of_reached hn hj.counter, hn⟩
    · exact ⟨hlook false, hlooked _ _⟩
  | reopen t₀ =>
    obtain ⟨rfl, rfl⟩ := Prod.mk.inj (Option.some.inj h)
    exact ⟨Justified.of_reached hd hj.counter, hlooked _ _⟩
  | healthy t₀ ejected =>
    obtain ⟨rfl, rfl⟩ := Prod.mk.inj (Option.some.inj h)
    refine ⟨hj, ?_⟩
    cases q₀ with
    | filter =>
      show Due S n (if c.health.healthy then _ else _)
      split_ifs <;> trivial
    | status => trivial
  | probing t₀ ejected healthy =>
    obtain ⟨rfl, rfl⟩ := Prod.mk.inj (Option.some.inj h)
    exact ⟨hj, trivial⟩

theorem FailuresOnly.justified (h : FailuresOnly S s) :
    Justified S (s.points.count Counted) s.shared ∧
      ∀ id p, s.points.get? id = some p → Due S (s.points.count Counted) p := by
  refine Runs.invariant₂ (J := FailuresOnly S) (I := fun s : Pool Cell Point =>
    Justified S (s.points.count Counted) s.shared ∧
      ∀ id p, s.points.get? id = some p → Due S (s.points.count Counted) p) h ?_ (fun _ hr => hr) ?_
  · exact ⟨⟨Nat.zero_le _, by simp [Ejected, initial], by simp [initial, BackendHealth.initial],
      by simp [initial, BackendHealth.initial]⟩, by simp [initial, Table.empty]⟩
  · rintro s e s' hr ⟨hj, hd⟩ hok hs
    rcases Pool.step_cases hs with ⟨id, call, rfl, hnone, rfl⟩ | ⟨id, t, p, c', q, -, hp, hact, rfl⟩
    · have hcount : (s.points.insert id (enter call)).count Counted = s.points.count Counted :=
        count_enter hnone (by cases call <;> rfl)
      refine ⟨hcount.symm ▸ hj, fun id' p' hp' => ?_⟩
      rw [hcount]
      by_cases hid : id' = id
      · subst hid
        rw [Table.get?_insert_self, Option.some.injEq] at hp'
        subst hp'
        cases call <;> trivial
      · exact hd id' p' (by rwa [Table.get?_insert_ne _ _ hid] at hp')
    · have hnot : ∀ p₀, p ≠ .success p₀ := by
        rintro p₀ rfl
        exact hr.no_success hp
      have hcount := count_act hp hact hnot
      have hstep : Justified S ((s.points.insert id q).count Counted) c' ∧
          Due S ((s.points.insert id q).count Counted) q := by
        have hdp := hd id p hp
        obtain ⟨-, ⟨p₀, rfl, hs⟩ | ⟨p₀, rfl, hf⟩ | ⟨q₀, p₀, rfl, hq⟩⟩ := action_cases hact
        · exact absurd rfl (hnot p₀)
        · refine justified_failure hf ⟨hj.counter, hj.ejected, hj.pending, hj.probing⟩ hdp
            (hcount ▸ Nat.le_add_right ..) ?_
          rintro rfl
          simp [hcount]
        · rw [hcount]
          exact justified_query hq ⟨hj.counter, hj.ejected, hj.pending, hj.probing⟩ hdp
      refine ⟨hstep.1, fun id' p' hp' => ?_⟩
      by_cases hid : id' = id
      · subst hid
        rw [Table.get?_insert_self, Option.some.injEq] at hp'
        exact hp' ▸ hstep.2
      · rw [Table.get?_insert_ne _ _ hid] at hp'
        exact (hd id' p' hp').mono (hcount ▸ Nat.le_add_right ..)

theorem Quiet.count_failing (h : Quiet s) : s.points.count Failing = s.points.count Counted := by
  unfold Table.count
  refine List.countP_congr fun id _ => ?_
  cases hp : s.points.get? id with
  | none => simp
  | some p =>
    obtain ⟨answer, rfl⟩ := h id p hp
    cases answer <;> simp [Failing, Counted]

/-- **The threshold is exact under contention.** However the calls of `record_failure` and the
    queries interleave: when all have returned, the backend has been ejected iff the number of
    failures reaches the threshold. -/
theorem ejected_iff_threshold (S : Settings) (hpos : 0 < S.failureThreshold)
    {s : Pool Cell Point} (h : FailuresOnly S s) (hquiet : Quiet s) :
    (∃ t, (t, Entry.ejected) ∈ s.shared.log) ↔
      S.failureThreshold ≤ s.points.count Failing := by
  rw [hquiet.count_failing]
  constructor
  · exact h.justified.1.ejected
  · intro hle
    by_contra hnot
    have hcount := (h.counted_or_ejecting.resolve_right (hquiet.not_some (by simp))).resolve_right
      hnot
    have hlt := ((h.below_or_deciding hpos).resolve_right
      (hquiet.not_some (by simp [Deciding]))).resolve_right hnot
    omega

/-- Two failures whose accesses interleave, under a threshold of two. -/
theorem ejected_iff_threshold_two_at_once : ∃ s, FailuresOnly ⟨2, 1, 30⟩ s ∧ Quiet s ∧
    s.points.count Failing = 2 ∧ ∃ t, (t, Entry.ejected) ∈ s.shared.log := by
  obtain ⟨s, hs, hp⟩ := exists_of_exec_any (step ⟨2, 1, 30⟩) initial
    [.start 0 .recordFailure, .start 1 .recordFailure, .act 0 1, .act 1 1, .act 0 1, .act 1 2,
      .act 0 2, .act 1 2, .act 1 3, .act 0 3, .act 1 3, .act 1 4, .act 1 5]
    (fun s => decide (Quiet s ∧ s.points.count Failing = 2)) (by decide +kernel)
  obtain ⟨hquiet, hcount⟩ := of_decide_eq_true hp
  have hrun : FailuresOnly ⟨2, 1, 30⟩ s := Runs.of_obeys hs (by decide +kernel)
  exact ⟨s, hrun, hquiet, hcount,
    (ejected_iff_threshold ⟨2, 1, 30⟩ (by decide) hrun hquiet).2 (by rw [hcount])⟩

end Atomics

end FerrumProxy
