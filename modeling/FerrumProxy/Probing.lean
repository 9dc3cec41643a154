/-
  Half-open backends.

  When the window of an ejected backend is over, the next look sets its `probing`
  flag and only an outcome clears it (`reopened`, `probing_run`).  Nothing in
  `select_backend` reads the flag to keep a second request away.  So a half-open
  backend is handed to one request at a time exactly as far as no request selects
  from a route while the flag of a backend there is set on behalf of another one.
-/
import FerrumProxy.Replay
import Mathlib.Data.List.Induction

namespace FerrumProxy

open Lib Sys

namespace BackendHealth

theorem look_probing {st : BackendHealth} (h : st.probing) (now : ℕ) : (st.look now).probing := by
  rcases look_cases now st with he | ⟨_, -, -, he⟩
  · rwa [he]
  · rw [he]

/-- The window that ends at `till` is pending, or its end has been `seen` and `probing` is set. -/
def Reopening (till : ℕ) (seen : Prop) (st : BackendHealth) : Prop :=
  st.ejectedUntil = some till ∨ st.probing ∧ seen

namespace Reopening

variable {till : ℕ} {seen seen' : Prop} {st : BackendHealth}

theorem imp (h : st.Reopening till seen) (hseen : seen → seen') : st.Reopening till seen' :=
  Or.imp_right (And.imp_right hseen) h

/-- A look finds the window over, or leaves it pending. -/
theorem look (h : st.Reopening till seen) (now : ℕ) :
    (st.look now).Reopening till (seen ∨ till ≤ now) := by
  rcases h with hu | ⟨hp, hseen⟩
  · rcases st.look_cases now with heq | ⟨till', hu', hle, heq⟩
    · rw [heq]
      exact Or.inl hu
    · rw [hu, Option.some.injEq] at hu'
      rw [heq]
      exact Or.inr ⟨rfl, Or.inr (hu' ▸ hle)⟩
  · exact Or.inr ⟨look_probing hp now, Or.inl hseen⟩

/-- A success leaves a pending window as it is. -/
theorem recordSuccess (h : st.Reopening till seen) (hpending : ¬ seen) (recovery : ℕ) :
    (st.recordSuccess recovery).1.Reopening till seen := by
  have hu : st.ejectedUntil = some till := h.resolve_right fun hp => hpending hp.2
  left
  rcases st.recordSuccess_cases recovery with ⟨-, heq⟩ | ⟨-, -, heq⟩
  · rw [heq]
    exact hu
  · rw [heq]
    exact hu

/-- So does a failure that does not eject. -/
theorem recordFailure (h : st.Reopening till seen) {threshold : ℕ}
    (hej : st.ejects threshold = false) (D now : ℕ) :
    (st.recordFailure threshold D now).1.Reopening till seen := by
  rcases st.recordFailure_cases threshold D now with ⟨hn, -⟩ | ⟨hn, -⟩ | ⟨-, -, -, heq⟩
  · simp [hn] at hej
  · simp [hn] at hej
  · rw [heq]
    exact h

end Reopening

end BackendHealth

namespace HealthManager

/-- The call records an outcome of `b`. -/
def Event.isOutcome (b : String) : Event → Bool
  | recordSuccess b' => b' = b
  | recordFailure b' => b' = b
  | _ => false

/-- The half-open period of `b`: its last window is over at `t`, and no outcome has been recorded
    since it was. -/
def HalfOpen (m : HealthManager) (b : String) (h : History) (t : ℕ) : Prop :=
  ∃ w ∈ (m.ejections b h).getLast?, w + m.ejectionDuration ≤ t ∧
    ∀ e ∈ h, e.2.isOutcome b → e.1 < w + m.ejectionDuration

instance (m : HealthManager) (b : String) (h : History) (t : ℕ) : Decidable (m.HalfOpen b h t) :=
  inferInstanceAs (Decidable (∃ w ∈ _, _))

/-- One call that does not eject, and no outcome once the window has been found over. -/
theorem stepOne_reopening {m : HealthManager} {b : String} {till : ℕ} {seen : Prop}
    {st : BackendHealth} (h : st.Reopening till seen) (e : ℕ × Event)
    (hseen : seen → ¬ e.2.isOutcome b)
    (hej : e.2 = .recordFailure b → st.ejects m.failureThreshold = false) :
    (m.stepOne b st e).Reopening till (seen ∨ till ≤ e.1) := by
  obtain ⟨t, c⟩ := e
  cases c with
  | recordSuccess b' =>
    simp only [stepOne]
    split_ifs with hb
    · have hpending : ¬ seen := fun ho => hseen ho (by simp [Event.isOutcome, hb])
      exact (h.recordSuccess hpending _).imp Or.inl
    · exact h.imp Or.inl
  | recordFailure b' =>
    simp only [stepOne]
    split_ifs with hb
    · exact (h.recordFailure (hej (by rw [hb])) _ _).imp Or.inl
    · exact h.imp Or.inl
  | healthyBackends r =>
    simp only [stepOne]
    split_ifs with hb
    · exact h.look t
    · exact h.imp Or.inl
  | backendStatuses => exact h.look t

/-- From an ejection to the end of the half-open period, the window is pending or `probing` is
    set. -/
theorem reopened {m : HealthManager} {b : String} {h : History} {w : ℕ} {st : BackendHealth}
    (hc : Chronological h) (hst : (m.run h).backendHealth.get? b = some st)
    (hw : (m.ejections b h).getLast? = some w)
    (ho : ∀ e ∈ h, e.2.isOutcome b → e.1 < w + m.ejectionDuration) :
    st.Reopening (w + m.ejectionDuration) (∃ e ∈ h, w + m.ejectionDuration ≤ e.1) := by
  induction h using List.reverseRecOn generalizing w st with
  | nil => simp [ejections] at hw
  | append_singleton h e ih =>
    obtain ⟨hch, -, hlast⟩ := List.pairwise_append.1 hc
    have hlast : ∀ e' ∈ h, e'.1 ≤ e.1 := fun e' he' => hlast e' he' e (by simp)
    have hsame := m.run_same h
    rw [run_append, run_cons, run_nil, get?_step, hsame.stepOne] at hst
    obtain ⟨st₀, hst₀, rfl⟩ := Option.map_eq_some_iff.1 hst
    have hejects : (m.run h).wouldEject b = st₀.ejects m.failureThreshold := by
      simp [wouldEject, hst₀, hsame.failureThreshold]
    rw [ejections_append, ejections_single, hejects] at hw
    by_cases hej : e.2 = .recordFailure b ∧ st₀.ejects m.failureThreshold
    · -- a new window
      rw [if_pos hej, List.getLast?_concat, Option.some.injEq] at hw
      left
      simp only [stepOne, hej.1, if_true, ← hw]
      exact BackendHealth.recordFailure_of_ejects hej.2 _ _
    · rw [if_neg hej, List.append_nil] at hw
      have hi := ih hch hst₀ hw fun e' he' => ho e' (by simp [he'])
      -- once the window has been found over, no outcome follows
      have hlate : (∃ e' ∈ h, w + m.ejectionDuration ≤ e'.1) → ¬ e.2.isOutcome b := by
        rintro ⟨e', he', hle⟩ hout
        have := ho e (by simp) hout
        have := hlast e' he'
        omega
      have hstep := stepOne_reopening (m := m) hi e hlate fun he => by simpa [he] using hej
      refine hstep.imp ?_
      rintro (⟨e', he', hle⟩ | hle)
      · exact ⟨e', by simp [he'], hle⟩
      · exact ⟨e, by simp, hle⟩

/-- Only an outcome clears `probing`. -/
theorem probing_run {m : HealthManager} {b : String} {h : History} {st : BackendHealth}
    (hp : st.probing) (ho : ∀ e ∈ h, ¬ e.2.isOutcome b) : (m.runOne b st h).probing := by
  induction h generalizing st with
  | nil => exact hp
  | cons e h ih =>
    refine ih ?_ fun e' he' => ho e' (by simp [he'])
    have he := ho e (by simp)
    obtain ⟨t, c⟩ := e
    cases c with
    | recordSuccess b' =>
      have hb : b ≠ b' := fun hb => he (by simp [Event.isOutcome, hb])
      simpa only [stepOne, if_neg hb] using hp
    | recordFailure b' =>
      have hb : b ≠ b' := fun hb => he (by simp [Event.isOutcome, hb])
      simpa only [stepOne, if_neg hb] using hp
    | healthyBackends r =>
      simp only [stepOne]
      split_ifs
      · exact BackendHealth.look_probing hp t
      · exact hp
    | backendStatuses => exact BackendHealth.look_probing hp t

/-- Only a known backend is ejected. -/
theorem isSome_of_mem_ejections {m : HealthManager} {b : String} {h : History} {w : ℕ}
    (hw : w ∈ m.ejections b h) : (m.backendHealth.get? b).isSome := by
  induction h generalizing m with
  | nil => simp [ejections] at hw
  | cons e h ih =>
    rw [ejections, List.mem_append] at hw
    rcases hw with hw | hw
    · split_ifs at hw with he
      · cases hb : m.backendHealth.get? b with
        | none => simp [wouldEject, hb] at he
        | some st => rfl
      · simp at hw
    · have hs := ih hw
      rwa [get?_step, Option.isSome_map] at hs

/-- The half-open period at an earlier call, with no outcome since and no window open there. -/
theorem HalfOpen.earlier {m : HealthManager} {b : String} {h h' : History} {t t' : ℕ}
    (hopen : m.HalfOpen b (h ++ h') t) (ho : ∀ e ∈ h', ¬ e.2.isOutcome b)
    (hout : ¬ Covered m.ejectionDuration (m.ejections b h) t') : m.HalfOpen b h t' := by
  obtain ⟨w, hw, -, hbefore⟩ := hopen
  have hnone : (m.run h).ejections b h' = [] :=
    ejections_eq_nil (fun e he heq => ho e he (by simp [heq, Event.isOutcome])) _
  rw [ejections_append, hnone, List.append_nil] at hw
  exact ⟨w, hw, not_covered.1 hout w (List.mem_of_getLast? hw),
    fun e he => hbefore e (by simp [he])⟩

/-- A look in the half-open period sets `probing`, and it stays set until an outcome is recorded. -/
theorem HalfOpen.isBackendProbing {m : HealthManager} {b : String} {h h' : History} {t : ℕ}
    {r : RouteConfig} (hopen : m.HalfOpen b h t) (hc : Chronological h) (hb : b ∈ r.backends)
    (ho : ∀ e ∈ h', ¬ e.2.isOutcome b) :
    (m.run (h ++ (t, .healthyBackends r) :: h')).isBackendProbing b := by
  obtain ⟨w, hw, hle, hout⟩ := hopen
  have hknown := isSome_of_mem_ejections (List.mem_of_getLast? hw)
  obtain ⟨st, hst⟩ := Option.isSome_iff_exists.1 ((isSome_run m h b).trans hknown)
  have hp : (st.look t).probing := by
    rcases reopened hc hst hw hout with hu | ⟨hp, -⟩
    · rw [BackendHealth.look_of_over hu (by omega)]
    · exact BackendHealth.look_probing hp t
  rw [run_append, run_cons, HealthManager.isBackendProbing, get?_run, get?_step, hst]
  simp only [Option.map_some, Option.any_some, stepOne, if_pos hb]
  exact probing_run hp ho

end HealthManager

/-! ## Requests that have been handed a backend -/

/-- The requests that `b` has been handed to since its last outcome. -/
def handedOut (b : String) (log : List (ℕ × Obs)) : List ℕ :=
  log.foldl (fun ids e =>
    match e.2 with
    | .selected id b' => if b' = b then ids ++ [id] else ids
    | .health _ c => if c.isOutcome b then [] else ids
    | _ => ids) []

theorem handedOut_look {b : String} {log : List (ℕ × Obs)} {t id : ℕ} {route : RouteConfig} :
    handedOut b (log ++ [lookEntry t id route]) = handedOut b log := by
  unfold handedOut
  rw [List.foldl_append]
  rfl

/-- Who was handed `b` since the last outcome was so by an entry with no outcome after it. -/
theorem exists_of_mem_handedOut {b : String} {log : List (ℕ × Obs)} {id : ℕ}
    (h : id ∈ handedOut b log) : ∃ log₁ t log₂, log = log₁ ++ (t, .selected id b) :: log₂ ∧
      ∀ e ∈ healthHistory log₂, ¬ e.2.isOutcome b := by
  induction log using List.reverseRecOn with
  | nil => simp [handedOut] at h
  | append_singleton log e ih =>
    obtain ⟨t, o⟩ := e
    have hkeep : (∀ c ∈ healthHistory [(t, o)], ¬ c.2.isOutcome b) → id ∈ handedOut b log →
        ∃ log₁ t' log₂, log ++ [(t, o)] = log₁ ++ (t', .selected id b) :: log₂ ∧
          ∀ e ∈ healthHistory log₂, ¬ e.2.isOutcome b := by
      intro ho hid
      obtain ⟨log₁, t', log₂, rfl, hno⟩ := ih hid
      refine ⟨log₁, t', log₂ ++ [(t, o)], by simp, fun e he => ?_⟩
      rw [healthHistory_append, List.mem_append] at he
      exact he.elim (hno e) (ho e)
    unfold handedOut at h
    rw [List.foldl_append] at h
    cases o with
    | selected id' b' =>
      simp only [List.foldl_cons, List.foldl_nil] at h
      split_ifs at h with hb
      · rcases List.mem_append.1 h with h | h
        · exact hkeep (by simp [healthHistory]) h
        · obtain rfl := List.mem_singleton.1 h
          exact ⟨log, t, [], by rw [hb], by simp⟩
      · exact hkeep (by simp [healthHistory]) h
    | health src c =>
      simp only [List.foldl_cons, List.foldl_nil] at h
      split_ifs at h with hout
      · simp at h
      · exact hkeep (by simpa [healthHistory] using hout) h
    | _ => exact hkeep (by simp [healthHistory]) h

/-- A call of `select_backend` finds the `probing` flag of a backend of its route set only if the
    backend has been handed to no other request since its last outcome. -/
def LooksAlone (P : Setup) (log : List (ℕ × Obs)) (e : ℕ × Obs) : Prop :=
  match e.2 with
  | .health (.request id) (.healthyBackends route) => ∀ b ∈ route.backends,
      (P.initial.health.run (healthHistory log)).isBackendProbing b → ∀ i ∈ handedOut b log, i = id
  | _ => True

/-- A half-open backend is handed out only if it has been handed to no other request since its last
    outcome. -/
def ProbesAlone (P : Setup) (log : List (ℕ × Obs)) (e : ℕ × Obs) : Prop :=
  match e.2 with
  | .selected id b => P.initial.health.HalfOpen b (healthHistory log) e.1 →
      ∀ i ∈ handedOut b log, i = id
  | _ => True

instance (P : Setup) (log : List (ℕ × Obs)) : (e : ℕ × Obs) → Decidable (LooksAlone P log e)
  | (_, .health (.request id) (.healthyBackends route)) =>
    inferInstanceAs (Decidable (∀ b ∈ route.backends, _ → ∀ i ∈ handedOut b log, i = id))
  | (_, .health (.request _) (.recordSuccess _)) | (_, .health (.request _) (.recordFailure _))
  | (_, .health (.request _) .backendStatuses) | (_, .health .check _) | (_, .arrived _ _)
  | (_, .selected _ _) | (_, .attempt _ _ _ _ _) | (_, .pause _ _ _ _) | (_, .responded _ _) =>
    isTrue trivial

instance (P : Setup) (log : List (ℕ × Obs)) : (e : ℕ × Obs) → Decidable (ProbesAlone P log e)
  | (_, .selected id b) => inferInstanceAs (Decidable (_ → ∀ i ∈ handedOut b log, i = id))
  | (_, .health _ _) | (_, .arrived _ _) | (_, .attempt _ _ _ _ _) | (_, .pause _ _ _ _)
  | (_, .responded _ _) => isTrue trivial

/-- **Single probe.**  In every run in which no call of `select_backend` meets a backend that is
    being probed by another request, a half-open backend is handed to a single request until an
    outcome is recorded. -/
theorem probes_alone {P : Setup} {s : Sys} (h : P.Reachable s) (hl : AtEach (LooksAlone P) s.log) :
    AtEach (ProbesAlone P) s.log := by
  rintro log₁ ⟨t, o⟩ log₂ hlog
  cases o with
  | selected id b =>
    intro hopen i hi
    obtain ⟨-, log₀, route, rfl, hb⟩ := h.chosen log₁ _ log₂ hlog id b rfl
    rw [handedOut_look] at hi
    refine hl log₀ (lookEntry t id route) _ (by rw [hlog, List.append_assoc]; rfl) b hb ?_ i hi
    -- the request `i` was handed `b` after a look, which had set the flag
    obtain ⟨l₁, t₁, l₂, rfl, hno⟩ := exists_of_mem_handedOut hi
    obtain ⟨hout, l₀, route', rfl, hb'⟩ := h.chosen l₁ (t₁, .selected i b) _
      (by rw [hlog]; simp only [List.append_assoc, List.cons_append]; rfl) i b rfl
    rw [inWindow_look] at hout
    have hno' : ∀ e ∈ (t₁, .healthyBackends route') :: healthHistory l₂, ¬ e.2.isOutcome b :=
      List.forall_mem_cons.2 ⟨by simp [HealthManager.Event.isOutcome], hno⟩
    have hhist : healthHistory (l₀ ++ [lookEntry t₁ i route'] ++ (t₁, .selected i b) :: l₂) =
        healthHistory l₀ ++ (t₁, .healthyBackends route') :: healthHistory l₂ := by
      rw [List.append_assoc, healthHistory_append]
      rfl
    have hopen₀ : P.initial.health.HalfOpen b (healthHistory l₀) t₁ := by
      rw [healthHistory_append, hhist, List.append_assoc] at hopen
      refine hopen.earlier (fun e he => ?_) hout
      rcases List.mem_append.1 he with he | he
      · exact hno' e he
      · obtain rfl := List.mem_singleton.1 he
        simp [HealthManager.Event.isOutcome]
    have ho : l₀.Pairwise (·.1 ≤ ·.1) := by
      refine h.replays.ordered.sublist ?_
      rw [hlog]
      simp only [List.append_assoc]
      exact List.sublist_append_left l₀ _
    rw [hhist]
    exact hopen₀.isBackendProbing (chronological_healthHistory ho) hb' hno
  | _ => trivial

/-- The only backend is ejected at 1; after its window a first `GET` is answered before a second
    one comes. -/
theorem gets_in_turn :
    let P := small ["http://127.0.0.1:3001"] 1 1 100
    ∃ s, exec (step P) P.initial [(1, .checked "http://127.0.0.1:3001" 500),
        (40000000000, .arrive 1 (smallRequest .get)),
        (40000000001, .resolved 1 (.response 200 [])),
        (40000000002, .arrive 2 (smallRequest .get))] = some s ∧ AtEach (ProbesAlone P) s.log := by
  intro P
  obtain ⟨s, hs, hl⟩ := exists_of_exec_any (step P) P.initial
    [(1, .checked "http://127.0.0.1:3001" 500), (40000000000, .arrive 1 (smallRequest .get)),
      (40000000001, .resolved 1 (.response 200 [])), (40000000002, .arrive 2 (smallRequest .get))]
    (fun s => AtEach (LooksAlone P) s.log) (by decide +kernel)
  exact ⟨s, hs, probes_alone (P.reachable_of_exec hs) (of_decide_eq_true hl)⟩

/-- The only backend is ejected at 1; after its window two `GET`s come one after the other and both
    are handed the half-open backend. -/
theorem two_probes :
    let P := small ["http://127.0.0.1:3001"] 1 1 100
    ∃ s, exec (step P) P.initial [(1, .checked "http://127.0.0.1:3001" 500),
        (40000000000, .arrive 1 (smallRequest .get)),
        (40000000001, .arrive 2 (smallRequest .get))] = some s ∧ P.Reachable s ∧
      ¬ AtEach (ProbesAlone P) s.log := by
  intro P
  obtain ⟨s, hs, hl⟩ := exists_of_exec_any (step P) P.initial
    [(1, .checked "http://127.0.0.1:3001" 500), (40000000000, .arrive 1 (smallRequest .get)),
      (40000000001, .arrive 2 (smallRequest .get))]
    (fun s => ¬ AtEach (ProbesAlone P) s.log) (by decide +kernel)
  exact ⟨s, hs, P.reachable_of_exec hs, of_decide_eq_true hl⟩

end FerrumProxy
