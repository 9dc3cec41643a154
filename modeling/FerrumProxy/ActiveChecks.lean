/-
  A pass of active checks, over any list of routes.

  The routes may share backends and name them more than once.  Where the overrides
  are accepted, the pairs of `unique_backend_checks` are one for each backend, so that
  a pass records one outcome for each of them; outcomes of different backends commute,
  and the order in which the hash set is iterated does not matter.
-/
import FerrumProxy.Startup

namespace FerrumProxy

open Lib

namespace HealthManager

/-! ## Outcomes of different backends -/

/-- The backend that an outcome is about. -/
def Event.subject : Event → Option String
  | .recordSuccess b => some b
  | .recordFailure b => some b
  | _ => none

/-- An outcome changes the entry of its backend. -/
theorem step_of_subject {e : ℕ × Event} {b : String} (h : e.2.subject = some b)
    (m : HealthManager) : m.step e = m.update b fun st => m.stepOne b st e := by
  obtain ⟨t, e⟩ := e
  cases e with
  | recordSuccess b' =>
    obtain rfl : b' = b := Option.some.inj h
    simp [step, stepOne, recordSuccess_fst]
  | recordFailure b' =>
    obtain rfl : b' = b := Option.some.inj h
    simp [step, stepOne, recordFailure_fst]
  | healthyBackends r => cases h
  | backendStatuses => cases h

theorem step_comm {e e' : ℕ × Event} {b b' : String} (h : e.2.subject = some b)
    (h' : e'.2.subject = some b') (hne : b ≠ b') (m : HealthManager) :
    (m.step e).step e' = (m.step e').step e := by
  rw [step_of_subject h', (m.step_same e).stepOne, step_of_subject h (m.step e'),
    (m.step_same e').stepOne, step_of_subject h, step_of_subject h']
  unfold update
  rw [Table.modify_comm _ hne]

/-- **Outcomes of different backends** may come in any order. -/
theorem run_perm {h h' : History} (hperm : h.Perm h') (hsubject : ∀ e ∈ h, e.2.subject.isSome)
    (hnd : (h.map (·.2.subject)).Nodup) (m : HealthManager) : m.run h = m.run h' := by
  refine hperm.foldl_eq' (fun e he e' he' m => ?_) m
  by_cases heq : e.2.subject = e'.2.subject
  · rw [List.inj_on_of_nodup_map hnd he he' heq]
  · obtain ⟨b, hb⟩ := Option.isSome_iff_exists.1 (hsubject e he)
    obtain ⟨b', hb'⟩ := Option.isSome_iff_exists.1 (hsubject e' he')
    refine step_comm hb hb' (fun hbb => heq ?_) m
    rw [hb, hb', hbb]

/-! ## The calls of a pass -/

/-- The outcome of a check. -/
def outcomeOf (m : HealthManager) (k : Check) : Event :=
  if m.isActiveSuccessStatus k.status then .recordSuccess k.backend else .recordFailure k.backend

theorem subject_outcomeOf (m : HealthManager) (k : Check) :
    (m.outcomeOf k).subject = some k.backend := by
  unfold outcomeOf
  split_ifs <;> rfl

theorem passHistory_eq (m : HealthManager) (checks : List Check) :
    m.passHistory checks = checks.map fun k => (k.instant, m.outcomeOf k) := rfl

end HealthManager

/-- The checks of a pass that iterates over `order`, with the status and the instant of each. -/
def checksOf (status instant : String × String → ℕ) (order : List (String × String)) : List Check :=
  order.map fun p => ⟨p.1, p.2, status p, instant p⟩

/-- The log of a pass: one call of the health manager for each check. -/
theorem Sys.runActiveCheckPass_log (s : Sys) (checks : List Check) :
    (s.runActiveCheckPass checks).log = s.log ++
      (s.health.passHistory checks).map fun e => (e.1, .health .check e.2) := by
  induction checks generalizing s with
  | nil => simp [Sys.runActiveCheckPass, HealthManager.passHistory]
  | cons k checks ih =>
    refine (ih _).trans ?_
    simp only [HealthManager.passHistory, Sys.recordCheck, Sys.callHealth, List.map_cons,
      (s.health.step_same _).isActiveSuccessStatus, List.append_assoc, List.singleton_append]

section
variable {c : Config} {order : List (String × String)} {status instant : String × String → ℕ}

/-- In a list of pairs with distinct first components there is one for each of them. -/
theorem filter_fst_eq_singleton {b e : String} (hnd : (order.map Prod.fst).Nodup)
    (hmem : (b, e) ∈ order) : order.filter (fun p => decide (p.1 = b)) = [(b, e)] := by
  have hone : order.count (b, e) = 1 := List.count_eq_one_of_mem (List.Nodup.of_map _ hnd) hmem
  calc order.filter (fun p => decide (p.1 = b))
      = order.filter (fun p => decide (p = (b, e))) := by
        refine List.filter_congr fun p hp => decide_eq_decide.2 ⟨fun hpb => ?_, fun hpb => ?_⟩
        · exact List.inj_on_of_nodup_map hnd hp hmem hpb
        · rw [hpb]
    _ = List.replicate (order.count (b, e)) (b, e) := List.filter_eq _
    _ = [(b, e)] := by rw [hone]; rfl

/-- What a pass records about one backend. -/
theorem filter_passHistory (m : HealthManager) {b e : String} (hnd : (order.map Prod.fst).Nodup)
    (hmem : (b, e) ∈ order) :
    (m.passHistory (checksOf status instant order)).filter
        (fun o => decide (o.2.subject = some b)) =
      [(instant (b, e), m.outcomeOf ⟨b, e, status (b, e), instant (b, e)⟩)] := by
  rw [HealthManager.passHistory_eq, checksOf, List.map_map, List.filter_map]
  have hfilter : order.filter ((fun o : ℕ × HealthManager.Event =>
      decide (o.2.subject = some b)) ∘ (fun k : Check => (k.instant, m.outcomeOf k)) ∘
      fun p => ⟨p.1, p.2, status p, instant p⟩) = [(b, e)] := by
    rw [← filter_fst_eq_singleton hnd hmem]
    refine List.filter_congr fun p _ => ?_
    simp [HealthManager.subject_outcomeOf]
  rw [hfilter]
  rfl

/-- The order of a pass does not matter for the health state. -/
theorem run_passHistory_perm (m : HealthManager) {order' : List (String × String)}
    (hperm : order.Perm order') (hnd : (order.map Prod.fst).Nodup) :
    m.run (m.passHistory (checksOf status instant order)) =
      m.run (m.passHistory (checksOf status instant order')) := by
  have hcalls : (m.passHistory (checksOf status instant order)).Perm
      (m.passHistory (checksOf status instant order')) := (hperm.map _).map _
  refine HealthManager.run_perm hcalls (fun e he => ?_) ?_ m
  · obtain ⟨k, -, rfl⟩ := List.mem_map.1 he
    exact Option.isSome_iff_exists.2 ⟨k.backend, m.subject_outcomeOf k⟩
  · have hsubjects : (m.passHistory (checksOf status instant order)).map (·.2.subject) =
        (order.map Prod.fst).map some := by
      rw [HealthManager.passHistory_eq, checksOf, List.map_map, List.map_map, List.map_map]
      refine List.map_congr_left fun p _ => ?_
      exact m.subject_outcomeOf ⟨p.1, p.2, status p, instant p⟩
    rw [hsubjects]
    exact hnd.map (Option.some_injective _)

end

end FerrumProxy
