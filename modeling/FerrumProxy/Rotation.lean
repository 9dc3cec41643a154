/-
  Round robin over requests.

  The counter of a route is advanced by every selection, also by those of retries.
  `tally` reads the selections on a route off a log; the counter agrees with it in
  every reachable state, and while the eligible backends stay the same, the first
  choice of a request is the one at the position given by the selections before it
  (`Rotates`).  So the first choices of consecutive requests go once round iff these
  positions do, and they do when no request is retried.
-/
import FerrumProxy.Accounting
import FerrumProxy.Lib.Cycles
import Mathlib.Data.List.Induction

namespace FerrumProxy

open Lib Sys

/-! ## The selections on a route -/

/-- The selections on a route, read off a log. -/
structure Tally where
  /-- the last look at the eligible backends was on this route -/
  looked : Bool := false
  /-- the requests that have chosen a backend, on any route -/
  seen : List ℕ := []
  /-- the number of selections on this route -/
  picks : ℕ := 0
  /-- the first choices of requests on this route, with the number of selections before each -/
  firsts : List (ℕ × String) := []

/-- One entry of the log. -/
def Tally.next (r : RouteConfig) (T : Tally) : Obs → Tally
  | .health _ (.healthyBackends route) => { T with looked := route = r }
  | .selected id b => { T with
      seen := T.seen ++ [id]
      picks := if T.looked then T.picks + 1 else T.picks
      firsts := if T.looked ∧ id ∉ T.seen then T.firsts ++ [(T.picks, b)] else T.firsts }
  | _ => T

/-- The selections on the route `r`. -/
def tally (r : RouteConfig) (log : List (ℕ × Obs)) : Tally :=
  log.foldl (fun T e => T.next r e.2) {}

/-- The entry is a choice of `select_backend`. -/
def Obs.isChoice : Obs → Bool
  | .selected _ _ => true
  | _ => false

/-- The number of choices. -/
def choiceCount (log : List (ℕ × Obs)) : ℕ := log.countP (·.2.isChoice)

@[simp] theorem choiceCount_append (log os : List (ℕ × Obs)) :
    choiceCount (log ++ os) = choiceCount log + choiceCount os := List.countP_append ..

section
variable (r : RouteConfig) (log : List (ℕ × Obs))

theorem tally_concat (e : ℕ × Obs) : tally r (log ++ [e]) = (tally r log).next r e.2 :=
  List.foldl_concat ..

/-- Without a choice nothing is counted. -/
theorem tally_append {os : List (ℕ × Obs)} (h : choiceCount os = 0) :
    (tally r (log ++ os)).seen = (tally r log).seen ∧
      (tally r (log ++ os)).picks = (tally r log).picks ∧
      (tally r (log ++ os)).firsts = (tally r log).firsts := by
  induction os using List.reverseRecOn with
  | nil => simp
  | append_singleton os e ih =>
    obtain ⟨t, o⟩ := e
    rw [choiceCount_append, Nat.add_eq_zero_iff] at h
    rw [← List.append_assoc, tally_concat]
    cases o with
    | selected id b => simp [choiceCount, Obs.isChoice] at h
    | health source c => cases c <;> exact ih h.1
    | _ => exact ih h.1

/-- `seen` lists every request as often as it has chosen. -/
theorem count_seen (id : ℕ) : (tally r log).seen.count id = choiceCount (entriesOf id log) := by
  induction log using List.reverseRecOn with
  | nil => rfl
  | append_singleton log e ih =>
    obtain ⟨t, o⟩ := e
    rw [entriesOf_append, choiceCount_append, ← ih]
    by_cases ho : o.isChoice
    · cases o with
      | selected id' b =>
        rw [tally_concat]
        by_cases hid : id' = id <;>
          simp [Tally.next, entriesOf, Obs.id?, hid, choiceCount, Obs.isChoice]
      | _ => simp [Obs.isChoice] at ho
    · have hnone : choiceCount [(t, o)] = 0 := by simpa [choiceCount] using ho
      have hown : choiceCount (entriesOf id [(t, o)]) = 0 :=
        Nat.le_zero.1 ((List.filter_sublist.countP_le).trans hnone.le)
      rw [(tally_append r log hnone).1, hown, Nat.add_zero]

/-- When no request chooses twice, every choice on the route is a first one. -/
theorem firsts_eq_range (h : (tally r log).seen.Nodup) :
    (tally r log).firsts.map (·.1) = List.range' 0 (tally r log).picks := by
  induction log using List.reverseRecOn with
  | nil => rfl
  | append_singleton log e ih =>
    obtain ⟨t, o⟩ := e
    by_cases ho : o.isChoice
    · cases o with
      | selected id b =>
        rw [tally_concat] at h ⊢
        have hnodup : ((tally r log).seen ++ [id]).Nodup := h
        rw [← List.concat_eq_append, List.nodup_concat] at hnodup
        cases hlooked : (tally r log).looked with
        | false => simpa [Tally.next, hlooked] using ih hnodup.2
        | true =>
          simp only [Tally.next, hlooked, hnodup.1, not_false_eq_true, and_self, if_true,
            List.map_append, List.map_cons, List.map_nil, ih hnodup.2]
          rw [List.range'_concat]
          simp
      | _ => simp [Obs.isChoice] at ho
    · have hnone : choiceCount [(t, o)] = 0 := by simpa [choiceCount] using ho
      obtain ⟨hseen, hpicks, hfirsts⟩ := tally_append r log hnone
      rw [hpicks, hfirsts]
      exact ih (hseen ▸ h)

theorem hasChosen_iff {id : ℕ} : HasChosen id log ↔ id ∈ (tally r log).seen := by
  rw [← List.count_pos_iff, count_seen, choiceCount, List.countP_pos_iff]
  constructor
  · rintro ⟨e, he, b, hb⟩
    exact ⟨e, mem_entriesOf he (by simp [hb, Obs.id?]), by simp [hb, Obs.isChoice]⟩
  · rintro ⟨⟨t, o⟩, he, ho⟩
    obtain ⟨hmem, hid⟩ := List.mem_filter.1 he
    cases o with
    | selected id' b =>
      obtain rfl : id' = id := by simpa [Obs.id?] using hid
      exact ⟨_, hmem, b, rfl⟩
    | _ => simp [Obs.isChoice] at ho

end

/-! ## The counter and the first choices -/

/-- The entry is a look at the eligible backends of the route. -/
def Obs.looksAt (r : RouteConfig) : Obs → Bool
  | .health _ (.healthyBackends route) => route = r
  | _ => false

/-- Whenever the eligible backends of the route are looked at, they are `E`. -/
def Stable (P : Setup) (r : RouteConfig) (E : List String) (log : List (ℕ × Obs)) : Prop :=
  AtEach (fun log e => e.2.looksAt r →
    ((P.initial.health.run (healthHistory log)).healthyBackends e.1 r).2 = E) log

instance (P : Setup) (r : RouteConfig) (E : List String) (log : List (ℕ × Obs)) :
    Decidable (Stable P r E log) := inferInstanceAs (Decidable (AtEach _ _))

/-- The balancer of the round-robin route `r` agrees with the log, and first choices are made in
    rotation. -/
structure Rotates (P : Setup) (r : RouteConfig) (E : List String) (s : Sys) : Prop where
  health : s.health = P.initial.health.run (healthHistory s.log)
  counter : s.balancer.routes.get? r.pathPrefix =
    some ⟨.roundRobin, (tally r s.log).picks % 2 ^ 64⟩
  firsts : Stable P r E s.log → (tally r s.log).picks ≤ 2 ^ 64 → GoesRound E (tally r s.log).firsts

section
variable {P : Setup} {r : RouteConfig} {E : List String} {s s' : Sys}

/-- Effects that choose nothing. -/
theorem Rotates.next (h : Rotates P r E s) (os : List (ℕ × Obs)) (hlog : s'.log = s.log ++ os)
    (hhealth : s'.health = s.health.run (healthHistory os)) (hbalancer : s'.balancer = s.balancer)
    (hos : choiceCount os = 0) : Rotates P r E s' := by
  obtain ⟨-, hpicks, hfirsts⟩ := tally_append r s.log hos
  refine ⟨?_, ?_, ?_⟩
  · rw [hhealth, h.health, hlog, healthHistory_append, HealthManager.run_append]
  · rw [hbalancer, hlog, hpicks, h.counter]
  · rw [hlog, hpicks, hfirsts]
    exact fun hstable => h.firsts (atEach_append.1 hstable).1

/-- `select_backend` with a candidate: what the balancer chooses is written to the log. -/
theorem selectBackend_chooses (id : ℕ) {route : RouteConfig} {attempted : List String}
    (hcand : s.candidates route attempted ≠ []) :
    ∃ b, (s.balancer.selectBackend route (s.candidates route attempted)).2 = some b ∧
      (s.selectBackend id route attempted).1.balancer =
        (s.balancer.selectBackend route (s.candidates route attempted)).1 ∧
      Eff s [lookEntry s.now id route, (s.now, .selected id b)]
        (s.selectBackend id route attempted).1 := by
  have hsome : (s.balancer.selectBackend route (s.candidates route attempted)).2.isSome :=
    LoadBalancer.selectBackend_isSome hcand
  unfold Sys.selectBackend
  rcases hsel : s.balancer.selectBackend route (s.candidates route attempted) with ⟨L, _ | b⟩
  · rw [hsel] at hsome
    cases hsome
  · exact ⟨b, rfl, rfl, rfl, rfl, rfl, by simp [Sys.emit, callHealth, lookEntry], rfl⟩

/-- A choice on another route. -/
theorem Rotates.chooseOther (h : Rotates P r E s) {id : ℕ} {route : RouteConfig}
    {attempted : List String} (hne : r.pathPrefix ≠ route.pathPrefix)
    (hcand : s.candidates route attempted ≠ []) :
    Rotates P r E (s.selectBackend id route attempted).1 := by
  obtain ⟨b, -, hbalancer, heff⟩ := selectBackend_chooses id hcand
  have hroute : route ≠ r := by
    rintro rfl
    exact hne rfl
  have htally : tally r (s.selectBackend id route attempted).1.log =
      { tally r s.log with looked := false, seen := (tally r s.log).seen ++ [id] } := by
    rw [heff.log, List.append_cons, tally_concat, tally_concat]
    simp [Tally.next, lookEntry, hroute]
  refine ⟨?_, ?_, ?_⟩
  · rw [heff.health, heff.log, healthHistory_append, HealthManager.run_append, ← h.health]
  · rw [hbalancer, LoadBalancer.get?_selectBackend_ne _ _ _ hne, htally, h.counter]
  · rw [htally, heff.log]
    exact fun hstable => h.firsts (atEach_append.1 hstable).1

/-- A choice on the route itself. -/
theorem Rotates.choose (h : Rotates P r E s) {id : ℕ} {attempted : List String}
    (hchosen : attempted ≠ [] → HasChosen id s.log) (hcand : s.candidates r attempted ≠ []) :
    Rotates P r E (s.selectBackend id r attempted).1 := by
  obtain ⟨b, hb, hbalancer, heff⟩ := selectBackend_chooses id hcand
  rw [LoadBalancer.selectBackend_roundRobin h.counter hcand] at hb hbalancer
  have htally : tally r (s.selectBackend id r attempted).1.log =
      ⟨true, (tally r s.log).seen ++ [id], (tally r s.log).picks + 1,
        if id ∉ (tally r s.log).seen then (tally r s.log).firsts ++ [((tally r s.log).picks, b)]
        else (tally r s.log).firsts⟩ := by
    rw [heff.log, List.append_cons, tally_concat, tally_concat]
    simp [Tally.next, lookEntry]
  refine ⟨?_, ?_, ?_⟩
  · rw [heff.health, heff.log, healthHistory_append, HealthManager.run_append, ← h.health]
  · rw [hbalancer, htally, Table.get?_insert_self, Nat.mod_add_mod]
  · rw [htally, heff.log]
    intro hstable hle
    obtain ⟨hbefore, hlook⟩ := atEach_append.1 hstable
    have hfirsts := h.firsts hbefore (Nat.le_of_succ_le hle)
    by_cases hseen : id ∈ (tally r s.log).seen
    · simpa [hseen] using hfirsts
    · -- a first choice is made among all eligible backends
      have hnone : attempted = [] := by
        by_contra hne
        exact hseen ((hasChosen_iff r s.log).1 (hchosen hne))
      have hE : s.candidates r attempted = E := by
        have helig := hlook [] _ _ rfl (by simp [lookEntry, Obs.looksAt])
        rw [List.append_nil, ← h.health] at helig
        simpa [Sys.candidates, hnone, lookEntry] using helig
      rw [hE, Nat.mod_eq_of_lt (Nat.lt_of_succ_le hle)] at hb
      rw [if_pos hseen]
      refine goesRound_append.2 ⟨hfirsts, fun p hp => ?_⟩
      rw [List.mem_singleton.1 hp]
      exact hb

/-- `select_backend` keeps the rotation. -/
theorem Rotates.select (h : Rotates P r E s)
    (hdistinct : ∀ route ∈ P.config.routes, route.pathPrefix = r.pathPrefix → route = r) {id : ℕ}
    {route : RouteConfig} {attempted : List String} (hroute : route ∈ P.config.routes)
    (hchosen : attempted ≠ [] → HasChosen id s.log) :
    Rotates P r E (s.selectBackend id route attempted).1 := by
  by_cases hcand : s.candidates route attempted = []
  · have hsel : s.balancer.selectBackend route (s.candidates route attempted) =
        (s.balancer, none) := by
      rw [hcand]
      rfl
    unfold Sys.selectBackend
    rw [hsel]
    exact h.next [lookEntry s.now id route] rfl rfl rfl rfl
  · by_cases hr : route = r
    · subst hr
      exact h.choose hchosen hcand
    · exact h.chooseOther (fun heq => hr (hdistinct route hroute heq.symm)) hcand

end

/-- **Rotation** is kept by all handlers. -/
theorem rotates_outline {P : Setup} {r : RouteConfig} (E : List String)
    (hdistinct : ∀ route ∈ P.config.routes, route.pathPrefix = r.pathPrefix → route = r) :
    Outline P fun _ s => Rotates P r E s where
  clock s t _ h := h.next [] (by simp) rfl rfl rfl
  permits p s n h := h.next [] (by simp) rfl rfl rfl
  check s c h := h.next [_] rfl rfl rfl rfl
  arrive s id request _ _ h := by
    obtain ⟨n, hn⟩ := requestId_fst ((s.emit (.arrived id request)).record .request) request
    rw [hn]
    exact h.next [(s.now, .arrived id request)] rfl rfl rfl rfl
  resume s id task job _ _ h := h
  record s id request rid c _ h := h.next [] (by simp [Sys.record]) rfl rfl rfl
  health s id request rid c h := h.next [_] rfl rfl rfl rfl
  select s id request rid route attempted hroute hchosen h := h.select hdistinct hroute hchosen
  attempt s id job b d elapsed h := h.next [_] rfl rfl rfl rfl
  complete s id request rid response h :=
    h.next [] (by simp [completeRequest, Sys.record]) rfl rfl rfl
  respond s id request rid response h := h.next [_] rfl rfl rfl rfl
  pause s id request rid response n length left h := h.next [_] rfl rfl rfl rfl
  setTask s id request rid task _ h := h.next [] (by simp [Sys.setTask]) rfl rfl rfl

theorem Setup.Reachable.rotates {P : Setup} (hv : P.config.validate P.url = .ok ())
    {r : RouteConfig} (hr : r ∈ P.config.routes) (hrr : r.balancing = .roundRobin) {s : Sys}
    (h : P.Reachable s) (E : List String) : Rotates P r E s := by
  have hnodup := Config.nodup_pathPrefix hv
  refine (rotates_outline E fun route hroute heq => ?_).reachable ⟨rfl, ?_, ?_⟩ h
  · exact List.inj_on_of_nodup_map hnodup hroute hr heq
  · have hnew := LoadBalancer.get?_new hnodup hr
    rw [hrr] at hnew
    exact hnew
  · exact fun _ _ => goesRound_nil

/-! ## Requests that choose more than once -/

/-- A request in this state may choose a backend once more without a further pause. -/
def Task.mayChoose : Task → ℕ
  | .buffering _ none _ | .sleeping _ _ _ _ _ => 1
  | _ => 0

section
variable {P : Setup} {m : HealthManager} {t id : ℕ} {e : Event} {old : Task}
  {os : List (ℕ × Obs)} {new : Task}

theorem Head.choiceCount_le {job : Job} {attempted : List String} {n : ℕ} {body : Bytes}
    (h : Head P m t id job attempted n body os new) : choiceCount os + new.mayChoose ≤ 1 := by
  cases h <;> simp [choiceCount, Obs.isChoice, lookEntry, Task.mayChoose]

theorem Trans.choiceCount_first_le (h : Trans P m t id e none os new) :
    choiceCount os + new.mayChoose ≤ 1 := by
  cases h with
  | answered _ hl => rcases hl with rfl | rfl <;> simp [choiceCount, Obs.isChoice, Task.mayChoose]
  | _ => simp [choiceCount, Obs.isChoice, lookEntry, Task.mayChoose]

/-- A further choice takes a pause. -/
theorem Trans.choiceCount_le (h : Trans P m t id e (some old) os new) :
    choiceCount os + new.mayChoose ≤ old.mayChoose + discards os := by
  cases h with
  | bufferedRetry hh => exact hh.choiceCount_le.trans (Nat.le_add_right _ _)
  | woken _ hh => exact hh.choiceCount_le.trans (Nat.le_add_right _ _)
  | @again job b attempted n body r os₁ new _ _ _ _ hh =>
    have hle := hh.choiceCount_le
    have hc : choiceCount [outcomeEntry P m t id job b (.retry attempted n body) r,
      (t, .pause id n 0 (P.totalTimeout - (t - job.started)))] = 0 := rfl
    have hd : discards [outcomeEntry P m t id job b (.retry attempted n body) r,
      (t, .pause id n 0 (P.totalTimeout - (t - job.started)))] = 1 := rfl
    rw [show ∀ o o' : ℕ × Obs, o :: o' :: os₁ = [o, o'] ++ os₁ from fun _ _ => rfl,
      choiceCount_append, discards_append, hc, hd]
    omega
  | @chunk job chosen _ _ _ _ => cases chosen <;> simp [choiceCount, discards, Task.mayChoose]
  | returned hnew _ =>
    rcases hnew with rfl | rfl <;>
      simp [choiceCount, Obs.isChoice, outcomeEntry, discards, Task.mayChoose]
  | _ => simp [choiceCount, Obs.isChoice, discards, outcomeEntry, Task.mayChoose]

end

/-- A request chooses at most once more than its responses are discarded. -/
theorem Story.choiceCount_le {P : Setup} {id : ℕ} {ok : Option Task → Event → Prop} {task : Task}
    {log : List (ℕ × Obs)} (h : Story P id ok (some task) log) :
    choiceCount log + task.mayChoose ≤ 1 + discards log := by
  refine h.rule (I := fun task log => choiceCount log + task.mayChoose ≤ 1 + discards log) ?_ ?_
  · intro m t e os new ht
    exact ht.choiceCount_first_le.trans (Nat.le_add_right _ _)
  · intro m t e old log os new _ ih _ ht
    have hle := ht.choiceCount_le
    rw [choiceCount_append, discards_append]
    omega

/-- Without a discarded response no request chooses twice. -/
theorem Setup.Reachable.seen_nodup {P : Setup} {s : Sys} (h : P.Reachable s) (r : RouteConfig)
    (hnone : discards s.log = 0) : (tally r s.log).seen.Nodup := by
  rw [List.nodup_iff_count_le_one]
  intro id
  rw [count_seen]
  have hstory := h.story id
  have hown : discards (entriesOf id s.log) = 0 :=
    Nat.le_zero.1 ((List.filter_sublist.countP_le).trans hnone.le)
  generalize s.tasks.get? id = old at hstory
  cases old with
  | none => simp [hstory.eq_nil, choiceCount]
  | some task =>
    have hle := hstory.choiceCount_le
    omega

/-! ## Fairness -/

/-- **Round robin over requests.**  Let the eligible backends of a round-robin route stay the same
    `n` different ones.  The backends that `n` consecutive requests choose first are all of them iff
    the numbers of selections made on the route before these choices are different modulo `n`; in
    particular they are when no response has been discarded for another attempt. -/
theorem first_choices_go_round_iff {P : Setup} (hv : P.config.validate P.url = .ok ())
    {r : RouteConfig} (hr : r ∈ P.config.routes) (hrr : r.balancing = .roundRobin) {s : Sys}
    (h : P.Reachable s) {E : List String} (hE : E.Nodup) (hstable : Stable P r E s.log)
    (hpicks : (tally r s.log).picks < 2 ^ 64) {before w after : List (ℕ × String)}
    (hw : (tally r s.log).firsts = before ++ w ++ after) (hlen : w.length = E.length) :
    ((w.map (·.2)).Perm E ↔ (w.map (·.1 % E.length)).Nodup) ∧
      (discards s.log = 0 → (w.map (·.2)).Perm E) := by
  have hround := (h.rotates hv hr hrr E).firsts hstable hpicks.le
  rw [hw, goesRound_append, goesRound_append] at hround
  refine ⟨hround.1.2.perm_iff hE hlen, fun hnone => ?_⟩
  have hrange := firsts_eq_range r s.log (h.seen_nodup r hnone)
  rw [hw, List.map_append, List.map_append] at hrange
  -- a part of the range is a range
  obtain ⟨k, -, hleft, -⟩ := List.range'_eq_append_iff.1 hrange.symm
  obtain ⟨k', -, -, hmid⟩ := List.range'_eq_append_iff.1 hleft.symm
  refine hround.1.2.perm_of_consecutive hE (k := 0 + k' * 1) ?_
  rw [hmid, ← hlen]
  have := congrArg List.length hmid
  rw [List.length_map, List.length_range'] at this
  rw [this]

/-- The route of the runs on fixed inputs. -/
def smallRoute : RouteConfig :=
  { pathPrefix := "/api", backends := ["http://127.0.0.1:3001", "http://127.0.0.1:3002"] }

/-- Three `GET`s that are not retried: the last two of them choose both backends. -/
theorem three_gets_rotate :
    let P := small smallRoute.backends 3 1 1
    let w := [(1, "http://127.0.0.1:3002"), (2, "http://127.0.0.1:3001")]
    ∃ s, exec (step P) P.initial [(1, .arrive 1 (smallRequest .get)),
        (2, .resolved 1 (.response 200 [])), (3, .arrive 2 (smallRequest .get)),
        (4, .resolved 2 (.response 200 [])), (5, .arrive 3 (smallRequest .get))] = some s ∧
      (tally smallRoute s.log).firsts = (0, "http://127.0.0.1:3001") :: w ∧
      (w.map (·.2)).Perm smallRoute.backends := by
  intro P w
  obtain ⟨s, hs, hp⟩ := exists_of_exec_any (step P) P.initial
    [(1, .arrive 1 (smallRequest .get)), (2, .resolved 1 (.response 200 [])),
      (3, .arrive 2 (smallRequest .get)), (4, .resolved 2 (.response 200 [])),
      (5, .arrive 3 (smallRequest .get))]
    (fun s => Stable P smallRoute smallRoute.backends s.log ∧
      (tally smallRoute s.log).picks = 3 ∧ discards s.log = 0 ∧
      (tally smallRoute s.log).firsts = (0, "http://127.0.0.1:3001") :: w) (by decide +kernel)
  obtain ⟨hstable, hpicks, hnone, hfirsts⟩ := of_decide_eq_true hp
  refine ⟨s, hs, hfirsts, ?_⟩
  have hfair := first_choices_go_round_iff (P := P) (r := smallRoute) (by decide +kernel)
    (by decide +kernel) rfl (P.reachable_of_exec hs) (by decide +kernel) hstable (by omega)
    (hfirsts.trans (List.append_nil _).symm : _ = [_] ++ w ++ []) rfl
  exact hfair.2 hnone

/-- A `GET` whose first backend answers 503 and whose second one answers 200, and then another
    `GET`: both choose the first backend first, although both backends stay eligible. -/
theorem retry_shifts_rotation :
    let P := small smallRoute.backends 3 2 1
    let w := [(0, "http://127.0.0.1:3001"), (2, "http://127.0.0.1:3001")]
    P.config.validate P.url = .ok () ∧
    ∃ s, exec (step P) P.initial [(1, .arrive 1 (smallRequest .get)), (2, .body 1 none),
        (3, .resolved 1 (.response 503 [])), (50000003, .wake 1),
        (50000004, .resolved 1 (.response 200 [])), (50000005, .arrive 2 (smallRequest .get)),
        (50000006, .body 2 none)] = some s ∧
      Stable P smallRoute smallRoute.backends s.log ∧ (tally smallRoute s.log).picks = 3 ∧
      (tally smallRoute s.log).firsts = w ∧ w.length = smallRoute.backends.length ∧
      ¬ (w.map (·.2)).Perm smallRoute.backends := by
  intro P w
  obtain ⟨s, hs, hp⟩ := exists_of_exec_any (step P) P.initial
    [(1, .arrive 1 (smallRequest .get)), (2, .body 1 none), (3, .resolved 1 (.response 503 [])),
      (50000003, .wake 1), (50000004, .resolved 1 (.response 200 [])),
      (50000005, .arrive 2 (smallRequest .get)), (50000006, .body 2 none)]
    (fun s => Stable P smallRoute smallRoute.backends s.log ∧
      (tally smallRoute s.log).picks = 3 ∧ (tally smallRoute s.log).firsts = w) (by decide +kernel)
  obtain ⟨hstable, hpicks, hfirsts⟩ := of_decide_eq_true hp
  exact ⟨by decide +kernel, s, hs, hstable, hpicks, hfirsts, rfl, by decide +kernel⟩

end FerrumProxy
