/-
  Any interleaving of calls of the load balancer.

  What `select_backend` does on a route depends on the entry of this route alone, and
  changes no other (`LoadBalancer.Local`).  So the calls on the other routes, and the
  ones without a candidate, can be left out (`trace_own`).  What is left of a
  round-robin route is a counter that goes up by one with every call, whatever the
  candidates are, and within a stretch of calls on the same candidates every position
  has its turn equally often.
-/
import FerrumProxy.Balancing
import FerrumProxy.Lib.Cycles

namespace FerrumProxy

open Lib

namespace LoadBalancer

/-! ## Calls -/

/-- A call of `select_backend`: the route and its candidates. -/
abbrev Call := RouteConfig × List String

/-- The balancer after some calls. -/
def after (L : LoadBalancer) (calls : List Call) : LoadBalancer :=
  calls.foldl (fun L c => (L.selectBackend c.1 c.2).1) L

/-- What `f` says at each of the calls. -/
def trace {β : Type} (f : LoadBalancer → Call → β) : LoadBalancer → List Call → List β
  | _, [] => []
  | L, c :: cs => f L c :: trace f (L.selectBackend c.1 c.2).1 cs

/-- The answers of `select_backend`. -/
def answers : LoadBalancer → List Call → List (Option String) :=
  trace fun L c => (L.selectBackend c.1 c.2).2

/-- The position in its candidates that `select_backend` chooses. -/
def position (L : LoadBalancer) (c : Call) : Option ℕ :=
  if c.2.isEmpty then none
  else
    match L.routes.get? c.1.pathPrefix with
    | some ⟨.roundRobin, counter⟩ => some (counter % c.2.length)
    | _ => some 0

/-- The position of a call on the route `r` with a candidate, with the candidates and the answer. -/
structure Turn where
  candidates : List String
  position : ℕ
  answer : Option String
deriving DecidableEq, Repr

/-- The call is on the route `r` and has a candidate. -/
def own (r : RouteConfig) (c : Call) : Bool := c.1 = r && !c.2.isEmpty

/-- The turns of the route `r` in an interleaving of calls. -/
def turns (r : RouteConfig) (L : LoadBalancer) (calls : List Call) : List Turn :=
  ((calls.zip (trace (fun L c => (L.position c, (L.selectBackend c.1 c.2).2)) L calls)).filter
    fun p => own r p.1).filterMap fun p => p.2.1.map fun i => ⟨p.1.2, i, p.2.2⟩

/-- The answer is the candidate at the chosen position. -/
theorem selectBackend_eq_position (L : LoadBalancer) (c : Call) :
    (L.selectBackend c.1 c.2).2 = (L.position c).bind (c.2[·]?) := by
  unfold selectBackend position
  split_ifs with h
  · rfl
  · rcases hL : L.routes.get? c.1.pathPrefix with _ | ⟨_ | _, counter⟩
    · simp [List.head?_eq_getElem?]
    · simp [RouteBalancer.select]
    · simp [RouteBalancer.select, List.head?_eq_getElem?]

/-! ## Isolation -/

section
variable {β : Type} {f : LoadBalancer → Call → β} {r : RouteConfig} {L L' : LoadBalancer}

/-- What `f` says about a call depends on the entry of its route alone. -/
def Local (f : LoadBalancer → Call → β) : Prop :=
  ∀ (L L' : LoadBalancer) (c : Call),
    L.routes.get? c.1.pathPrefix = L'.routes.get? c.1.pathPrefix → f L c = f L' c

theorem local_answer : Local fun L c => (L.selectBackend c.1 c.2).2 := by
  intro L L' c h
  show (L.selectBackend c.1 c.2).2 = (L'.selectBackend c.1 c.2).2
  rw [selectBackend_eq_position, selectBackend_eq_position, position, position, h]

theorem local_position : Local position := by
  intro L L' c h
  rw [position, position, h]

/-- The entry of a route after a call on it depends on its entry before. -/
theorem get?_selectBackend_congr {backends : List String}
    (h : L.routes.get? r.pathPrefix = L'.routes.get? r.pathPrefix) :
    (L.selectBackend r backends).1.routes.get? r.pathPrefix =
      (L'.selectBackend r backends).1.routes.get? r.pathPrefix := by
  unfold selectBackend
  split_ifs with hnil
  · exact h
  · rw [← h]
    cases hL : L.routes.get? r.pathPrefix with
    | none => rw [← h, hL]
    | some B => simp

/-- A call that is not the route's own does not change its entry. -/
theorem get?_selectBackend_of_not_own {routes : List RouteConfig}
    (hroutes : (routes.map (·.pathPrefix)).Nodup) (hr : r ∈ routes) {c : Call}
    (hc : c.1 ∈ routes) (hown : own r c = false) :
    (L.selectBackend c.1 c.2).1.routes.get? r.pathPrefix = L.routes.get? r.pathPrefix := by
  by_cases hcr : c.1 = r
  · -- a call on the route without a candidate
    have hnil : c.2.isEmpty := by simpa [own, hcr] using hown
    unfold selectBackend
    rw [if_pos hnil]
  · refine get?_selectBackend_ne L c.1 c.2 fun heq => hcr ?_
    exact (List.inj_on_of_nodup_map hroutes hr hc heq).symm

/-- **Isolation.** On the calls of a route of its own, an interleaving says what these calls say
    when they are made alone. -/
theorem trace_own (hf : Local f) {routes : List RouteConfig}
    (hroutes : (routes.map (·.pathPrefix)).Nodup) (hr : r ∈ routes) {calls : List Call}
    (hcalls : ∀ c ∈ calls, c.1 ∈ routes)
    (h : L.routes.get? r.pathPrefix = L'.routes.get? r.pathPrefix) :
    (calls.zip (trace f L calls)).filter (fun p => own r p.1) =
      (calls.filter (own r)).zip (trace f L' (calls.filter (own r))) := by
  induction calls generalizing L L' with
  | nil => rfl
  | cons c cs ih =>
    obtain ⟨hc, hcs⟩ := List.forall_mem_cons.1 hcalls
    rw [trace, List.zip_cons_cons]
    cases hown : own r c with
    | true =>
      obtain rfl : c.1 = r := by
        simp only [own, Bool.and_eq_true, decide_eq_true_eq] at hown
        exact hown.1
      simp only [List.filter_cons, hown, ↓reduceIte, trace, List.zip_cons_cons]
      rw [hf L L' c h, ih hcs (get?_selectBackend_congr h)]
    | false =>
      simp only [List.filter_cons, hown, Bool.false_eq_true, ↓reduceIte]
      exact ih hcs ((get?_selectBackend_of_not_own hroutes hr hc hown).trans h)

end

/-! ## Even rotation -/

section
variable {r : RouteConfig} {L : LoadBalancer} {counter : ℕ}

/-- The turn of a call at the given value of the counter. -/
def turnAt (c : Call) (counter : ℕ) : Turn :=
  ⟨c.2, counter % c.2.length, c.2[counter % c.2.length]?⟩

/-- Calls on a round-robin route alone: the counter goes up by one with each of them. -/
theorem zip_trace_alone {calls : List Call} (hown : ∀ c ∈ calls, own r c)
    (hL : L.routes.get? r.pathPrefix = some ⟨.roundRobin, counter % 2 ^ 64⟩)
    (hsmall : counter + calls.length ≤ 2 ^ 64) :
    (calls.zip (trace (fun L c => (L.position c, (L.selectBackend c.1 c.2).2)) L calls)).filterMap
        (fun p => p.2.1.map fun i => (⟨p.1.2, i, p.2.2⟩ : Turn)) =
      (calls.zipIdx counter).map fun p => turnAt p.1 p.2 := by
  induction calls generalizing L counter with
  | nil => rfl
  | cons c cs ih =>
    obtain ⟨hc, hcs⟩ := List.forall_mem_cons.1 hown
    obtain ⟨rfl, hne⟩ : c.1 = r ∧ c.2 ≠ [] := by simpa [own] using hc
    rw [List.length_cons] at hsmall
    have hnext : (L.selectBackend c.1 c.2).1.routes.get? c.1.pathPrefix =
        some ⟨.roundRobin, (counter + 1) % 2 ^ 64⟩ := by
      rw [selectBackend_roundRobin hL hne, Table.get?_insert_self, Nat.mod_add_mod]
    -- the counter has not come round
    rw [Nat.mod_eq_of_lt (by omega)] at hL
    have hposition : L.position c = some (counter % c.2.length) := by
      unfold position
      rw [if_neg (by simpa using hne), hL]
    have hanswer : (L.selectBackend c.1 c.2).2 = c.2[counter % c.2.length]? := by
      rw [selectBackend_eq_position, hposition, Option.bind_some]
    have hrest := ih hcs hnext (by omega)
    rw [trace, List.zip_cons_cons, List.zipIdx_cons, List.map_cons, ← hrest, List.filterMap_cons,
      hposition, hanswer]
    rfl

/-- **The turns of a round-robin route** in any interleaving. -/
theorem turns_eq {routes : List RouteConfig} (hroutes : (routes.map (·.pathPrefix)).Nodup)
    (hr : r ∈ routes) {calls : List Call} (hcalls : ∀ c ∈ calls, c.1 ∈ routes)
    (hL : L.routes.get? r.pathPrefix = some ⟨.roundRobin, counter % 2 ^ 64⟩)
    (hsmall : counter + calls.length ≤ 2 ^ 64) :
    turns r L calls = ((calls.filter (own r)).zipIdx counter).map fun p => turnAt p.1 p.2 := by
  have hlocal : Local fun L c => (L.position c, (L.selectBackend c.1 c.2).2) :=
    fun L L' c h => Prod.ext (local_position L L' c h) (local_answer L L' c h)
  have hle := List.length_filter_le (own r) calls
  unfold turns
  rw [trace_own hlocal hroutes hr hcalls rfl]
  exact zip_trace_alone (fun c hc => (List.mem_filter.1 hc).2) hL (by omega)

/-- In every stretch of turns on the same candidates, each position is chosen equally often, up to
    one. -/
def EvenTurns (ts : List Turn) : Prop :=
  ∀ before block rest l, ts = before ++ block ++ rest → (∀ t ∈ block, t.candidates = l) →
    ∀ j < l.length, (block.map (·.position)).count j = block.length / l.length ∨
      (block.map (·.position)).count j = (block.length + l.length - 1) / l.length

theorem evenTurns_zipIdx (own : List Call) (counter : ℕ) :
    EvenTurns ((own.zipIdx counter).map fun p => turnAt p.1 p.2) := by
  intro before block rest l hturns hl j hj
  obtain ⟨ps, ps₃, hps, hps₁₂, -⟩ := List.map_eq_append_iff.1 hturns
  obtain ⟨ps₁, ps₂, rfl, -, rfl⟩ := List.map_eq_append_iff.1 hps₁₂
  obtain ⟨cs, cs₃, rfl, hcs, -⟩ := List.zipIdx_eq_append_iff.1 hps
  obtain ⟨cs₁, cs₂, rfl, -, rfl⟩ := List.zipIdx_eq_append_iff.1 hcs.symm
  have hpositions : ((cs₂.zipIdx (counter + cs₁.length)).map fun p => turnAt p.1 p.2).map
      (·.position) = (List.range' (counter + cs₁.length) cs₂.length).map (· % l.length) := by
    rw [← List.zipIdx_map_snd, List.map_map, List.map_map]
    refine List.map_congr_left fun p hp => ?_
    have hp := hl _ (List.mem_map_of_mem hp)
    show p.2 % p.1.2.length = p.2 % l.length
    rw [← hp]
    rfl
  rw [hpositions, List.length_map, List.length_zipIdx]
  exact count_range'_mod hj _ _

/-- From any value of the counter on, as long as it does not come round. -/
theorem evenTurns_turns {routes : List RouteConfig} (hroutes : (routes.map (·.pathPrefix)).Nodup)
    (hr : r ∈ routes) {calls : List Call} (hcalls : ∀ c ∈ calls, c.1 ∈ routes)
    (hL : L.routes.get? r.pathPrefix = some ⟨.roundRobin, counter⟩)
    (hsmall : counter + calls.length ≤ 2 ^ 64) : EvenTurns (turns r L calls) := by
  by_cases hnil : calls = []
  · subst hnil
    exact evenTurns_zipIdx [] 0
  · have hpos := List.length_pos_of_ne_nil hnil
    rw [turns_eq hroutes hr hcalls (by rw [hL, Nat.mod_eq_of_lt (by omega)]) hsmall]
    exact evenTurns_zipIdx _ _

end

theorem exists_position (L : LoadBalancer) {c : Call} (h : c.2 ≠ []) :
    ∃ i, L.position c = some i := by
  unfold position
  rw [if_neg (by simpa using h)]
  split
  · exact ⟨_, rfl⟩
  · exact ⟨_, rfl⟩

@[simp] theorem length_trace {β : Type} (f : LoadBalancer → Call → β) (L : LoadBalancer)
    (calls : List Call) : (trace f L calls).length = calls.length := by
  induction calls generalizing L with
  | nil => rfl
  | cons c cs ih => rw [trace, List.length_cons, List.length_cons, ih]

theorem exists_of_mem_zip_trace {β : Type} {f : LoadBalancer → Call → β} {L : LoadBalancer}
    {calls : List Call} {p : Call × β} (hp : p ∈ calls.zip (trace f L calls)) :
    ∃ L', p.2 = f L' p.1 := by
  induction calls generalizing L with
  | nil => cases hp
  | cons c cs ih =>
    rw [trace, List.zip_cons_cons] at hp
    rcases List.mem_cons.1 hp with rfl | hp
    · exact ⟨L, rfl⟩
    · exact ih hp

section
variable (r : RouteConfig) (L : LoadBalancer) (calls : List Call)

/-- The turns of a route are its own calls with their answers. -/
theorem turns_map :
    (turns r L calls).map (fun t => (t.candidates, t.answer)) =
      ((calls.zip (answers L calls)).filter fun p => own r p.1).map fun p => (p.1.2, p.2) := by
  unfold turns answers
  induction calls generalizing L with
  | nil => rfl
  | cons c cs ih =>
    simp only [trace, List.zip_cons_cons, List.filter_cons]
    cases hown : own r c with
    | false => exact ih _
    | true =>
      have hne : c.2 ≠ [] := by
        simp only [own, Bool.and_eq_true, Bool.not_eq_true', List.isEmpty_eq_false_iff] at hown
        exact hown.2
      obtain ⟨i, hi⟩ := exists_position L hne
      simp only [↓reduceIte, List.filterMap_cons, hi, Option.map_some, List.map_cons, ih]

/-- A turn answers with the candidate at its position. -/
theorem answer_of_mem_turns {t : Turn} (ht : t ∈ turns r L calls) :
    t.answer = t.candidates[t.position]? := by
  obtain ⟨p, hp, hpt⟩ := List.mem_filterMap.1 ht
  obtain ⟨L', hL'⟩ := exists_of_mem_zip_trace (List.mem_filter.1 hp).1
  rw [hL'] at hpt
  obtain ⟨i, hi, rfl⟩ := Option.map_eq_some_iff.1 hpt
  show (L'.selectBackend p.1.1 p.1.2).2 = p.1.2[i]?
  rw [selectBackend_eq_position, show L'.position p.1 = some i from hi, Option.bind_some]

end

/-- **Even and isolated rotation.** In any interleaving of fewer than `2 ^ 64` calls over routes
    with distinct prefixes, starting with a new balancer or at any value of the counters (as long
    as these do not come round), a round-robin route gives its positions equal turns, up to one, in
    every stretch of calls on the same candidates; and its answers are those that its calls with a
    candidate get when no other call is made. -/
theorem rotation_even_and_isolated {routes : List RouteConfig}
    (hroutes : (routes.map (·.pathPrefix)).Nodup) {calls : List Call}
    (hcalls : ∀ c ∈ calls, c.1 ∈ routes) (hfew : calls.length < 2 ^ 64) {r : RouteConfig}
    (hr : r ∈ routes) :
    (r.balancing = .roundRobin → EvenTurns (turns r (new routes) calls)) ∧
      (∀ L counter, L.routes.get? r.pathPrefix = some ⟨.roundRobin, counter⟩ →
        counter + calls.length ≤ 2 ^ 64 → EvenTurns (turns r L calls)) ∧
      ∀ L,
        (turns r L calls).map (fun t => (t.candidates, t.answer)) =
            ((calls.zip (answers L calls)).filter fun p => own r p.1).map (fun p => (p.1.2, p.2)) ∧
          (∀ t ∈ turns r L calls, t.answer = t.candidates[t.position]?) ∧
          ((calls.zip (answers L calls)).filter fun p => own r p.1).map (·.2) =
            answers L (calls.filter (own r)) ∧
          ∀ p ∈ calls.zip (answers L calls), p.1.2 = [] → p.2 = none := by
  refine ⟨fun hrr => ?_, fun L counter hL hsmall => ?_, fun L => ⟨turns_map r L calls, ?_, ?_, ?_⟩⟩
  · have hnew := get?_new hroutes hr
    rw [hrr] at hnew
    exact evenTurns_turns hroutes hr hcalls hnew (by omega)
  · exact evenTurns_turns hroutes hr hcalls hL hsmall
  · exact fun t ht => answer_of_mem_turns r L calls ht
  · unfold answers
    rw [trace_own local_answer hroutes hr hcalls rfl, List.map_snd_zip (by simp)]
  · intro p hp hnil
    obtain ⟨L', hL'⟩ := exists_of_mem_zip_trace hp
    rw [hL', hnil]
    rfl

/-- Two routes, with candidates that change and a call without any. -/
theorem rotation_even_between_two_routes :
    let r₁ : RouteConfig := { pathPrefix := "/a", backends := ["x", "y", "z"] }
    let r₂ : RouteConfig := { pathPrefix := "/b", backends := ["x", "y"] }
    let calls : List Call := [(r₁, ["x", "y", "z"]), (r₂, ["x", "y"]), (r₁, []), (r₁, ["y", "z"]),
      (r₂, ["x", "y"]), (r₁, ["y", "z"]), (r₁, ["y", "z"])]
    EvenTurns (turns r₁ (new [r₁, r₂]) calls) ∧
      turns r₁ (new [r₁, r₂]) calls = [⟨["x", "y", "z"], 0, some "x"⟩, ⟨["y", "z"], 1, some "z"⟩,
        ⟨["y", "z"], 0, some "y"⟩, ⟨["y", "z"], 1, some "z"⟩] ∧
      answers (new [r₁, r₂]) (calls.filter (own r₁)) = [some "x", some "z", some "y", some "z"] := by
  intro r₁ r₂ calls
  have hroutes : ([r₁, r₂].map (·.pathPrefix)).Nodup := by decide +kernel
  have hcalls : ∀ c ∈ calls, c.1 ∈ [r₁, r₂] := by decide +kernel
  have hr : r₁ ∈ [r₁, r₂] := by simp
  obtain ⟨heven, -, hrest⟩ := rotation_even_and_isolated hroutes hcalls (by decide) hr
  obtain ⟨-, -, hisolated, -⟩ := hrest (new [r₁, r₂])
  refine ⟨heven rfl, by decide +kernel, ?_⟩
  rw [← hisolated]
  decide +kernel

end LoadBalancer

end FerrumProxy
