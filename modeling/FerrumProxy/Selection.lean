/-
  What `select_backend` answers.

  Its three sources are built separately from the configuration: the routes, the
  health map and the balancer map.  Whatever the health manager and the balancer have
  been called with since (`Setup.Served`), every backend of a route has a health
  entry and every route a balancer with its strategy, so that neither of the fallback
  branches is taken.
-/
import FerrumProxy.Fairness
import FerrumProxy.Effects

namespace FerrumProxy

open Lib HealthManager

/-! ## The balancer of a route -/

namespace LoadBalancer

variable {routes : List RouteConfig} {L : LoadBalancer} {r : RouteConfig}

/-- Every route has a balancer with its strategy. -/
def Serves (routes : List RouteConfig) (L : LoadBalancer) : Prop :=
  ∀ r ∈ routes, ∃ counter, L.routes.get? r.pathPrefix = some ⟨r.balancing, counter⟩

theorem serves_new (hroutes : (routes.map (·.pathPrefix)).Nodup) : Serves routes (new routes) :=
  fun _ hr => ⟨0, get?_new hroutes hr⟩

/-- A call keeps the strategies. -/
theorem Serves.selectBackend (h : Serves routes L) (hroutes : (routes.map (·.pathPrefix)).Nodup)
    {route : RouteConfig} (hroute : route ∈ routes) (backends : List String) :
    Serves routes (L.selectBackend route backends).1 := by
  intro r hr
  by_cases hne : r.pathPrefix = route.pathPrefix
  · obtain rfl : r = route := List.inj_on_of_nodup_map hroutes hr hroute hne
    obtain ⟨counter, hL⟩ := h r hr
    unfold LoadBalancer.selectBackend
    split_ifs with hnil
    · exact ⟨counter, hL⟩
    · rw [hL]
      simp only [Table.get?_insert_self, Option.some.injEq, RouteBalancer.select]
      cases r.balancing with
      | roundRobin => exact ⟨_, rfl⟩
      | firstHealthy => exact ⟨_, rfl⟩
  · rw [get?_selectBackend_ne L route backends hne]
    exact h r hr

theorem Serves.after (h : Serves routes L) (hroutes : (routes.map (·.pathPrefix)).Nodup)
    {calls : List Call} (hcalls : ∀ c ∈ calls, c.1 ∈ routes) : Serves routes (L.after calls) := by
  induction calls generalizing L with
  | nil => exact h
  | cons c cs ih =>
    obtain ⟨hc, hcs⟩ := List.forall_mem_cons.1 hcalls
    exact ih (h.selectBackend hroutes hc c.2) hcs

/-- A `first_healthy` route gets its first candidate, and no counter changes. -/
theorem Serves.firstHealthy (h : Serves routes L) (hr : r ∈ routes)
    (hfirst : r.balancing = .firstHealthy) (backends : List String) :
    (L.selectBackend r backends).2 = backends.head? ∧
      ∀ p, (L.selectBackend r backends).1.routes.get? p = L.routes.get? p := by
  obtain ⟨counter, hL⟩ := h r hr
  rw [hfirst] at hL
  unfold LoadBalancer.selectBackend
  split_ifs with hnil
  · rw [List.isEmpty_iff.1 hnil]
    exact ⟨rfl, fun _ => rfl⟩
  · rw [hL]
    refine ⟨rfl, fun p => ?_⟩
    by_cases hp : p = r.pathPrefix
    · rw [hp, Table.get?_insert_self, hL]
      rfl
    · exact Table.get?_insert_ne _ _ hp

theorem selectBackend_nil : L.selectBackend r [] = (L, none) := rfl

end LoadBalancer

namespace Sys

variable (s : Sys) (id : ℕ) (route : RouteConfig) (attempted : List String)

theorem selectBackend_snd : (s.selectBackend id route attempted).2 =
    (s.balancer.selectBackend route (s.candidates route attempted)).2 := by
  unfold selectBackend
  rcases s.balancer.selectBackend route (s.candidates route attempted) with ⟨L, _ | b⟩ <;> rfl

theorem balancer_selectBackend : (s.selectBackend id route attempted).1.balancer =
    (s.balancer.selectBackend route (s.candidates route attempted)).1 := by
  unfold selectBackend
  rcases s.balancer.selectBackend route (s.candidates route attempted) with ⟨L, _ | b⟩ <;> rfl

end Sys

/-! ## What the shared components have been through -/

/-- The health manager and the balancer of `s` have been called with `h` and `calls`, in any
    interleaving. -/
structure Setup.Served (P : Setup) (h : History) (calls : List LoadBalancer.Call) (s : Sys) :
    Prop where
  health : s.health = P.initial.health.run h
  chronological : Chronological h
  past : ∀ e ∈ h, e.1 ≤ s.now
  balancer : s.balancer = (LoadBalancer.new P.config.routes).after calls
  routes : ∀ c ∈ calls, c.1 ∈ P.config.routes

/-- The balancer has been called for configured routes only. -/
def CallsOnly (P : Setup) (s : Sys) : Prop :=
  ∃ calls : List LoadBalancer.Call, (∀ c ∈ calls, c.1 ∈ P.config.routes) ∧
    s.balancer = (LoadBalancer.new P.config.routes).after calls

theorem CallsOnly.select {P : Setup} {s : Sys} (h : CallsOnly P s) {route : RouteConfig}
    (hroute : route ∈ P.config.routes) (id : ℕ) (attempted : List String) :
    CallsOnly P (s.selectBackend id route attempted).1 := by
  obtain ⟨calls, hcalls, hL⟩ := h
  refine ⟨calls ++ [(route, s.candidates route attempted)], ?_, ?_⟩
  · intro c hc
    rcases List.mem_append.1 hc with hc | hc
    · exact hcalls c hc
    · rw [List.mem_singleton.1 hc]
      exact hroute
  · rw [Sys.balancer_selectBackend, hL, LoadBalancer.after, LoadBalancer.after, List.foldl_append]
    rfl

theorem callsOnly_outline (P : Setup) : Outline P fun _ s => CallsOnly P s where
  clock _ _ _ h := h
  permits _ _ _ h := h
  check _ _ h := h
  arrive s id request _ _ h := by
    obtain ⟨n, hn⟩ := requestId_fst ((s.emit (.arrived id request)).record .request) request
    rw [hn]
    exact h
  resume _ _ _ _ _ _ h := h
  record _ _ _ _ _ _ h := h
  health _ _ _ _ _ h := h
  select s id _ _ route attempted hroute _ h := h.select hroute id attempted
  attempt _ _ _ _ _ _ h := h
  complete _ _ _ _ _ h := h
  respond _ _ _ _ _ h := h
  pause _ _ _ _ _ _ _ _ h := h
  setTask _ _ _ _ _ _ h := h

/-- Every reachable state is one of these, at any later instant. -/
theorem Setup.Reachable.served {P : Setup} {s : Sys} (h : P.Reachable s) {t : ℕ} (ht : s.now ≤ t) :
    ∃ calls, P.Served (healthHistory s.log) calls { s with now := t } := by
  have hrep := h.replays
  obtain ⟨calls, hcalls, hL⟩ := (callsOnly_outline P).reachable ⟨[], by simp, rfl⟩ h
  exact ⟨calls, hrep.health, chronological_healthHistory hrep.ordered,
    healthHistory_past fun e he => (hrep.past e he).trans ht, hL, hcalls⟩

section
variable {P : Setup} {h : History} {calls : List LoadBalancer.Call} {s : Sys} {route : RouteConfig}

/-- Every backend of a route has a health entry. -/
theorem Setup.Served.isSome (hs : P.Served h calls s) (hr : route ∈ P.config.routes) {b : String}
    (hb : b ∈ route.backends) : (s.health.backendHealth.get? b).isSome := by
  rw [hs.health]
  exact (P.fresh.isSome_iff h b).2 ⟨route, hr, hb⟩

/-- **The candidates** are the backends that are outside every window and not attempted. -/
theorem Setup.Served.candidates (hs : P.Served h calls s) (hr : route ∈ P.config.routes)
    (attempted : List String) :
    s.candidates route attempted = route.backends.filter fun b => decide
      (¬ Covered P.initial.health.ejectionDuration (P.initial.health.ejections b h) s.now ∧
        b ∉ attempted) := by
  unfold Sys.candidates
  rw [healthyBackends_eq, List.filter_filter]
  refine List.filter_congr fun b hb => ?_
  obtain ⟨st, hst⟩ := Option.isSome_iff_exists.1 (hs.isSome hr hb)
  have helig := P.fresh.eligible_iff hs.chronological hs.past (hs.health ▸ hst)
  rw [hst, Option.any_some, Bool.eq_iff_iff, Bool.and_eq_true, helig]
  simp [and_comm]

end

/-- **Selection.** In every state that the health manager and the balancer of a validated
    configuration can be brought to, all reachable ones among them, `select_backend` answers `None`
    iff every backend of the route is inside an ejection window or attempted, and then no counter
    changes; otherwise it answers a backend of the route that is neither, for `first_healthy` the
    first one, with all counters as they were.  Every route has its balancer and every backend its
    health entry. -/
theorem selectBackend_sound_and_complete {P : Setup} (hv : P.config.validate P.url = .ok ()) :
    (∀ s, P.Reachable s → ∀ t, s.now ≤ t →
      ∃ calls, P.Served (healthHistory s.log) calls { s with now := t }) ∧
      ∀ h calls s, P.Served h calls s → ∀ route ∈ P.config.routes, ∀ id attempted,
        let ejected := fun b =>
          Covered P.initial.health.ejectionDuration (P.initial.health.ejections b h) s.now
        let result := s.selectBackend id route attempted
        (result.2 = none ↔ ∀ b ∈ route.backends, ejected b ∨ b ∈ attempted) ∧
          (result.2 = none → result.1.balancer = s.balancer) ∧
          (∀ b, result.2 = some b → b ∈ route.backends ∧ ¬ ejected b ∧ b ∉ attempted) ∧
          (route.balancing = .firstHealthy →
            result.2 = route.backends.find? (fun b => decide (¬ ejected b ∧ b ∉ attempted)) ∧
              ∀ p, result.1.balancer.routes.get? p = s.balancer.routes.get? p) ∧
          (∃ counter, s.balancer.routes.get? route.pathPrefix = some ⟨route.balancing, counter⟩) ∧
          ∀ b ∈ route.backends, (s.health.backendHealth.get? b).isSome := by
  refine ⟨fun s hs t ht => hs.served ht, ?_⟩
  intro h calls s hs route hr id attempted ejected result
  have hroutes := Config.nodup_pathPrefix hv
  have hserves : s.balancer.Serves P.config.routes := by
    rw [hs.balancer]
    exact (LoadBalancer.serves_new hroutes).after hroutes hs.routes
  have hcand : s.candidates route attempted =
      route.backends.filter fun b => decide (¬ ejected b ∧ b ∉ attempted) :=
    hs.candidates hr attempted
  have hnil : s.candidates route attempted = [] ↔
      ∀ b ∈ route.backends, ejected b ∨ b ∈ attempted := by
    rw [hcand, List.filter_eq_nil_iff]
    refine forall₂_congr fun b _ => ?_
    rw [decide_eq_true_eq, not_and_or, not_not, not_not]
  have hsnd : result.2 = (s.balancer.selectBackend route (s.candidates route attempted)).2 :=
    s.selectBackend_snd id route attempted
  have hbalancer : result.1.balancer =
      (s.balancer.selectBackend route (s.candidates route attempted)).1 :=
    s.balancer_selectBackend id route attempted
  have hnone : result.2 = none ↔ s.candidates route attempted = [] := by
    rw [hsnd, LoadBalancer.selectBackend_eq_none]
  refine ⟨hnone.trans hnil, fun hn => ?_, fun b hb => ?_, fun hfirst => ?_, hserves route hr,
    fun b hb => hs.isSome hr hb⟩
  · rw [hbalancer, hnone.1 hn, LoadBalancer.selectBackend_nil]
  · rw [hsnd] at hb
    have hmem := LoadBalancer.selectBackend_mem hb
    rw [hcand] at hmem
    obtain ⟨hroute, hout⟩ := List.mem_filter.1 hmem
    exact ⟨hroute, of_decide_eq_true hout⟩
  · obtain ⟨hhead, hkeep⟩ := hserves.firstHealthy hr hfirst (s.candidates route attempted)
    rw [hbalancer, hsnd, hhead, hcand, List.head?_filter]
    rw [hcand] at hkeep
    exact ⟨rfl, hkeep⟩

/-- One of two backends was ejected two instants ago. -/
theorem selectBackend_leaves_out_ejected :
    let P := small ["http://127.0.0.1:3001", "http://127.0.0.1:3002"] 1 1 1
    let route : RouteConfig :=
      { pathPrefix := "/api", backends := ["http://127.0.0.1:3001", "http://127.0.0.1:3002"] }
    let h : History := [(5, .recordFailure "http://127.0.0.1:3001")]
    let s := { P.initial with health := P.initial.health.run h, now := 7 }
    P.Served h [] s ∧ (s.selectBackend 0 route []).2 = some "http://127.0.0.1:3002" ∧
      (s.selectBackend 0 route ["http://127.0.0.1:3002"]).2 = none := by
  intro P route h s
  have hs : P.Served h [] s :=
    ⟨rfl, List.pairwise_singleton .., by simp [h, s], rfl, by simp⟩
  obtain ⟨-, hselect⟩ := selectBackend_sound_and_complete (P := P) (by decide +kernel)
  have hr : route ∈ P.config.routes := List.mem_singleton_self _
  obtain ⟨hnone, -⟩ := hselect h [] s hs route hr 0 ["http://127.0.0.1:3002"]
  refine ⟨hs, by decide +kernel, hnone.2 ?_⟩
  decide +kernel

end FerrumProxy
