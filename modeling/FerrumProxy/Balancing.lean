/-
  The load balancer (`src/balancing/mod.rs`): one strategy and one rotation
  counter for each route.
-/
import FerrumProxy.Config
import FerrumProxy.Lib.Table
import Mathlib.Algebra.Group.Nat.Defs

namespace FerrumProxy

open Lib

/-- `RouteBalancer`; the counter is an `AtomicU64` and wraps. -/
structure RouteBalancer where
  strategy : BalancingStrategy
  counter : ℕ
deriving DecidableEq, Repr

/-- `LoadBalancer`: the balancers by path prefix. -/
structure LoadBalancer where
  routes : Table String RouteBalancer

/-- `RouteBalancer::select` -/
def RouteBalancer.select (B : RouteBalancer) (backends : List String) :
    RouteBalancer × Option String :=
  match B.strategy with
  | .roundRobin =>
    ({ B with counter := (B.counter + 1) % 2 ^ 64 }, backends[B.counter % backends.length]?)
  | .firstHealthy => (B, backends.head?)

namespace LoadBalancer

/-- `LoadBalancer::new` -/
def new (routes : List RouteConfig) : LoadBalancer where
  routes := routes.foldl (fun T r => T.insert r.pathPrefix ⟨r.balancing, 0⟩) .empty

/-- `LoadBalancer::select_backend` -/
def selectBackend (L : LoadBalancer) (route : RouteConfig) (backends : List String) :
    LoadBalancer × Option String :=
  if backends.isEmpty then (L, none)
  else
    match L.routes.get? route.pathPrefix with
    | some B => (⟨L.routes.insert route.pathPrefix (B.select backends).1⟩, (B.select backends).2)
    | none => (L, backends.head?)

/-- The balancer only ever chooses among its candidates. -/
theorem selectBackend_mem {L : LoadBalancer} {route : RouteConfig} {backends : List String}
    {b : String} (h : (L.selectBackend route backends).2 = some b) : b ∈ backends := by
  unfold selectBackend at h
  split_ifs at h with he
  split at h
  · rename_i B hB
    unfold RouteBalancer.select at h
    split at h
    · exact List.mem_of_getElem? h
    · exact List.mem_of_head? h
  · exact List.mem_of_head? h

/-- With a candidate the balancer chooses one. -/
theorem selectBackend_isSome {L : LoadBalancer} {route : RouteConfig} {backends : List String}
    (h : backends ≠ []) : (L.selectBackend route backends).2.isSome := by
  have hl : 0 < backends.length := List.length_pos_of_ne_nil h
  unfold selectBackend
  rw [if_neg (by simpa using h)]
  split
  · rename_i B hB
    unfold RouteBalancer.select
    split
    · simp [Nat.mod_lt _ hl]
    · cases backends with
      | nil => exact absurd rfl h
      | cons b bs => rfl
  · cases backends with
    | nil => exact absurd rfl h
    | cons b bs => rfl

theorem selectBackend_eq_none {L : LoadBalancer} {route : RouteConfig} {backends : List String} :
    (L.selectBackend route backends).2 = none ↔ backends = [] := by
  constructor
  · intro h
    by_contra hne
    have hsome : (L.selectBackend route backends).2.isSome := selectBackend_isSome hne
    simp [h] at hsome
  · rintro rfl
    rfl

/-! ## Rotation -/

/-- A round-robin route: the counter is advanced by every choice, whatever the candidates are. -/
theorem selectBackend_roundRobin {L : LoadBalancer} {route : RouteConfig} {backends : List String}
    {counter : ℕ} (hL : L.routes.get? route.pathPrefix = some ⟨.roundRobin, counter⟩)
    (h : backends ≠ []) :
    L.selectBackend route backends =
      (⟨L.routes.insert route.pathPrefix ⟨.roundRobin, (counter + 1) % 2 ^ 64⟩⟩,
        backends[counter % backends.length]?) := by
  unfold selectBackend
  rw [if_neg (by simpa using h), hL]
  rfl

/-- A choice on a route leaves the balancers of the other routes alone. -/
theorem get?_selectBackend_ne (L : LoadBalancer) (route : RouteConfig) (backends : List String)
    {p : String} (hp : p ≠ route.pathPrefix) :
    (L.selectBackend route backends).1.routes.get? p = L.routes.get? p := by
  unfold selectBackend
  split_ifs
  · rfl
  · split
    · exact Table.get?_insert_ne _ _ hp
    · rfl

theorem get?_foldl_insert_ne {rs : List RouteConfig} {T : Table String RouteBalancer} {p : String}
    (hp : p ∉ rs.map (·.pathPrefix)) :
    (rs.foldl (fun T r => T.insert r.pathPrefix ⟨r.balancing, 0⟩) T).get? p = T.get? p := by
  induction rs generalizing T with
  | nil => rfl
  | cons r rs ih =>
    rw [List.map_cons, List.mem_cons, not_or] at hp
    rw [List.foldl_cons, ih hp.2, Table.get?_insert_ne _ _ hp.1]

/-- At first every route has its strategy, and the counter 0. -/
theorem get?_new {routes : List RouteConfig} (hroutes : (routes.map (·.pathPrefix)).Nodup)
    {r : RouteConfig} (hr : r ∈ routes) :
    (new routes).routes.get? r.pathPrefix = some ⟨r.balancing, 0⟩ := by
  unfold new
  generalize (Table.empty : Table String RouteBalancer) = T
  induction routes generalizing T with
  | nil => cases hr
  | cons r' rs ih =>
    obtain ⟨hnew, hrs⟩ := List.nodup_cons.1 hroutes
    rcases List.mem_cons.1 hr with rfl | hr
    · rw [List.foldl_cons, get?_foldl_insert_ne hnew, Table.get?_insert_self]
    · exact ih hrs hr _

end LoadBalancer

end FerrumProxy
