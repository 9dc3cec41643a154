/-
  Route matching (`src/routing/mod.rs`): the longest configured prefix of whole
  path segments.
-/
import FerrumProxy.Config

namespace FerrumProxy

/-- `path == p || path.starts_with(&format!("{p}/"))` -/
def matchesPrefix (path p : String) : Bool :=
  path == p || (p.toList ++ ['/']).isPrefixOf path.toList

/-- `Iterator::max_by_key`: of several maxima the last one. -/
def maxByKey {α : Type} (key : α → ℕ) : List α → Option α
  | [] => none
  | a :: as =>
    match maxByKey key as with
    | none => some a
    | some b => if key a ≤ key b then some b else some a

/-- `match_route` -/
def matchRoute (path : String) (routes : List RouteConfig) : Option RouteConfig :=
  maxByKey (fun r => r.pathPrefix.utf8ByteSize)
    (routes.filter fun r => matchesPrefix path r.pathPrefix)

theorem matchesPrefix_iff {path p : String} :
    matchesPrefix path p ↔ path = p ∨ p.toList ++ ['/'] <+: path.toList := by
  simp [matchesPrefix]

theorem maxByKey_mem {α : Type} {key : α → ℕ} :
    ∀ {as : List α} {a : α}, maxByKey key as = some a → a ∈ as
  | a' :: as, a, h => by
    unfold maxByKey at h
    split at h
    · cases h; simp
    · rename_i b hb
      split_ifs at h
      · cases h; exact List.mem_cons_of_mem _ (maxByKey_mem hb)
      · cases h; simp

/-- The matched route is a configured one whose prefix matches the path. -/
theorem matchRoute_mem {path : String} {routes : List RouteConfig} {r : RouteConfig}
    (h : matchRoute path routes = some r) : r ∈ routes ∧ matchesPrefix path r.pathPrefix := by
  simpa using List.mem_filter.1 (maxByKey_mem h)

end FerrumProxy
