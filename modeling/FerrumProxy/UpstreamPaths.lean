/-
  The path that is routed and the path that is sent.

  `match_route` decides on the path as it was received, `build_upstream_uri` sends
  what `Url::set_path` makes of it.  The two agree under every list of routes iff
  the path is clean, that is, if `set_path` has nothing to do.
-/
import FerrumProxy.Lib.Paths
import FerrumProxy.System

namespace FerrumProxy

open Lib

/-- What is assumed of the `url` and `http` crates: `set_path` runs its path parser, that of the URL
    standard, on http URLs, `set_query` leaves the path alone, and so does the conversion to a
    `Uri`. -/
structure WhatwgPaths (U : UrlCrate) (encoded : Char → Bool) : Prop where
  /-- what percent-encoding produces is not encoded again -/
  encodingChars : ∀ c ∈ encodingChars, encoded c = false
  setPath : ∀ url path, url.scheme = "http" →
    (U.setPath url path).path = String.ofList (parsePath encoded path.toList)
  setQuery : ∀ url query, (U.setQuery url query).path = url.path
  toUri : ∀ url uri, U.toUri url = .ok uri → uri.path = url.path

/-- Under every validated list of routes that sends `p` to the backend, `q` is matched to the same
    route as `p`. -/
def RoutedAlike (U : UrlCrate) (backend p q : String) : Prop :=
  ∀ routes r, validateRoutes U [] routes = .ok () → matchRoute p routes = some r →
    backend ∈ r.backends → matchRoute q routes = some r

section
variable {U : UrlCrate} {encoded : Char → Bool}

/-- The path that is sent to the backend. -/
theorem WhatwgPaths.upstream_path (hU : WhatwgPaths U encoded) {url : Url} (hurl : url.scheme = "http")
    {request uri : Uri} (hbuild : buildUpstreamUri U url request = .ok uri) :
    uri.path = String.ofList (parsePath encoded request.path.toList) := by
  unfold buildUpstreamUri at hbuild
  dsimp only at hbuild
  split at hbuild
  · rename_i uri' htoUri
    obtain rfl : uri' = uri := Except.ok.inj hbuild
    rw [hU.toUri _ _ htoUri, hU.setQuery, hU.setPath url request.path hurl]
  · cases hbuild

/-- A path that a prefix starting with a slash matches starts with a slash. -/
theorem startsWithSlash_of_matchesPrefix {path p : String} (hp : startsWithSlash p)
    (h : matchesPrefix path p) : startsWithSlash path := by
  rcases matchesPrefix_iff.1 h with rfl | ⟨rest, hrest⟩
  · exact hp
  · simp only [startsWithSlash, beq_iff_eq] at hp ⊢
    rw [← hrest]
    simp [List.head?_append, hp]

/-- The route whose prefix is the path itself. -/
def exactRoute (path backend : String) : RouteConfig := { pathPrefix := path, backends := [backend] }

theorem validateRoutes_exactRoute {path backend : String} {r : RouteConfig}
    (hpath : startsWithSlash path) (hb : r.validateBackend U backend = .ok ()) :
    validateRoutes U [] [exactRoute path backend] = .ok () := by
  have hb' : (exactRoute path backend).validateBackend U backend = .ok () :=
    RouteConfig.validateBackend_ok.2 (RouteConfig.validateBackend_ok.1 hb)
  refine validateRoutes_ok.2 ⟨fun r' hr' => ⟨?_, by simp⟩, by simp⟩
  obtain rfl := List.mem_singleton.1 hr'
  refine RouteConfig.validate_ok.2 ⟨hpath, by simp [exactRoute], by simp [exactRoute],
    by simp [exactRoute], by simp [exactRoute], by simp [exactRoute], by simp [exactRoute],
    by simp [exactRoute], fun b hb => ?_⟩
  obtain rfl := List.mem_singleton.1 hb
  exact hb'

/-- **Routing and forwarding.**  Let a request be matched to a route and its upstream URI be built for
    a backend of that route.  Routing and forwarding agree on its path, under every list of routes,
    iff the path is clean. -/
theorem routedAlike_iff_clean (hU : WhatwgPaths U encoded) {routes : List RouteConfig}
    (hv : validateRoutes U [] routes = .ok ()) {request uri : Uri} {r : RouteConfig}
    (hm : matchRoute request.path routes = some r) {backend : String} (hb : backend ∈ r.backends)
    {url : Url} (hparse : U.parse backend = .ok url)
    (hbuild : buildUpstreamUri U url request = .ok uri) :
    RoutedAlike U backend request.path uri.path ↔ Clean encoded request.path.toList := by
  obtain ⟨hr, hmatch⟩ := matchRoute_mem hm
  obtain ⟨hslash, -, -, -, -, -, -, -, hbackends⟩ :=
    RouteConfig.validate_ok.1 ((validateRoutes_ok.1 hv).1 r hr).1
  have hpath := startsWithSlash_of_matchesPrefix hslash hmatch
  obtain ⟨url', hparse', hscheme, -⟩ := RouteConfig.validateBackend_ok.1 (hbackends backend hb)
  obtain rfl : url = url' := Except.ok.inj (hparse.symm.trans hparse')
  have hup := hU.upstream_path hscheme hbuild
  constructor
  · intro halike
    have hsome := halike [exactRoute request.path backend] (exactRoute request.path backend)
      (validateRoutes_exactRoute hpath (hbackends backend hb))
      (by simp [matchRoute, matchesPrefix, exactRoute, maxByKey]) (by simp [exactRoute])
    have hclean := clean_parsePath hU.encodingChars request.path.toList
    rcases matchesPrefix_iff.1 (matchRoute_mem hsome).2 with heq | hprefix
    · have heq : parsePath encoded request.path.toList = request.path.toList := by
        simpa [hup, exactRoute] using congrArg String.toList heq
      rwa [heq] at hclean
    · rw [hup, String.toList_ofList] at hprefix
      refine hclean.of_isPrefix (fun hnil => ?_) hprefix
      simp [startsWithSlash, hnil] at hpath
  · intro hclean routes' r' _ hm' _
    rwa [hup, parsePath_of_clean hclean, String.ofList_toList]

end

/-- The characters that the `url` crate percent-encodes in a path: the set of the URL standard
    without `^`. -/
def pathPercentEncodeSet (c : Char) : Bool :=
  c.toNat < 0x20 || 0x7E < c.toNat || c ∈ " \"#<>?\x60\x7b\x7d".toList

/-- The crate of the runs on fixed inputs, with the path parser. -/
def whatwgCrate : UrlCrate :=
  { smallCrate with
    setPath := fun url path =>
      { url with path := String.ofList (parsePath pathPercentEncodeSet path.toList) } }

theorem whatwgPaths_whatwgCrate : WhatwgPaths whatwgCrate pathPercentEncodeSet where
  encodingChars c hc := by
    have hall : Lib.encodingChars.all fun c => pathPercentEncodeSet c = false := by decide
    exact of_decide_eq_true (List.all_eq_true.1 hall c hc)
  setPath _ _ _ := rfl
  setQuery _ _ := rfl
  toUri url uri h := by
    obtain rfl := Except.ok.inj h
    rfl

/-- Two routes with one backend each. -/
def apiAndAdmin : List RouteConfig :=
  [{ pathPrefix := "/api", backends := ["http://127.0.0.1:3001"] },
    { pathPrefix := "/admin", backends := ["http://127.0.0.1:3002"] }]

/-- A path without dot segments. -/
theorem users_routedAlike :
    RoutedAlike whatwgCrate "http://127.0.0.1:3001" "/api/users" "/api/users" := by
  have hv : validateRoutes whatwgCrate [] apiAndAdmin = .ok () := by decide +kernel
  have hm : matchRoute (Uri.mk "/api/users" (some "page=2")).path apiAndAdmin =
      some { pathPrefix := "/api", backends := ["http://127.0.0.1:3001"] } := by decide +kernel
  have hparse : whatwgCrate.parse "http://127.0.0.1:3001" =
      .ok ⟨"http", some "127.0.0.1", some 3001, "/", none⟩ := by decide +kernel
  have hbuild : buildUpstreamUri whatwgCrate ⟨"http", some "127.0.0.1", some 3001, "/", none⟩
      ⟨"/api/users", some "page=2"⟩ = .ok ⟨"/api/users", some "page=2"⟩ := by decide +kernel
  refine (routedAlike_iff_clean whatwgPaths_whatwgCrate hv hm (by simp) hparse hbuild).2 ?_
  exact ⟨["api".toList, "users".toList], by simp, by decide +kernel, by decide⟩

/-- A client leaves the prefix under which it was routed: `/api/../admin` is matched to the route
    `/api`, and the backend of that route is asked for `/admin`, which is matched to another one. -/
theorem dot_segments_leave_prefix :
    validateRoutes whatwgCrate [] apiAndAdmin = .ok () ∧
      matchRoute "/api/../admin" apiAndAdmin =
        some { pathPrefix := "/api", backends := ["http://127.0.0.1:3001"] } ∧
      whatwgCrate.parse "http://127.0.0.1:3001" =
        .ok ⟨"http", some "127.0.0.1", some 3001, "/", none⟩ ∧
      buildUpstreamUri whatwgCrate ⟨"http", some "127.0.0.1", some 3001, "/", none⟩
        ⟨"/api/../admin", none⟩ = .ok ⟨"/admin", none⟩ ∧
      matchRoute "/admin" apiAndAdmin =
        some { pathPrefix := "/admin", backends := ["http://127.0.0.1:3002"] } := by
  decide +kernel

end FerrumProxy
