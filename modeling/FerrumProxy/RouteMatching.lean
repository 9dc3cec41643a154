/-
  What `match_route` answers.

  A route applies to a path that is its prefix or lies below it (`AtOrBelow`).  Two
  prefixes of one path are comparable, so that distinct ones have distinct lengths:
  on validated routes the maximum is unique and does not depend on their order.

  Lying below a prefix is a matter of segments as long as the prefix is not written
  with a slash at its end.  Validation admits such prefixes, among them the root `/`,
  and `match_route` then looks for a second slash.
-/
import FerrumProxy.System
import FerrumProxy.Lib.Segments

namespace FerrumProxy

/-! ## The last maximum -/

section
variable {α : Type} {key : α → ℕ} {as : List α} {a : α}

theorem maxByKey_eq_none : maxByKey key as = none ↔ as = [] := by
  cases as with
  | nil => simp [maxByKey]
  | cons a as =>
    unfold maxByKey
    cases maxByKey key as with
    | none => simp
    | some b => by_cases h : key a ≤ key b <;> simp [h]

/-- No key is greater than the one of the maximum. -/
theorem le_of_maxByKey {b : α} (h : maxByKey key as = some a) (hb : b ∈ as) : key b ≤ key a := by
  induction as generalizing a with
  | nil => simp at hb
  | cons c as ih =>
    unfold maxByKey at h
    cases htail : maxByKey key as with
    | none =>
      obtain rfl := maxByKey_eq_none.1 htail
      rw [htail] at h
      obtain rfl : c = a := Option.some.inj h
      rw [List.mem_singleton.1 hb]
    | some m =>
      rw [htail] at h
      -- the maximum of the tail is the maximum, or `c` is above it
      rcases List.mem_cons.1 hb with rfl | hb
      · dsimp only at h
        split_ifs at h with hle
        · rwa [← Option.some.inj h]
        · rw [← Option.some.inj h]
      · have hm := ih htail hb
        dsimp only at h
        split_ifs at h with hle
        · rwa [← Option.some.inj h]
        · rw [← Option.some.inj h]
          omega

/-- Where no two keys agree, the maximum is the member with the greatest key. -/
theorem maxByKey_eq_some_iff (hinj : ∀ b ∈ as, ∀ c ∈ as, key b = key c → b = c) :
    maxByKey key as = some a ↔ a ∈ as ∧ ∀ b ∈ as, b ≠ a → key b < key a := by
  constructor
  · intro h
    have ha := maxByKey_mem h
    refine ⟨ha, fun b hb hne => ?_⟩
    have hle := le_of_maxByKey h hb
    have hkey : key b ≠ key a := fun heq => hne (hinj b hb a ha heq)
    omega
  · rintro ⟨ha, hlt⟩
    cases h : maxByKey key as with
    | none => simp [maxByKey_eq_none.1 h] at ha
    | some b =>
      have hle := le_of_maxByKey h ha
      by_contra hne
      have hba : b ≠ a := fun heq => hne (congrArg some heq)
      have := hlt b (maxByKey_mem h) hba
      omega

end

/-! ## Routes that apply to a path -/

/-- The path is the prefix, or the prefix followed by a slash and anything. -/
def AtOrBelow (path p : String) : Prop := path = p ∨ ∃ rest, path = p ++ "/" ++ rest

theorem matchesPrefix_iff_atOrBelow {path p : String} :
    matchesPrefix path p ↔ AtOrBelow path p := by
  rw [matchesPrefix_iff]
  refine or_congr_right ⟨?_, ?_⟩
  · rintro ⟨t, ht⟩
    refine ⟨String.ofList t, String.toList_inj.1 ?_⟩
    simp [← ht]
  · rintro ⟨rest, rfl⟩
    exact ⟨rest.toList, by simp⟩

/-- A prefix that applies to a path begins it. -/
theorem AtOrBelow.exists_append {path p : String} (h : AtOrBelow path p) :
    ∃ rest, path = p ++ rest := by
  rcases h with rfl | ⟨rest, rfl⟩
  · exact ⟨"", by simp⟩
  · exact ⟨"/" ++ rest, String.append_assoc ..⟩

/-- **Two prefixes of one path of the same length are the same.** -/
theorem AtOrBelow.eq_of_utf8ByteSize {path p q : String} (hp : AtOrBelow path p)
    (hq : AtOrBelow path q) (hsize : p.utf8ByteSize = q.utf8ByteSize) : p = q := by
  -- of two beginnings of one text, the longer one has bytes of its own
  have hlonger : ∀ {p q : String}, p.utf8ByteSize = q.utf8ByteSize →
      p.toList <+: q.toList → p = q := by
    rintro p q hsize ⟨t, ht⟩
    have hq : q = p ++ String.ofList t := String.toList_inj.1 (by simp [ht])
    rw [hq, String.utf8ByteSize_append] at hsize
    have ht0 : String.ofList t = "" := String.utf8ByteSize_eq_zero_iff.1 (by omega)
    rw [hq, ht0, String.append_empty]
  obtain ⟨s, hs⟩ := hp.exists_append
  obtain ⟨t, ht⟩ := hq.exists_append
  have hpl : p.toList <+: path.toList := ⟨s.toList, by simp [hs]⟩
  have hql : q.toList <+: path.toList := ⟨t.toList, by simp [ht]⟩
  rcases List.prefix_or_prefix_of_prefix hpl hql with h | h
  · exact hlonger hsize h
  · exact (hlonger hsize.symm h).symm

theorem mem_applying {path : String} {routes : List RouteConfig} {r : RouteConfig} :
    r ∈ routes.filter (fun r => matchesPrefix path r.pathPrefix) ↔
      r ∈ routes ∧ AtOrBelow path r.pathPrefix := by
  rw [List.mem_filter, matchesPrefix_iff_atOrBelow]

theorem matchRoute_eq_none {path : String} {routes : List RouteConfig} :
    matchRoute path routes = none ↔ ∀ r ∈ routes, ¬ AtOrBelow path r.pathPrefix := by
  unfold matchRoute
  rw [maxByKey_eq_none, List.eq_nil_iff_forall_not_mem]
  simp only [mem_applying, not_and]

/-- On routes with distinct prefixes the answer is the route that applies with the longest
    prefix. -/
theorem matchRoute_eq_some {path : String} {routes : List RouteConfig}
    (hnd : (routes.map (·.pathPrefix)).Nodup) {r : RouteConfig} :
    matchRoute path routes = some r ↔ r ∈ routes ∧ AtOrBelow path r.pathPrefix ∧
      ∀ r' ∈ routes, r' ≠ r → AtOrBelow path r'.pathPrefix →
        r'.pathPrefix.utf8ByteSize < r.pathPrefix.utf8ByteSize := by
  unfold matchRoute
  rw [maxByKey_eq_some_iff]
  · simp only [mem_applying]
    constructor
    · rintro ⟨⟨hr, hat⟩, hlt⟩
      exact ⟨hr, hat, fun r' hr' hne hat' => hlt r' ⟨hr', hat'⟩ hne⟩
    · rintro ⟨hr, hat, hlt⟩
      exact ⟨⟨hr, hat⟩, fun r' ⟨hr', hat'⟩ hne => hlt r' hr' hne hat'⟩
  · intro b hb c hc hkey
    obtain ⟨hb, hbat⟩ := mem_applying.1 hb
    obtain ⟨hc, hcat⟩ := mem_applying.1 hc
    exact List.inj_on_of_nodup_map hnd hb hc (hbat.eq_of_utf8ByteSize hcat hkey)

/-- **Longest match.** On validated routes `match_route` answers `None` iff no route applies, and
    otherwise the one route whose prefix is longer than that of every other route that applies; the
    order of the routes does not matter. -/
theorem matchRoute_longest {U : UrlCrate} {c : Config} (hv : c.validate U = .ok ())
    (path : String) :
    (matchRoute path c.routes = none ↔ ∀ r ∈ c.routes, ¬ AtOrBelow path r.pathPrefix) ∧
      (∀ r, matchRoute path c.routes = some r →
        r ∈ c.routes ∧ AtOrBelow path r.pathPrefix ∧
          ∀ r' ∈ c.routes, r' ≠ r → AtOrBelow path r'.pathPrefix →
            r'.pathPrefix.utf8ByteSize < r.pathPrefix.utf8ByteSize) ∧
      ∀ routes, routes.Perm c.routes → matchRoute path routes = matchRoute path c.routes := by
  have hnd := Config.nodup_pathPrefix hv
  refine ⟨matchRoute_eq_none, fun r hr => (matchRoute_eq_some hnd).1 hr, fun routes hperm => ?_⟩
  have hnd' : (routes.map (·.pathPrefix)).Nodup := (hperm.map _).nodup_iff.2 hnd
  cases h : matchRoute path c.routes with
  | none =>
    rw [matchRoute_eq_none] at h ⊢
    exact fun r hr => h r (hperm.mem_iff.1 hr)
  | some r =>
    rw [matchRoute_eq_some hnd] at h
    rw [matchRoute_eq_some hnd']
    obtain ⟨hr, hat, hlt⟩ := h
    exact ⟨hperm.mem_iff.2 hr, hat, fun r' hr' => hlt r' (hperm.mem_iff.1 hr')⟩

/-- Three nested prefixes, the longest of them in the middle. -/
theorem matchRoute_longest_nested :
    let r₁ : RouteConfig := { pathPrefix := "/api", backends := ["http://127.0.0.1:3001"] }
    let r₂ : RouteConfig := { pathPrefix := "/api/admin/x", backends := ["http://127.0.0.1:3002"] }
    let r₃ : RouteConfig := { pathPrefix := "/api/admin", backends := ["http://127.0.0.1:3001"] }
    matchRoute "/api/admin/users" [r₁, r₂, r₃] = some r₃ ∧
      matchRoute "/api/admin/users" [r₃, r₁, r₂] = some r₃ ∧
      matchRoute "/api-other" [r₁, r₂, r₃] = none := by
  intro r₁ r₂ r₃
  have hv : Config.validate smallCrate
      { (small [] 1 1 1).config with routes := [r₁, r₂, r₃] } = .ok () := by decide +kernel
  obtain ⟨hnone, -, -⟩ := matchRoute_longest hv "/api-other"
  obtain ⟨-, -, hperm⟩ := matchRoute_longest hv "/api/admin/users"
  have hmatch : matchRoute "/api/admin/users" [r₁, r₂, r₃] = some r₃ := by decide +kernel
  refine ⟨hmatch, ?_, hnone.2 ?_⟩
  · rw [hperm [r₃, r₁, r₂] (by decide +kernel)]
    exact hmatch
  · intro r hr hat
    rw [← matchesPrefix_iff_atOrBelow] at hat
    revert r
    decide +kernel

/-! ## Segments -/

/-- The segments of a path. -/
def segments (path : String) : List (List Char) := path.toList.splitOn '/'

/-- The prefix without a slash at its end. -/
def ignoreTrailingSlash (p : String) : String :=
  if p.toList.getLast? = some '/' then String.ofList p.toList.dropLast else p

/-- What matching by segments means: the segments of the prefix, a slash at its end ignored, begin
    those of the path. -/
def SegmentPrefix (path p : String) : Prop := segments (ignoreTrailingSlash p) <+: segments path

theorem segments_isPrefix_iff {path p : String} :
    segments p <+: segments path ↔ AtOrBelow path p := by
  unfold segments
  rw [Lib.splitOn_isPrefix_iff, String.toList_inj, ← matchesPrefix_iff, matchesPrefix_iff_atOrBelow]

theorem matchRoute_singleton {path : String} {r : RouteConfig} :
    matchRoute path [r] = some r ↔ AtOrBelow path r.pathPrefix := by
  rw [matchRoute_eq_some (by simp)]
  simp

/-- The paths that a prefix with a slash at its end misses: itself without this slash, and what is
    below, unless another slash follows. -/
def Missed (path p : String) : Prop :=
  ∃ q, p = q ++ "/" ∧
    (path = q ∨ ∃ rest, path = q ++ "/" ++ rest ∧ rest ≠ "" ∧ ¬ startsWithSlash rest)

theorem ignoreTrailingSlash_append (q : String) : ignoreTrailingSlash (q ++ "/") = q := by
  simp [ignoreTrailingSlash]

theorem eq_append_slash_iff {p : String} :
    p.toList.getLast? = some '/' ↔ ∃ q, p = q ++ "/" := by
  constructor
  · intro h
    obtain ⟨cs, hcs⟩ := List.getLast?_eq_some_iff.1 h
    exact ⟨String.ofList cs, String.toList_inj.1 (by simp [hcs])⟩
  · rintro ⟨q, rfl⟩
    simp

theorem startsWithSlash_iff {s : String} : startsWithSlash s ↔ ∃ t, s = "/" ++ t := by
  simp only [startsWithSlash, beq_iff_eq]
  constructor
  · intro h
    obtain ⟨cs, hcs⟩ := List.head?_eq_some_iff.1 h
    exact ⟨String.ofList cs, String.toList_inj.1 (by simp [hcs])⟩
  · rintro ⟨t, rfl⟩
    simp

/-- With a slash at its end the prefix applies to the paths that it applies to without, less the
    missed ones. -/
theorem atOrBelow_append_slash {path q : String} :
    AtOrBelow path (q ++ "/") ↔ AtOrBelow path q ∧ ¬ Missed path (q ++ "/") := by
  constructor
  · intro h
    obtain ⟨rest, rfl, hrest⟩ :
        ∃ rest, path = q ++ "/" ++ rest ∧ (rest = "" ∨ startsWithSlash rest) := by
      rcases h with rfl | ⟨rest, rfl⟩
      · exact ⟨"", by simp, Or.inl rfl⟩
      · exact ⟨"/" ++ rest, String.append_assoc .., Or.inr (startsWithSlash_iff.2 ⟨rest, rfl⟩)⟩
    refine ⟨Or.inr ⟨rest, rfl⟩, ?_⟩
    rintro ⟨q', hq', hmissed⟩
    obtain rfl : q = q' := (String.append_left_inj "/").1 hq'
    rcases hmissed with hself | ⟨rest', hrest', hne, hslash⟩
    · have hlen := congrArg (·.toList.length) hself
      simp at hlen
    · obtain rfl : rest = rest' := (String.append_right_inj _).1 hrest'
      rcases hrest with hnil | hstart
      · exact hne hnil
      · exact hslash hstart
  · rintro ⟨rfl | ⟨rest, rfl⟩, hmissed⟩
    · exact absurd ⟨path, rfl, Or.inl rfl⟩ hmissed
    · by_cases hnil : rest = ""
      · exact Or.inl (by simp [hnil])
      · by_cases hslash : startsWithSlash rest
        · obtain ⟨t, rfl⟩ := startsWithSlash_iff.1 hslash
          exact Or.inr ⟨t, (String.append_assoc ..).symm⟩
        · exact absurd ⟨q, rfl, Or.inr ⟨rest, rfl, hnil, hslash⟩⟩ hmissed

/-- The answer on one path is that of its segments, unless it is missed. -/
theorem atOrBelow_iff_segmentPrefix {path p : String} :
    (AtOrBelow path p ↔ SegmentPrefix path p) ↔ ¬ Missed path p := by
  unfold SegmentPrefix
  rw [segments_isPrefix_iff]
  by_cases hlast : p.toList.getLast? = some '/'
  · obtain ⟨q, rfl⟩ := eq_append_slash_iff.1 hlast
    rw [ignoreTrailingSlash_append, atOrBelow_append_slash]
    constructor
    · rintro h ⟨q', hq', hmissed⟩
      obtain rfl : q = q' := (String.append_left_inj "/").1 hq'
      have hat : AtOrBelow path q := by
        rcases hmissed with rfl | ⟨rest, rfl, -⟩
        · exact Or.inl rfl
        · exact Or.inr ⟨rest, rfl⟩
      exact (h.2 hat).2 ⟨q, rfl, hmissed⟩
    · exact fun h => and_iff_left h
  · have hnot : ¬ Missed path p := fun ⟨q, hq, _⟩ => hlast (eq_append_slash_iff.2 ⟨q, hq⟩)
    simp [ignoreTrailingSlash, hlast, hnot]

/-- **Matching by segments.** A validated route with a single prefix answers an absolute path by its
    segments iff the path is not missed, and it does so on every absolute path iff its prefix has no
    slash at the end. -/
theorem matchRoute_segments_iff {U : UrlCrate} {r : RouteConfig} (hv : r.validate U = .ok ()) :
    (∀ path, startsWithSlash path →
      ((matchRoute path [r] = some r ↔ SegmentPrefix path r.pathPrefix) ↔
        ¬ Missed path r.pathPrefix)) ∧
      ((∀ path, startsWithSlash path →
        (matchRoute path [r] = some r ↔ SegmentPrefix path r.pathPrefix)) ↔
        r.pathPrefix.toList.getLast? ≠ some '/') := by
  have hpath : ∀ path, (matchRoute path [r] = some r ↔ SegmentPrefix path r.pathPrefix) ↔
      ¬ Missed path r.pathPrefix := by
    intro path
    rw [matchRoute_singleton, atOrBelow_iff_segmentPrefix]
  refine ⟨fun path _ => hpath path, ?_⟩
  constructor
  · intro h hlast
    obtain ⟨q, hq⟩ := eq_append_slash_iff.1 hlast
    obtain ⟨t, ht⟩ := startsWithSlash_iff.1 (RouteConfig.validate_ok.1 hv).1
    -- what is below the prefix in the plainest way is missed
    have habsolute : startsWithSlash (q ++ "/" ++ "x") :=
      startsWithSlash_iff.2 ⟨t ++ "x", by rw [← hq, ht, String.append_assoc]⟩
    exact (hpath _).1 (h _ habsolute) ⟨q, hq, Or.inr ⟨"x", rfl, by decide, by decide⟩⟩
  · intro hlast path _
    exact (hpath path).2 fun ⟨q, hq, _⟩ => hlast (eq_append_slash_iff.2 ⟨q, hq⟩)

/-- A prefix of two segments matches what is below it. -/
theorem matchRoute_segments_of_plain :
    let r : RouteConfig := { pathPrefix := "/api/admin", backends := ["http://127.0.0.1:3001"] }
    matchRoute "/api/admin/users" [r] = some r := by
  intro r
  have hv : r.validate smallCrate = .ok () := by decide +kernel
  refine ((matchRoute_segments_iff hv).2.2 (by decide) "/api/admin/users" (by decide)).2 ?_
  show _ <+: _
  decide +kernel

/-- **The root prefix** is accepted, its segments begin those of `/x`, and it does not match
    `/x`. -/
theorem root_prefix_misses :
    let r : RouteConfig := { pathPrefix := "/", backends := ["http://127.0.0.1:3001"] }
    r.validate smallCrate = .ok () ∧ startsWithSlash "/x" ∧ SegmentPrefix "/x" r.pathPrefix ∧
      matchRoute "/x" [r] = none := by
  refine ⟨by decide +kernel, by decide, ?_, by decide +kernel⟩
  show segments (ignoreTrailingSlash "/") <+: segments "/x"
  decide +kernel

end FerrumProxy
