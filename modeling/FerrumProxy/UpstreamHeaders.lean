/-
  The headers of upstream requests and responses.

  Only the values of one name in their order are significant (`Lib.values`).
  `values_sanitize` says what `sanitize_hop_by_hop_headers` leaves: the nine fixed
  names go, and the names in the first `Connection` line.  A header named by another
  `Connection` line stays, so that the stripping is complete exactly when the later
  lines name no header of the map that the first one does not name.
  `apply_forwarding_headers` then decides four names by itself, whatever the client
  sent (`values_applyForwardingHeaders`).
-/
import FerrumProxy.Addresses
import FerrumProxy.Upstream
import FerrumProxy.Lib.Lines

namespace FerrumProxy

open Lib

namespace HeaderMap

theorem get_eq_head? (h : HeaderMap) (name : String) : h.get name = (values h name).head? :=
  lookup_eq_head? h name

@[simp] theorem values_remove (h : HeaderMap) (name other : String) :
    values (h.remove name) other = if other = name then [] else values h other := by
  refine (values_filter h (· != name) other).trans ?_
  by_cases ho : other = name <;> simp [ho]

@[simp] theorem values_insert (h : HeaderMap) (name other : String) (v : HeaderValue) :
    values (h.insert name v) other = if other = name then [v] else values h other := by
  unfold insert
  rw [values_append, values_remove, values_cons, values_nil]
  by_cases ho : other = name
  · simp [ho]
  · simp [ho, Ne.symm ho]

theorem values_foldl_remove (names : List String) (h : HeaderMap) (other : String) :
    values (names.foldl remove h) other = if other ∈ names then [] else values h other := by
  induction names generalizing h with
  | nil => simp
  | cons name names ih =>
    rw [List.foldl_cons, ih, values_remove]
    by_cases hn : other = name <;> simp [hn]

end HeaderMap

/-! ## Nominated names -/

/-- `HeaderName::from_bytes` accepts the text, which is in lower case as in every map. -/
def isHeaderName (name : String) : Bool := !name.toList.isEmpty && name.toList.all isTokenChar

/-- A space or a tab. -/
def isSpaceOrTab (c : Char) : Bool := c == ' ' || c == '\t'

/-- The token is the name, up to case and surrounding blanks. -/
def NamedBy (name : String) (token : List Char) : Prop :=
  (trim isSpaceOrTab token).map Char.toLower = name.toList.map Char.toLower

/-- Some token of a `Connection` value that is visible ASCII is the name. -/
def Nominates (v : HeaderValue) (name : String) : Prop :=
  ∃ value, HeaderValue.toStr v = some value ∧ ∃ token ∈ value.toList.splitOn ',', NamedBy name token

/-- A token character is not an upper-case letter. -/
theorem toLower_of_isTokenChar {c : Char} (h : isTokenChar c) : c.toLower = c := by
  have hout : ¬ (65 ≤ c.toNat ∧ c.toNat ≤ 90) := by
    simp only [isTokenChar, Char.isDigit, Bool.or_eq_true, Bool.and_eq_true, decide_eq_true_eq,
      UInt32.le_iff_toNat_le, ← Char.toNat_val, List.mem_cons, List.not_mem_nil, or_false] at h
    rcases h with (⟨-, h⟩ | ⟨h, -⟩) | h
    · have : c.val.toNat ≤ 57 := h
      rw [← Char.toNat_val]
      omega
    · rw [← Char.toNat_val]
      omega
    · rcases h with rfl | rfl | rfl | rfl | rfl | rfl | rfl | rfl | rfl | rfl | rfl | rfl | rfl |
        rfl | rfl <;> decide
  unfold Char.toLower
  rw [dif_neg]
  rintro ⟨hl, hu⟩
  exact hout ⟨hl, hu⟩

/-- The tokens the code accepts are the header names they stand for. -/
theorem connectionToken_eq_some {token : List Char} {name : String} (h : isHeaderName name) :
    connectionToken token = some name ↔ NamedBy name token := by
  unfold isHeaderName at h
  have hlower : name.toList.map Char.toLower = name.toList := by
    refine (List.map_congr_left fun c hc => ?_).trans (List.map_id _)
    exact toLower_of_isTokenChar (List.all_eq_true.1 (Bool.and_eq_true_iff.1 h).2 c hc)
  unfold connectionToken NamedBy
  rw [hlower]
  change (if _ then _ else _) = some name ↔ (trim isSpaceOrTab token).map Char.toLower = name.toList
  constructor
  · intro he
    split_ifs at he
    rw [← Option.some.inj he, String.toList_ofList]
    rfl
  · intro he
    rw [show (trim (fun c => c == ' ' || c == '\t') token).map Char.toLower = name.toList from he,
      if_pos h, String.ofList_toList]

/-- The names in the first `Connection` line, as the code reads them. -/
def connectionNames (h : HeaderMap) : List String :=
  ((h.get "connection").bind HeaderValue.toStr).toList.flatMap fun value =>
    (value.toList.splitOn ',').filterMap connectionToken

theorem mem_connectionNames {h : HeaderMap} {name : String} (hn : isHeaderName name) :
    name ∈ connectionNames h ↔
      ∃ v, (values h "connection").head? = some v ∧ Nominates v name := by
  unfold connectionNames Nominates
  rw [HeaderMap.get_eq_head?]
  simp only [List.mem_flatMap, Option.mem_toList, Option.bind_eq_some_iff,
    List.mem_filterMap, connectionToken_eq_some hn]
  constructor
  · rintro ⟨value, ⟨v, hv, hvalue⟩, hnamed⟩
    exact ⟨v, hv, value, hvalue, hnamed⟩
  · rintro ⟨v, hv, value, hvalue, hnamed⟩
    exact ⟨value, ⟨v, hv, hvalue⟩, hnamed⟩

/-! ## Hop-by-hop headers -/

/-- **Sanitizing** keeps or drops the values of a name as a whole. -/
theorem values_sanitize (h : HeaderMap) (name : String) :
    values (sanitizeHopByHopHeaders h) name =
      if name ∈ hopByHopNames ++ connectionNames h then [] else values h name := by
  rw [← HeaderMap.values_foldl_remove]
  unfold sanitizeHopByHopHeaders connectionNames
  cases (h.get "connection").bind HeaderValue.toStr <;> simp

/-- `h'` is `h` without its hop-by-hop headers: the fixed ones, and those that some `Connection`
    line names. -/
def StripsExactly (h h' : HeaderMap) : Prop :=
  ∀ name, isHeaderName name →
    (name ∈ hopByHopNames ∨ (∃ v ∈ values h "connection", Nominates v name) →
      values h' name = []) ∧
    (name ∉ hopByHopNames → (¬ ∃ v ∈ values h "connection", Nominates v name) →
      values h' name = values h name)

/-- The later `Connection` lines name no header of the map that the first one does not name. -/
def FirstNamesAll (h : HeaderMap) : Prop :=
  ∀ name, isHeaderName name → name ∉ hopByHopNames → values h name ≠ [] →
    (∃ v ∈ (values h "connection").tail, Nominates v name) →
    ∃ v, (values h "connection").head? = some v ∧ Nominates v name

theorem stripsExactly_iff (h : HeaderMap) :
    StripsExactly h (sanitizeHopByHopHeaders h) ↔ FirstNamesAll h := by
  constructor
  · intro hs name hn hfixed hpresent hlater
    obtain ⟨v, hv, hnom⟩ := hlater
    have hgone := (hs name hn).1 (Or.inr ⟨v, List.mem_of_mem_tail hv, hnom⟩)
    rw [values_sanitize] at hgone
    split_ifs at hgone with hstrip
    · exact (mem_connectionNames hn).1 ((List.mem_append.1 hstrip).resolve_left hfixed)
    · exact absurd hgone hpresent
  · intro hf name hn
    rw [values_sanitize]
    constructor
    · intro hstrip
      split_ifs with hmem
      · rfl
      · rw [List.mem_append, not_or, mem_connectionNames hn] at hmem
        obtain ⟨v, hv, hnom⟩ := hstrip.resolve_left hmem.1
        by_contra hpresent
        -- the line that names it is the first one or a later one
        rcases hc : values h "connection" with _ | ⟨v₀, rest⟩
        · simp [hc] at hv
        · rw [hc] at hv
          rcases List.mem_cons.1 hv with rfl | hrest
          · exact hmem.2 ⟨v, by rw [hc]; rfl, hnom⟩
          · exact hmem.2 (hf name hn hmem.1 hpresent ⟨v, by rw [hc]; exact hrest, hnom⟩)
    · intro hfixed hnone
      rw [if_neg]
      rw [List.mem_append, not_or, mem_connectionNames hn]
      refine ⟨hfixed, ?_⟩
      rintro ⟨v, hv, hnom⟩
      exact hnone ⟨v, List.mem_of_mem_head? hv, hnom⟩

/-! ## Forwarding headers -/

/-- The names that `apply_forwarding_headers` decides. -/
def forwardingNames : List String := ["host", "x-forwarded-for", "x-forwarded-proto", "forwarded"]

theorem values_insertText (h : HeaderMap) (name other : String) {text : String}
    (ht : text.toList.all visible) : values (insertText h name text) other =
      if other = name then [HeaderValue.ofString text] else values h other := by
  unfold insertText
  rw [fromStr_of_visible ht]
  exact h.values_insert name other _

/-- The text of `Host`, if the URL has a host. -/
theorem backendAuthority_visible {url : Url} (hurl : ∀ host, url.host = some host →
    host.toList.all visible) {authority : String} (h : backendAuthority url = some authority) :
    authority.toList.all visible := by
  unfold backendAuthority at h
  obtain ⟨host, hhost, rfl⟩ := Option.map_eq_some_iff.1 h
  have hv := hurl host hhost
  cases url.port with
  | none => exact hv
  | some port =>
    exact append_visible (append_visible hv (by decide)) (toString_visible port)

theorem formatForwardedFor_visible {ip : String} (h : ip.toList.all visible) :
    (formatForwardedFor ip).toList.all visible := by
  unfold formatForwardedFor
  split_ifs
  · exact append_visible (append_visible (by decide) h) (by decide)
  · exact h

theorem forwarded_visible {ip : String} (h : ip.toList.all visible) :
    (s!"for={formatForwardedFor ip};proto=http").toList.all visible :=
  append_visible (append_visible (by decide) (formatForwardedFor_visible h)) (by decide)

/-- What the four names are set to: by the URL and the address alone. -/
def forwardingValues (url : Url) (ip : Option IpAddr) (name : String) : List HeaderValue :=
  if name = "host" then (backendAuthority url).toList.map HeaderValue.ofString
  else if name = "x-forwarded-for" then ip.toList.map fun ip => HeaderValue.ofString ip.display
  else if name = "x-forwarded-proto" then ip.toList.map fun _ => HeaderValue.ofString "http"
  else ip.toList.map fun ip =>
    HeaderValue.ofString s!"for={formatForwardedFor ip.display};proto=http"

/-- **Forwarding headers.** The four names get values that the client has no part in. -/
theorem values_applyForwardingHeaders (h : HeaderMap) {url : Url}
    (hurl : ∀ host, url.host = some host → host.toList.all visible) (ip : Option IpAddr)
    {name : String} (hn : name ∈ forwardingNames) :
    values (applyForwardingHeaders h url (ip.map IpAddr.display)) name =
      forwardingValues url ip name := by
  have hbase : values (forwardingNames.foldl HeaderMap.remove h) name = [] := by
    rw [HeaderMap.values_foldl_remove, if_pos hn]
  have hhost : ∀ authority, backendAuthority url = some authority → ∀ base other,
      values (insertText base "host" authority) other =
        if other = "host" then [HeaderValue.ofString authority] else values base other :=
    fun authority ha base other => values_insertText base "host" other
      (backendAuthority_visible hurl ha)
  have hfor : ∀ ip : IpAddr, ∀ base other, values (insertText base "x-forwarded-for" ip.display)
      other = if other = "x-forwarded-for" then [HeaderValue.ofString ip.display]
        else values base other :=
    fun ip base other => values_insertText base _ other ip.display_visible
  have hforwarded : ∀ ip : IpAddr, ∀ base other, values (insertText base "forwarded"
      s!"for={formatForwardedFor ip.display};proto=http") other = if other = "forwarded" then
        [HeaderValue.ofString s!"for={formatForwardedFor ip.display};proto=http"]
        else values base other :=
    fun ip base other => values_insertText base _ other (forwarded_visible ip.display_visible)
  unfold applyForwardingHeaders forwardingValues
  rw [← forwardingNames]
  simp only [forwardingNames, List.mem_cons, List.not_mem_nil, or_false] at hn
  rcases hauth : backendAuthority url with _ | authority
  · rcases hn with rfl | rfl | rfl | rfl <;> cases ip <;> simp [hbase, hfor, hforwarded]
  · rcases hn with rfl | rfl | rfl | rfl <;> cases ip <;>
      simp [hbase, hhost _ hauth, hfor, hforwarded]

/-- Outside the four names everything stays. -/
theorem values_applyForwardingHeaders_of_not_mem (h : HeaderMap) (url : Url) (ip : Option String)
    {name : String} (hn : name ∉ forwardingNames) :
    values (applyForwardingHeaders h url ip) name = values h name := by
  have hne : ∀ other ∈ forwardingNames, name ≠ other := fun other ho he => hn (he ▸ ho)
  have htext : ∀ (base : HeaderMap) other text, other ∈ forwardingNames →
      values (insertText base other text) name = values base name := by
    intro base other text ho
    unfold insertText
    split
    · rw [HeaderMap.values_insert, if_neg (hne other ho)]
    · rfl
  have hbase : values (forwardingNames.foldl HeaderMap.remove h) name = values h name := by
    rw [HeaderMap.values_foldl_remove, if_neg hn]
  have hproto : ∀ (base : HeaderMap) v, values (base.insert "x-forwarded-proto" v) name =
      values base name := by
    intro base v
    rw [HeaderMap.values_insert, if_neg (hne _ (by decide))]
  unfold applyForwardingHeaders
  rw [← forwardingNames]
  cases backendAuthority url <;> cases ip <;> dsimp only
  · exact hbase
  · rw [htext _ _ _ (by decide), hproto, htext _ _ _ (by decide), hbase]
  · rw [htext _ _ _ (by decide), hbase]
  · rw [htext _ _ _ (by decide), hproto, htext _ _ _ (by decide), htext _ _ _ (by decide), hbase]

/-- The request that is sent has, outside the four names, the sanitized headers. -/
theorem values_prepare {U : UrlCrate} {backend : String} {method : Method} {uri : Uri}
    {h : HeaderMap} {ip : Option String} {u : UpstreamRequest}
    (hu : prepare U backend method uri h ip = .ok u) {name : String}
    (hn : name ∉ forwardingNames) :
    values u.headers name = values (sanitizeHopByHopHeaders h) name := by
  unfold prepare at hu
  split at hu
  · simp at hu
  · rename_i url _
    cases hb : buildUpstreamUri U url uri with
    | error err => simp [hb, bind, Except.bind] at hu
    | ok upstreamUri =>
      simp only [hb, bind, Except.bind, Except.ok.injEq] at hu
      rw [← hu]
      exact values_applyForwardingHeaders_of_not_mem _ url ip hn

/-- **Hop-by-hop headers.** Sanitizing strips exactly the hop-by-hop headers iff the later
    `Connection` lines name no header of the map that the first one does not name; and `forward`
    sanitizes the request it sends, up to the four forwarding headers, and the response it
    returns. -/
theorem hop_by_hop_stripping_iff (h : HeaderMap) :
    (StripsExactly h (sanitizeHopByHopHeaders h) ↔ FirstNamesAll h) ∧
    (∀ U backend method uri ip u, prepare U backend method uri h ip = .ok u →
      ∀ name, name ∉ forwardingNames →
        values u.headers name = values (sanitizeHopByHopHeaders h) name) ∧
    (∀ connectTimeout maxResponseBodyBytes status response,
      receive connectTimeout maxResponseBodyBytes (.response status h) = .ok response →
        response.headers = sanitizeHopByHopHeaders h) := by
  refine ⟨stripsExactly_iff h, ?_, ?_⟩
  · intro U backend method uri ip u hu name hn
    exact values_prepare hu hn
  · intro connectTimeout maxResponseBodyBytes status response hr
    unfold receive at hr
    dsimp only at hr
    split at hr
    · simp at hr
    · rw [← Except.ok.inj hr]

/-- Two `Connection` lines, the second of which names a header: the header is forwarded. -/
theorem second_connection_line_ignored :
    let h : HeaderMap := [("connection", HeaderValue.ofString "close"),
      ("connection", HeaderValue.ofString "X-Internal"), ("x-internal", HeaderValue.ofString "1")]
    ¬ StripsExactly h (sanitizeHopByHopHeaders h) := by
  intro h hs
  have hgone := (hs "x-internal" (by decide)).1
    (Or.inr ⟨HeaderValue.ofString "X-Internal", by decide, "X-Internal", by decide,
      "X-Internal".toList, by decide, by unfold NamedBy; decide⟩)
  revert hgone
  decide

/-- What is assumed of the `url` crate: `host_str` of a parsed URL is ASCII, as domains are in their
    ASCII form and everything else is percent-encoded. -/
def VisibleHosts (U : UrlCrate) : Prop :=
  ∀ text url host, U.parse text = .ok url → url.host = some host → host.toList.all visible

end FerrumProxy
