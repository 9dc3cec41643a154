/-
  Header maps (`http::HeaderMap`) as lists of lines, and the header functions of
  `src/upstream/mod.rs`.

  Header names are lower case, as hyper keeps them.  The lines of one name are in
  the order of the map; the order of lines of different names is not significant.
-/
import FerrumProxy.Url
import Mathlib.Algebra.Group.Nat.Defs
import Mathlib.Data.List.Basic

namespace FerrumProxy

/-- Byte strings. -/
abbrev Bytes := List UInt8

/-! ## Values -/

/-- `HeaderValue`: the bytes of a field value. -/
abbrev HeaderValue := Bytes

namespace HeaderValue

/-- The bytes of a text. -/
def ofString (s : String) : HeaderValue := s.toList.flatMap String.utf8EncodeChar

/-- Visible ASCII or a tab. -/
def isVisible (b : UInt8) : Bool := (32 ≤ b && b < 127) || b == 9

/-- `HeaderValue::to_str`: only visible ASCII can be read as a text. -/
def toStr (v : HeaderValue) : Option String :=
  if v.all isVisible then some (String.ofList (v.map fun b => Char.ofNat b.toNat)) else none

/-- `HeaderValue::from_str`: control characters other than the tab are refused. -/
def fromStr (s : String) : Option HeaderValue :=
  if (ofString s).all fun b => (32 ≤ b && b != 127) || b == 9 then some (ofString s) else none

end HeaderValue

/-- `str::parse::<u64>`: decimal digits with an optional plus sign, below `2 ^ 64`. -/
def parseU64 (s : String) : Option ℕ :=
  let digits := match s.toList with
    | '+' :: ds => ds
    | ds => ds
  if digits.isEmpty || !digits.all Char.isDigit then none
  else
    let n := digits.foldl (fun n d => n * 10 + (d.toNat - '0'.toNat)) 0
    if n < 2 ^ 64 then some n else none

/-! ## Maps -/

/-- `HeaderMap`: one line for each name and value. -/
abbrev HeaderMap := List (String × HeaderValue)

namespace HeaderMap

/-- `HeaderMap::get`: the first value of a name. -/
def get (h : HeaderMap) (name : String) : Option HeaderValue := h.lookup name

/-- `HeaderMap::remove`: all lines of a name go. -/
def remove (h : HeaderMap) (name : String) : HeaderMap := h.filter (·.1 != name)

/-- `HeaderMap::insert`: the new line replaces all lines of its name. -/
def insert (h : HeaderMap) (name : String) (v : HeaderValue) : HeaderMap :=
  remove h name ++ [(name, v)]

theorem get_remove_ne (h : HeaderMap) {name other : String} (hne : other ≠ name) :
    (h.remove name).get other = h.get other := by
  unfold get remove
  induction h with
  | nil => rfl
  | cons e h ih =>
    obtain ⟨k, v⟩ := e
    by_cases hk : k = name
    · subst hk
      simpa [List.lookup_cons, beq_false_of_ne hne] using ih
    · by_cases ho : other = k
      · simp [hk, ho]
      · simpa [hk, List.lookup_cons, beq_false_of_ne ho] using ih

theorem get_insert_ne (h : HeaderMap) {name other : String} (v : HeaderValue)
    (hne : other ≠ name) : (h.insert name v).get other = h.get other := by
  rw [← get_remove_ne h hne]
  unfold get insert
  rw [List.lookup_append]
  simp [List.lookup_cons, beq_false_of_ne hne]

end HeaderMap

/-- `content_length_exceeds` (the same in `src/http/mod.rs` and `src/upstream/mod.rs`). -/
def contentLengthExceeds (h : HeaderMap) (limit : ℕ) : Option ℕ :=
  ((h.get "content-length").bind fun v => (HeaderValue.toStr v).bind parseU64).filter (limit < ·)

/-! ## Hop-by-hop headers -/

/-- The characters of a header name (`HeaderName::from_bytes`), in lower case. -/
def isTokenChar (c : Char) : Bool :=
  c.isDigit || (97 ≤ c.toNat && c.toNat ≤ 122) ||
    c ∈ ['!', '#', '$', '%', '&', '*', '+', '-', '.', '^', '_', '\x60', '\x27', '|', '~']

/-- `str::trim` -/
def trim (isSpace : Char → Bool) (s : List Char) : List Char :=
  ((s.dropWhile isSpace).reverse.dropWhile isSpace).reverse

/-- A token of a `Connection` line as a header name, if it is one. -/
def connectionToken (token : List Char) : Option String :=
  let name := (trim (fun c => c == ' ' || c == '\t') token).map Char.toLower
  if !name.isEmpty && name.all isTokenChar then some (String.ofList name) else none

/-- The nine fixed hop-by-hop names. -/
def hopByHopNames : List String :=
  ["connection", "keep-alive", "proxy-authenticate", "proxy-authorization", "te", "trailer",
    "transfer-encoding", "upgrade", "proxy-connection"]

/-- `sanitize_hop_by_hop_headers`: only the first `Connection` line is read. -/
def sanitizeHopByHopHeaders (h : HeaderMap) : HeaderMap :=
  let named := match (h.get "connection").bind HeaderValue.toStr with
    | some value => (value.toList.splitOn ',').filterMap connectionToken
    | none => []
  (hopByHopNames ++ named).foldl HeaderMap.remove h

/-! ## Forwarding headers -/

/-- `backend_authority` -/
def backendAuthority (url : Url) : Option String :=
  url.host.map fun host =>
    match url.port with
    | some port => s!"{host}:{port}"
    | none => host

/-- `format_forwarded_for` -/
def formatForwardedFor (value : String) : String :=
  if ':' ∈ value.toList then "\"[" ++ value ++ "]\"" else value

/-- `if let Ok(value) = HeaderValue::from_str(..) { headers.insert(..) }` -/
def insertText (h : HeaderMap) (name text : String) : HeaderMap :=
  match HeaderValue.fromStr text with
  | some value => h.insert name value
  | none => h

theorem get_insertText_ne (h : HeaderMap) {name other : String} (text : String)
    (hne : other ≠ name) : (insertText h name text).get other = h.get other := by
  unfold insertText
  split
  · exact h.get_insert_ne _ hne
  · rfl

/-- `apply_forwarding_headers`; of the client address only the IP is used. -/
def applyForwardingHeaders (h : HeaderMap) (backendUrl : Url) (clientIp : Option String) :
    HeaderMap :=
  let h := ["host", "x-forwarded-for", "x-forwarded-proto", "forwarded"].foldl HeaderMap.remove h
  let h := match backendAuthority backendUrl with
    | some authority => insertText h "host" authority
    | none => h
  match clientIp with
  | none => h
  | some ip =>
    let h := insertText h "x-forwarded-for" ip
    let h := HeaderMap.insert h "x-forwarded-proto" (HeaderValue.ofString "http")
    insertText h "forwarded" s!"for={formatForwardedFor ip};proto=http"

end FerrumProxy
