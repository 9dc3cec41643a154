/-
  Texts that can be header values, and the texts of client addresses
  (`std::net::IpAddr`).

  `HeaderValue::from_str` accepts every visible text.  The text of an address, of a
  number and of a correlation id is visible, so that the `if let Ok(..)` around
  the insertions of the proxy never skips one.
-/
import FerrumProxy.Headers

namespace FerrumProxy

/-! ## Visible texts -/

/-- Printable ASCII or a tab. -/
def visible (c : Char) : Bool := (32 ≤ c.toNat && c.toNat < 127) || c.toNat == 9

theorem visible_iff {c : Char} : visible c ↔ 32 ≤ c.toNat ∧ c.toNat < 127 ∨ c.toNat = 9 := by
  simp [visible]

theorem utf8EncodeChar_visible {c : Char} (h : visible c) :
    String.utf8EncodeChar c = [c.val.toUInt8] := by
  refine String.utf8EncodeChar_eq_singleton ?_
  rw [Char.utf8Size_eq_one_iff, UInt32.le_iff_toNat_le]
  have hc := visible_iff.1 h
  change c.toNat ≤ 127
  omega

/-- The byte of a visible character is allowed in a header value. -/
theorem toUInt8_visible {c : Char} (h : visible c) :
    ((32 ≤ c.val.toUInt8 && c.val.toUInt8 != 127) || c.val.toUInt8 == 9) = true := by
  have hc := visible_iff.1 h
  have hb : c.val.toUInt8.toNat = c.toNat := by
    rw [UInt32.toNat_toUInt8]
    change c.toNat % 256 = c.toNat
    omega
  have h32 : (32 : UInt8) ≤ c.val.toUInt8 ↔ 32 ≤ c.toNat := by
    rw [UInt8.le_iff_toNat_le, hb]
    rfl
  have h127 : c.val.toUInt8 = 127 ↔ c.toNat = 127 := by
    rw [← UInt8.toNat_inj, hb]
    rfl
  have h9 : c.val.toUInt8 = 9 ↔ c.toNat = 9 := by
    rw [← UInt8.toNat_inj, hb]
    rfl
  simp only [Bool.or_eq_true, Bool.and_eq_true, decide_eq_true_eq, bne_iff_ne, beq_iff_eq, ne_eq,
    h32, h127, h9]
  omega

/-- `HeaderValue::from_str` accepts a visible text. -/
theorem fromStr_of_visible {s : String} (h : s.toList.all visible) :
    HeaderValue.fromStr s = some (HeaderValue.ofString s) := by
  unfold HeaderValue.fromStr
  rw [if_pos]
  rw [List.all_eq_true]
  intro b hb
  obtain ⟨c, hc, hb⟩ := List.mem_flatMap.1 hb
  have hv := List.all_eq_true.1 h c hc
  rw [utf8EncodeChar_visible hv, List.mem_singleton] at hb
  rw [hb]
  exact toUInt8_visible hv

theorem append_visible {s t : String} (hs : s.toList.all visible) (ht : t.toList.all visible) :
    (s ++ t).toList.all visible := by
  rw [String.toList_append, List.all_append, hs, ht]
  rfl

theorem digitChar_visible : ∀ d < 16, visible (Nat.digitChar d) := by decide

section
variable {base : ℕ} (hpos : 0 < base) (hle : base ≤ 16)
include hpos hle

theorem toDigitsCore_visible (fuel n : ℕ) {ds : List Char} (h : ds.all visible) :
    (Nat.toDigitsCore base fuel n ds).all visible := by
  induction fuel generalizing n ds with
  | zero => exact h
  | succ fuel ih =>
    have hcons : (Nat.digitChar (n % base) :: ds).all visible := by
      rw [List.all_cons, digitChar_visible _ (Nat.lt_of_lt_of_le (Nat.mod_lt n hpos) hle), h]
      rfl
    unfold Nat.toDigitsCore
    dsimp only
    split_ifs
    · exact hcons
    · exact ih _ hcons

theorem toDigits_visible (n : ℕ) : (Nat.toDigits base n).all visible :=
  toDigitsCore_visible hpos hle (n + 1) n rfl

end

theorem toString_visible (n : ℕ) : (toString n).toList.all visible := by
  rw [Nat.toString_eq_ofList_toDigits, String.toList_ofList]
  exact toDigits_visible (by decide) (by decide) n

/-! ## Addresses -/

/-- `std::net::IpAddr`: four octets, or eight segments of 16 bits. -/
inductive IpAddr where
  | v4 (a b c d : UInt8)
  | v6 (segments : Vector UInt16 8)
deriving DecidableEq

namespace IpAddr

/-- `Display for Ipv4Addr` -/
def displayV4 (a b c d : UInt8) : String := s!"{a.toNat}.{b.toNat}.{c.toNat}.{d.toNat}"

/-- `write!(f, "{:x}", segment)` -/
def hex (segment : UInt16) : List Char := Nat.toDigits 16 segment.toNat

/-- `fmt_subslice`: the segments with colons between them. -/
def fmtSubslice (segments : List UInt16) : List Char :=
  [':'].intercalate (segments.map hex)

/-- A run of segments that are zero. -/
structure Span where
  start : ℕ
  len : ℕ
deriving DecidableEq

/-- The loop that finds the first longest run of zeros, from segment `i` on. -/
def zeroes (i : ℕ) (longest current : Span) : List UInt16 → Span
  | [] => longest
  | segment :: segments =>
    if segment = 0 then
      let current : Span := ⟨if current.len = 0 then i else current.start, current.len + 1⟩
      zeroes (i + 1) (if longest.len < current.len then current else longest) current segments
    else zeroes (i + 1) longest ⟨0, 0⟩ segments

/-- `Display for Ipv6Addr`: an address that maps an IPv4 one ends in its text, and the first longest
    run of at least two zeros is left out. -/
def displayV6 (segments : List UInt16) : String :=
  match segments with
  | [0, 0, 0, 0, 0, 0xffff, g, h] =>
    "::ffff:" ++ displayV4 (g >>> 8).toUInt8 g.toUInt8 (h >>> 8).toUInt8 h.toUInt8
  | _ =>
    let zeroes := zeroes 0 ⟨0, 0⟩ ⟨0, 0⟩ segments
    if 1 < zeroes.len then
      String.ofList (fmtSubslice (segments.take zeroes.start) ++ [':', ':'] ++
        fmtSubslice (segments.drop (zeroes.start + zeroes.len)))
    else String.ofList (fmtSubslice segments)

/-- `Display for IpAddr` -/
def display : IpAddr → String
  | v4 a b c d => displayV4 a b c d
  | v6 segments => displayV6 segments.toList

example : display (v4 127 0 0 1) = "127.0.0.1" := by decide
example : display (v6 #v[0x2001, 0xdb8, 0, 0, 1, 0, 0, 1]) = "2001:db8::1:0:0:1" := by decide
example : display (v6 #v[0, 0, 0, 0, 0, 0xffff, 0xc0a8, 0x1]) = "::ffff:192.168.0.1" := by decide
example : display (v6 #v[0, 0, 0, 0, 0, 0, 0, 1]) = "::1" := by decide

theorem displayV4_visible (a b c d : UInt8) : (displayV4 a b c d).toList.all visible := by
  have hdot : (".").toList.all visible := by decide
  have hab := append_visible (append_visible (toString_visible a.toNat) hdot)
    (toString_visible b.toNat)
  have habc := append_visible (append_visible hab hdot) (toString_visible c.toNat)
  exact append_visible (append_visible habc hdot) (toString_visible d.toNat)

theorem fmtSubslice_visible (segments : List UInt16) : (fmtSubslice segments).all visible := by
  have hhex : ∀ segment, (hex segment).all visible := fun segment =>
    toDigits_visible (by decide) (by decide) segment.toNat
  unfold fmtSubslice
  induction segments with
  | nil => rfl
  | cons segment segments ih =>
    cases segments with
    | nil =>
      rw [List.map_singleton, List.intercalate_singleton]
      exact hhex segment
    | cons next segments =>
      rw [List.map_cons] at ih
      rw [List.map_cons, List.map_cons, List.intercalate_cons_cons, List.all_append, List.all_append,
        hhex, ih]
      decide

theorem displayV6_visible (segments : List UInt16) : (displayV6 segments).toList.all visible := by
  unfold displayV6
  split
  · exact append_visible (by decide) (displayV4_visible ..)
  · dsimp only
    split_ifs
    · simp only [String.toList_ofList, List.all_append, fmtSubslice_visible]
      decide
    · rw [String.toList_ofList]
      exact fmtSubslice_visible segments

theorem display_visible (ip : IpAddr) : ip.display.toList.all visible := by
  cases ip with
  | v4 a b c d => exact displayV4_visible a b c d
  | v6 segments => exact displayV6_visible segments.toList

end IpAddr

end FerrumProxy
