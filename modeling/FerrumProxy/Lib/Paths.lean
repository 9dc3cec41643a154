/-
  The path state of the WHATWG URL parser, for a special scheme and with a state
  override (what the setter of a path runs).

  `parsePath` resolves the dot segments in all their spellings, takes a backslash
  as a slash and percent-encodes the characters of a set `encoded`.  A double-dot
  segment does not remove a drive letter, which the standard says of `file` only and
  the `url` crate does under any scheme.  The results of the parser
  are clean (`clean_parsePath`), and the clean paths are the ones it leaves as they
  are (`parsePath_of_clean`).  A path that is a prefix of a clean one, at the end of
  a segment, is clean as well (`Clean.of_isPrefix`).
-/
import Mathlib.Data.List.Basic

namespace Lib

/-! ## Percent-encoding -/

/-- A digit of a percent-encoded byte. -/
def hexDigit (n : ℕ) : Char := "0123456789ABCDEF".toList.getD n '0'

/-- `%XX` -/
def percentByte (n : ℕ) : List Char := ['%', hexDigit (n / 16), hexDigit (n % 16)]

/-- Percent-encode the UTF-8 bytes of the characters of the set `encoded`. -/
def percentEncode (encoded : Char → Bool) (c : Char) : List Char :=
  if encoded c then (String.utf8EncodeChar c).flatMap fun b => percentByte b.toNat else [c]

/-- The characters that percent-encoding produces. -/
def encodingChars : List Char := '%' :: "0123456789ABCDEF".toList

theorem hexDigit_mem (n : ℕ) : hexDigit n ∈ encodingChars := by
  refine List.mem_cons_of_mem _ ?_
  unfold hexDigit
  rw [List.getD_eq_getElem?_getD]
  cases h : "0123456789ABCDEF".toList[n]? with
  | none => decide
  | some c => exact List.mem_of_getElem? h

theorem percentEncode_of_not {encoded : Char → Bool} {c : Char} (h : encoded c = false) :
    percentEncode encoded c = [c] := by
  simp [percentEncode, h]

theorem mem_percentEncode {encoded : Char → Bool} {c d : Char}
    (hd : d ∈ percentEncode encoded c) : d ∈ encodingChars ∨ d = c ∧ encoded c = false := by
  unfold percentEncode at hd
  split_ifs at hd with hc
  · obtain ⟨b, -, hd⟩ := List.mem_flatMap.1 hd
    left
    rcases List.mem_cons.1 hd with rfl | hd
    · exact List.mem_cons_self ..
    rcases List.mem_cons.1 hd with rfl | hd
    · exact hexDigit_mem _
    · rw [List.mem_singleton.1 hd]
      exact hexDigit_mem _
  · exact Or.inr ⟨List.mem_singleton.1 hd, by simpa using hc⟩

/-! ## The parser -/

/-- A single-dot segment. -/
def isSingleDot (segment : List Char) : Bool :=
  segment.map Char.toLower ∈ [".".toList, "%2e".toList]

/-- A double-dot segment. -/
def isDoubleDot (segment : List Char) : Bool :=
  segment.map Char.toLower ∈
    ["..".toList, ".%2e".toList, "%2e.".toList, "%2e%2e".toList]

/-- A Windows drive letter. -/
def isDriveLetter : List Char → Bool
  | [c, d] => c.isAlpha && (d = ':' || d = '|')
  | _ => false

/-- Shorten a path by its last segment, unless that is a drive letter. -/
def shorten (path : List (List Char)) : List (List Char) :=
  if path.getLast?.any isDriveLetter then path else path.dropLast

/-- The end of a segment, which is followed by a slash or is the last one. -/
def endSegment (slash : Bool) (buffer : List Char) (path : List (List Char)) : List (List Char) :=
  if isDoubleDot buffer then
    if slash then shorten path else shorten path ++ [[]]
  else if isSingleDot buffer then
    if slash then path else path ++ [[]]
  else path ++ [buffer]

/-- The path state, from the buffer and the segments so far. -/
def pathState (encoded : Char → Bool) :
    List Char → List (List Char) → List Char → List (List Char)
  | buffer, path, [] => endSegment false buffer path
  | buffer, path, c :: cs =>
    if c = '/' ∨ c = '\\' then pathState encoded [] (endSegment true buffer path) cs
    else pathState encoded (buffer ++ percentEncode encoded c) path cs

/-- Removed from every input. -/
def isTabOrNewline (c : Char) : Bool := c = '\t' || c = '\n' || c = '\r'

/-- The path start state: a leading slash is skipped. -/
def skipSlash : List Char → List Char
  | [] => []
  | c :: cs => if c = '/' ∨ c = '\\' then cs else c :: cs

/-- The path serializer. -/
def serializePath (path : List (List Char)) : List Char := path.flatMap ('/' :: ·)

/-- Parse a path and serialize it again. -/
def parsePath (encoded : Char → Bool) (path : List Char) : List Char :=
  serializePath (pathState encoded [] [] (skipSlash (path.filter (!isTabOrNewline ·))))

/-! ## Clean paths -/

/-- A character that the parser keeps as it is. -/
def KeptChar (encoded : Char → Bool) (c : Char) : Prop :=
  c ≠ '/' ∧ c ≠ '\\' ∧ isTabOrNewline c = false ∧ encoded c = false

/-- A segment that the parser keeps as it is. -/
def KeptSegment (encoded : Char → Bool) (segment : List Char) : Prop :=
  isSingleDot segment = false ∧ isDoubleDot segment = false ∧ ∀ c ∈ segment, KeptChar encoded c

instance (encoded : Char → Bool) (c : Char) : Decidable (KeptChar encoded c) :=
  inferInstanceAs (Decidable (_ ∧ _ ∧ _ ∧ _))

instance (encoded : Char → Bool) (segment : List Char) : Decidable (KeptSegment encoded segment) :=
  decidable_of_iff (isSingleDot segment = false ∧ isDoubleDot segment = false ∧
    segment.all fun c => KeptChar encoded c) (by simp [KeptSegment])

/-- A path of segments none of which is a dot segment in any spelling, or contains a backslash or a
    character that is removed or percent-encoded. -/
def Clean (encoded : Char → Bool) (path : List Char) : Prop :=
  ∃ segments, segments ≠ [] ∧ (∀ s ∈ segments, KeptSegment encoded s) ∧
    path = serializePath segments

theorem encodingChars_plain {c : Char} (h : c ∈ encodingChars) :
    c ≠ '/' ∧ c ≠ '\\' ∧ isTabOrNewline c = false := by
  have hall : encodingChars.all fun c => c ≠ '/' ∧ c ≠ '\\' ∧ isTabOrNewline c = false := by decide
  exact of_decide_eq_true (List.all_eq_true.1 hall c h)

section
variable {encoded : Char → Bool}

theorem keptSegment_nil : KeptSegment encoded [] := ⟨by decide, by decide, by simp⟩

theorem shorten_subset (path : List (List Char)) : shorten path ⊆ path := by
  unfold shorten
  split_ifs
  · exact List.Subset.refl _
  · exact List.dropLast_subset _

theorem keptSegment_endSegment {slash : Bool} {buffer : List Char} {path : List (List Char)}
    (hb : ∀ c ∈ buffer, KeptChar encoded c) (hp : ∀ s ∈ path, KeptSegment encoded s) :
    ∀ s ∈ endSegment slash buffer path, KeptSegment encoded s := by
  have hshorten : ∀ s ∈ shorten path, KeptSegment encoded s :=
    fun s hs => hp s (shorten_subset path hs)
  have hconcat : ∀ path' s', (∀ s ∈ path', KeptSegment encoded s) → KeptSegment encoded s' →
      ∀ s ∈ path' ++ [s'], KeptSegment encoded s := by
    intro path' s' hp' hs' s hs
    rcases List.mem_append.1 hs with hs | hs
    · exact hp' s hs
    · rwa [List.mem_singleton.1 hs]
  unfold endSegment
  split_ifs with hdd hslash hsd hslash
  · exact hshorten
  · exact hconcat _ _ hshorten keptSegment_nil
  · exact hp
  · exact hconcat _ _ hp keptSegment_nil
  · exact hconcat _ _ hp ⟨by simpa using hsd, by simpa using hdd, hb⟩

theorem endSegment_false_ne_nil (buffer : List Char) (path : List (List Char)) :
    endSegment false buffer path ≠ [] := by
  unfold endSegment
  split_ifs with hdd hslash hsd hslash
  · simp at hslash
  · simp
  · simp at hslash
  · simp
  · simp

/-- What the path state yields is kept by it. -/
theorem keptSegment_pathState (hE : ∀ c ∈ encodingChars, encoded c = false) {buffer : List Char}
    {path : List (List Char)} {cs : List Char} (hcs : ∀ c ∈ cs, isTabOrNewline c = false)
    (hb : ∀ c ∈ buffer, KeptChar encoded c) (hp : ∀ s ∈ path, KeptSegment encoded s) :
    pathState encoded buffer path cs ≠ [] ∧
      ∀ s ∈ pathState encoded buffer path cs, KeptSegment encoded s := by
  induction cs generalizing buffer path with
  | nil => exact ⟨endSegment_false_ne_nil buffer path, keptSegment_endSegment hb hp⟩
  | cons c cs ih =>
    obtain ⟨hc, hcs⟩ := List.forall_mem_cons.1 hcs
    unfold pathState
    split_ifs with hslash
    · exact ih hcs (by simp) (keptSegment_endSegment hb hp)
    · refine ih hcs (fun d hd => ?_) hp
      rcases List.mem_append.1 hd with hd | hd
      · exact hb d hd
      · rcases mem_percentEncode hd with hd | ⟨rfl, hkeep⟩
        · obtain ⟨h₁, h₂, h₃⟩ := encodingChars_plain hd
          exact ⟨h₁, h₂, h₃, hE d hd⟩
        · exact ⟨fun h => hslash (Or.inl h), fun h => hslash (Or.inr h), hc, hkeep⟩

/-- **Results are clean.** -/
theorem clean_parsePath (hE : ∀ c ∈ encodingChars, encoded c = false) (path : List Char) :
    Clean encoded (parsePath encoded path) := by
  have hskip : ∀ cs : List Char, ∀ c ∈ skipSlash cs, c ∈ cs := by
    intro cs c hc
    unfold skipSlash at hc
    split at hc
    · exact hc
    · split_ifs at hc
      · exact List.mem_cons_of_mem _ hc
      · exact hc
  have hcs : ∀ c ∈ skipSlash (path.filter (!isTabOrNewline ·)), isTabOrNewline c = false :=
    fun c hc => by simpa using (List.mem_filter.1 (hskip _ c hc)).2
  have hnil : ∀ c ∈ ([] : List Char), KeptChar encoded c := by simp
  have hnil' : ∀ s ∈ ([] : List (List Char)), KeptSegment encoded s := by simp
  obtain ⟨hne, hkept⟩ := keptSegment_pathState hE hcs hnil hnil'
  exact ⟨_, hne, hkept, rfl⟩

example : parsePath (fun _ => false) "/a/b/.%2E/./\\c".toList = "/a//c".toList := by decide

example : parsePath (fun _ => false) "/a/c:/../b".toList = "/a/c:/b".toList := by decide

/-- Characters that are kept go to the buffer. -/
theorem pathState_kept {segment : List Char} (hs : ∀ c ∈ segment, KeptChar encoded c)
    (buffer : List Char) (path : List (List Char)) (cs : List Char) :
    pathState encoded buffer path (segment ++ cs) =
      pathState encoded (buffer ++ segment) path cs := by
  induction segment generalizing buffer with
  | nil => simp
  | cons c segment ih =>
    obtain ⟨⟨h₁, h₂, -, h₃⟩, hs⟩ := List.forall_mem_cons.1 hs
    rw [List.cons_append, pathState, if_neg (by simp [h₁, h₂]), percentEncode_of_not h₃, ih hs,
      List.append_assoc, List.singleton_append]

theorem endSegment_of_kept {segment : List Char} (hs : KeptSegment encoded segment) (slash : Bool)
    (path : List (List Char)) : endSegment slash segment path = path ++ [segment] := by
  rw [endSegment, if_neg (by simp [hs.2.1]), if_neg (by simp [hs.1])]

/-- Segments that are kept are appended one by one. -/
theorem pathState_serializePath {segment : List Char} {segments : List (List Char)}
    (hs : ∀ s ∈ segment :: segments, KeptSegment encoded s) (path : List (List Char)) :
    pathState encoded [] path (segment ++ serializePath segments) =
      path ++ segment :: segments := by
  induction segments generalizing segment path with
  | nil =>
    have hseg := hs segment (by simp)
    rw [pathState_kept hseg.2.2]
    exact endSegment_of_kept hseg false path
  | cons segment' segments ih =>
    obtain ⟨hseg, hs⟩ := List.forall_mem_cons.1 hs
    have hslash : serializePath (segment' :: segments) =
      '/' :: (segment' ++ serializePath segments) := rfl
    rw [pathState_kept hseg.2.2, hslash, pathState, if_pos (Or.inl rfl), List.nil_append,
      endSegment_of_kept hseg, ih hs, List.append_assoc, List.singleton_append]

/-- **Clean paths are left as they are.** -/
theorem parsePath_of_clean {path : List Char} (h : Clean encoded path) :
    parsePath encoded path = path := by
  obtain ⟨segments, hne, hs, rfl⟩ := h
  have hfilter : (serializePath segments).filter (!isTabOrNewline ·) = serializePath segments := by
    rw [List.filter_eq_self]
    intro c hc
    obtain ⟨s, hs', hc⟩ := List.mem_flatMap.1 hc
    rcases List.mem_cons.1 hc with rfl | hc
    · rfl
    · simp [((hs s hs').2.2 c hc).2.2.1]
  cases segments with
  | nil => exact absurd rfl hne
  | cons segment segments =>
    have hslash : skipSlash (serializePath (segment :: segments)) =
      segment ++ serializePath segments := rfl
    rw [parsePath, hfilter, hslash, pathState_serializePath hs, List.nil_append]

/-- A serialized path can be cut at a slash. -/
theorem serializePath_cut {segments : List (List Char)} (hs : ∀ s ∈ segments, '/' ∉ s)
    {l rest : List Char} (h : serializePath segments = l ++ '/' :: rest) :
    ∃ before after, segments = before ++ after ∧ l = serializePath before := by
  induction segments generalizing l with
  | nil => simp [serializePath] at h
  | cons s segments ih =>
    obtain ⟨hslash, hs⟩ := List.forall_mem_cons.1 hs
    cases l with
    | nil => exact ⟨[], _, rfl, rfl⟩
    | cons c l =>
      obtain ⟨rfl, heq⟩ : '/' = c ∧ s ++ serializePath segments = l ++ '/' :: rest :=
        List.cons.inj h
      rcases List.append_eq_append_iff.1 heq with ⟨l', rfl, h'⟩ | ⟨s', rfl, h'⟩
      · obtain ⟨before, after, rfl, rfl⟩ := ih hs h'
        exact ⟨s :: before, after, rfl, rfl⟩
      · -- the cut is at the end of `s`, which has no slash itself
        cases s' with
        | nil => exact ⟨[l], segments, by simp, by simp [serializePath]⟩
        | cons d s' =>
          obtain ⟨rfl, -⟩ := List.cons.inj h'
          simp at hslash

/-- What a clean path starts with, up to a slash, is clean. -/
theorem Clean.of_isPrefix {path l : List Char} (h : Clean encoded path) (hl : l ≠ [])
    (hp : l ++ ['/'] <+: path) : Clean encoded l := by
  obtain ⟨segments, -, hs, rfl⟩ := h
  obtain ⟨rest, hrest⟩ := hp
  have hcut : serializePath segments = l ++ '/' :: rest := by rw [← hrest]; simp
  obtain ⟨before, after, rfl, rfl⟩ :=
    serializePath_cut (fun s hs' hslash => ((hs s hs').2.2 '/' hslash).1 rfl) hcut
  refine ⟨before, ?_, fun s hs' => hs s (List.mem_append_left _ hs'), rfl⟩
  rintro rfl
  exact hl rfl

end

end Lib
