/-
  What a scraper reads from `/metrics`.

  `render_prometheus` writes families of samples, each behind two comment lines.  A reader
  of the text format skips the comments and decodes the label values; a raw line feed in a
  label value is an error for it.  If no backend contains one, it reads in every reachable
  state exactly one sample for each counter of the telemetry and for each backend
  (`metrics_read_exact`).
-/
import FerrumProxy.Labels
import FerrumProxy.Logging
import FerrumProxy.Trails

namespace FerrumProxy

open Lib Telemetry

/-! ## The reader -/

/-- A time series: the name of the metric, and its label with the value. -/
structure Series where
  name : String
  label : Option (String × String)
deriving DecidableEq, Repr

/-- Read a label value up to its closing quote. -/
def readLabel : List Char → Option (List Char × List Char)
  | [] => none
  | [c] => if c = '"' then some ([], []) else none
  | c :: d :: l =>
    if c = '"' then some ([], d :: l)
    else if c = '\n' then none
    else if c = '\\' then
      (labelEscape d).bind fun a => (readLabel l).map fun r => (a :: r.1, r.2)
    else (readLabel (d :: l)).map fun r => (c :: r.1, r.2)

theorem readLabel_quote (l : List Char) : readLabel ('"' :: l) = some ([], l) := by
  cases l <;> rfl

theorem readLabel_plain {c : Char} (hq : c ≠ '"') (hn : c ≠ '\n') (hs : c ≠ '\\')
    (l : List Char) : readLabel (c :: l) = (readLabel l).map fun r => (c :: r.1, r.2) := by
  cases l with
  | nil => simp [readLabel, hq]
  | cons d l => rw [readLabel, if_neg hq, if_neg hn, if_neg hs]

/-- An escaped value is read back. -/
theorem readLabel_escape {v : List Char} (h : '\n' ∉ v) (rest : List Char) :
    readLabel (escape '\\' labelCode v ++ '"' :: rest) = some (v, rest) := by
  induction v with
  | nil => exact readLabel_quote rest
  | cons c v ih =>
    obtain ⟨hc, hv⟩ := not_or.1 (List.mem_cons.not.1 h)
    rw [escape, List.flatMap_cons, List.append_assoc]
    change readLabel (escapeOne '\\' labelCode c ++ (escape '\\' labelCode v ++ '"' :: rest)) = _
    cases hcode : labelCode c with
    | some d =>
      rw [escapeOne_of_some hcode, List.cons_append, List.singleton_append, readLabel,
        if_neg (by decide), if_neg (by decide), if_pos rfl, labelEscape_of_labelCode hcode, ih hv]
      rfl
    | none =>
      have hq : c ≠ '"' := by
        rintro rfl
        cases hcode
      have hs : c ≠ '\\' := by
        rintro rfl
        cases hcode
      rw [escapeOne_of_none hcode, List.singleton_append, readLabel_plain hq (Ne.symm hc) hs, ih hv]
      rfl

/-- A label value as `escape_label_value` writes it, with the closing quote. -/
def labelValue : Codec Char String where
  write v := (escapeLabelValue v).toList ++ ['"']
  read l := (readLabel l).map fun r => (String.ofList r.1, r.2)
  Valid v := '\n' ∉ v.toList
  read_write v rest h := by
    rw [toList_escapeLabelValue, List.append_assoc, List.singleton_append, readLabel_escape h]
    simp

/-- The rest of a line behind the name: the value, or the label and the value. -/
def valueCodec : Codec Char (ℕ ⊕ ((String × String) × ℕ)) :=
  .choice (·.head? = some ' ') (.after [' '] (numberUpTo '\n'))
    (.after ['{'] ((((wordUpTo '=').pair (.after ['"'] labelValue)).pair
      (.after ['}', ' '] (numberUpTo '\n')))))

theorem valueCodec_starts (x : ℕ ⊕ ((String × String) × ℕ)) :
    ∃ c l, valueCodec.write x = c :: l ∧ c ∈ [' ', '{'] := by
  rcases x with n | x
  · exact ⟨' ', _, rfl, by simp⟩
  · exact ⟨'{', _, rfl, by simp⟩

/-- A sample: a series and its value. -/
def sampleCodec : Codec Char (Series × ℕ) :=
  (Codec.word [' ', '{'] valueCodec valueCodec_starts).via
    (fun e => (e.1.name.toList, match e.1.label with
      | none => .inl e.2
      | some label => .inr (label, e.2)))
    (fun r => match r.2 with
      | .inl n => (⟨String.ofList r.1, none⟩, n)
      | .inr x => (⟨String.ofList r.1, some x.1⟩, x.2))
    fun e => by
      obtain ⟨⟨name, _ | label⟩, n⟩ := e <;> simp

/-- A line: a comment or a sample. -/
def expositionLine : Codec Char (String ⊕ (Series × ℕ)) :=
  .choice (·.head? = some '#') (.after ['#'] (wordUpTo '\n')) sampleCodec

/-- Read the samples of a text. -/
def readExposition (text : List Char) : Option (List (Series × ℕ)) :=
  (expositionLine.readAll text.length text).map fun lines => lines.filterMap Sum.getRight?

/-! ## The document -/

/-- A family of samples with its two comment lines. -/
def family (name help type : String) (samples : List (Series × ℕ)) :
    List (String ⊕ (Series × ℕ)) :=
  .inl s!" HELP {name} {help}" :: .inl s!" TYPE {name} {type}" :: samples.map .inr

/-- The lines of `render_prometheus`, as values. -/
def document (T : Telemetry) (statuses : List (String × Bool)) : List (String ⊕ (Series × ℕ)) :=
  family "ferrum_proxy_requests_total" "Total HTTP requests handled by the proxy." "counter"
    [(⟨"ferrum_proxy_requests_total", none⟩, T.requestCount)] ++
  family "ferrum_proxy_upstream_request_duration_microseconds"
    "Total upstream request latency in microseconds." "summary"
    [(⟨"ferrum_proxy_upstream_request_duration_microseconds_sum", none⟩,
        T.upstreamLatencyTotalMicros),
      (⟨"ferrum_proxy_upstream_request_duration_microseconds_count", none⟩,
        T.upstreamLatencyCount)] ++
  family "ferrum_proxy_health_transitions_total" "Total health state transitions." "counter"
    [(⟨"ferrum_proxy_health_transitions_total", none⟩, T.healthTransitionsTotal)] ++
  family "ferrum_proxy_backend_failures_total" "Total passive or active backend failures."
    "counter" ((sorted T.backendFailures).map fun e =>
      (⟨"ferrum_proxy_backend_failures_total", some ("backend", e.1)⟩, e.2)) ++
  family "ferrum_proxy_backend_healthy" "Current backend health state." "gauge"
    (statuses.map fun e =>
      (⟨"ferrum_proxy_backend_healthy", some ("backend", e.1)⟩, if e.2 then 1 else 0)) ++
  family "ferrum_proxy_responses_total" "Total responses sent by status code." "counter"
    ((sorted T.responseStatuses).map fun e =>
      (⟨"ferrum_proxy_responses_total", some ("status_code", toString e.1)⟩, e.2)) ++
  family "ferrum_proxy_errors_total" "Total proxy errors by classification." "counter"
    ((sorted T.proxyErrors).map fun e =>
      (⟨"ferrum_proxy_errors_total", some ("kind", e.1)⟩, e.2))

/-- The text of a line, without its end. -/
def lineText : String ⊕ (Series × ℕ) → String
  | .inl comment => "#" ++ comment
  | .inr (⟨name, none⟩, n) => s!"{name} {n}"
  | .inr (⟨name, some (label, value)⟩, n) => sample name label (escapeLabelValue value) n

/-- The digits of a status need no escape. -/
theorem escapeLabelValue_repr (n : ℕ) : escapeLabelValue n.repr = n.repr := by
  refine String.toList_inj.1 ?_
  rw [toList_escapeLabelValue]
  refine escape_eq_self fun c hc => ?_
  have hdigit : c.isDigit := isDigit_of_mem (by simpa [Nat.repr] using hc)
  unfold labelCode
  split <;> first | rfl | cases hdigit

theorem map_family (name help type : String) (samples : List (Series × ℕ)) :
    (family name help type samples).map lineText =
      describe name help type ++ samples.map fun e => lineText (.inr e) := by
  rw [family, List.map_cons, List.map_cons, List.map_map]
  rfl

/-- `render_prometheus` writes the lines of the document. -/
theorem renderLines_eq (T : Telemetry) (statuses : List (String × Bool)) :
    T.renderLines statuses = (document T statuses).map lineText := by
  simp only [renderLines, document, List.map_append, map_family]
  simp [lineText, Function.comp_def]
  exact ⟨rfl, rfl, rfl, rfl, fun status count _ => by rw [escapeLabelValue_repr]⟩

theorem toList_lineText (line : String ⊕ (Series × ℕ)) :
    (lineText line ++ "\n").toList = expositionLine.write line := by
  have hstring : ∀ s : String, toString s = s := fun _ => rfl
  rcases line with comment | ⟨⟨name, _ | ⟨label, value⟩⟩, n⟩ <;>
    simp [lineText, expositionLine, Codec.choice, Codec.after, wordUpTo, Codec.via, Codec.upTo,
      sampleCodec, Codec.word, valueCodec, numberUpTo, Codec.pair, labelValue, sample, hstring]

/-! ## Valid lines -/

/-- A line that is read back: the texts from outside contain no line feed. -/
def LineValid : String ⊕ (Series × ℕ) → Prop
  | .inl comment => '\n' ∉ comment.toList
  | .inr (series, _) => lacks [' ', '{', '#'] series.name ∧ series.name ≠ "" ∧
    ∀ label, series.label = some label → '=' ∉ label.1.toList ∧ '\n' ∉ label.2.toList

theorem LineValid.valid {line : String ⊕ (Series × ℕ)} (h : LineValid line) :
    expositionLine.Valid line := by
  have hdigits : ∀ n, '\n' ∉ Nat.toDigits 10 n := fun n hmem =>
    absurd (isDigit_of_mem hmem) (by decide)
  rcases line with comment | ⟨⟨name, label⟩, n⟩
  · exact ⟨h, fun rest => rfl⟩
  · obtain ⟨hname, hne, hlabel⟩ := h
    replace hname := lacks_iff.1 hname
    have hword : ∀ c ∈ name.toList, c ∉ [' ', '{'] := fun c hc hmem =>
      hname c hc (by simp at hmem ⊢; tauto)
    have hvalue : ∀ x : ℕ ⊕ ((String × String) × ℕ),
        (∀ y, x = .inr y → '=' ∉ y.1.1.toList ∧ '\n' ∉ y.1.2.toList) → valueCodec.Valid x := by
      intro x hx
      rcases x with n | ⟨⟨key, value⟩, n⟩
      · exact ⟨hdigits n, fun _ => rfl⟩
      · obtain ⟨hkey, hval⟩ := hx _ rfl
        exact ⟨⟨⟨hkey, hval⟩, hdigits n⟩, fun _ => rfl⟩
    have hhash : ∀ l, (name.toList ++ l).head? ≠ some '#' := by
      intro l
      obtain ⟨c, cs, hcs⟩ := List.exists_cons_of_ne_nil (mt String.toList_eq_nil_iff.1 hne)
      rw [hcs]
      rintro heq
      obtain rfl := Option.some.inj heq
      exact hname '#' (by simp [hcs]) (by simp)
    refine ⟨⟨hword, hvalue _ ?_⟩, fun rest => ?_⟩
    · cases label with
      | none => simp
      | some label => rintro y ⟨⟩; exact hlabel label rfl
    · obtain ⟨l, hl⟩ : ∃ l, sampleCodec.write (⟨name, label⟩, n) = name.toList ++ l := ⟨_, rfl⟩
      dsimp only
      rw [hl, List.append_assoc]
      exact decide_eq_false (hhash _)

theorem toList_join (l : List String) : (String.join l).toList = l.flatMap String.toList := by
  induction l with
  | nil => rfl
  | cons s l ih => rw [String.join_cons, String.toList_append, ih, List.flatMap_cons]

theorem toList_renderPrometheus (T : Telemetry) (statuses : List (String × Bool)) :
    (T.renderPrometheus statuses).toList = (document T statuses).flatMap expositionLine.write := by
  rw [renderPrometheus, renderLines_eq, List.map_map, toList_join, List.flatMap_map]
  exact List.flatMap_congr fun line _ => toList_lineText line

/-! ## What is exposed -/

/-- The samples of the document. -/
def samples (T : Telemetry) (statuses : List (String × Bool)) : List (Series × ℕ) :=
  (document T statuses).filterMap Sum.getRight?

/-- What a sample of a series says about the telemetry and the backends. -/
inductive Exposes (T : Telemetry) (statuses : List (String × Bool)) : Series → ℕ → Prop
  | requests : Exposes T statuses ⟨"ferrum_proxy_requests_total", none⟩ T.requestCount
  | latencySum : Exposes T statuses
      ⟨"ferrum_proxy_upstream_request_duration_microseconds_sum", none⟩
      T.upstreamLatencyTotalMicros
  | latencyCount : Exposes T statuses
      ⟨"ferrum_proxy_upstream_request_duration_microseconds_count", none⟩ T.upstreamLatencyCount
  | transitions : Exposes T statuses ⟨"ferrum_proxy_health_transitions_total", none⟩
      T.healthTransitionsTotal
  | failures {b n} : T.backendFailures.get? b = some n →
      Exposes T statuses ⟨"ferrum_proxy_backend_failures_total", some ("backend", b)⟩ n
  | healthy {b up} : (b, up) ∈ statuses →
      Exposes T statuses ⟨"ferrum_proxy_backend_healthy", some ("backend", b)⟩ (if up then 1 else 0)
  | responses {status n} : T.responseStatuses.get? status = some n →
      Exposes T statuses ⟨"ferrum_proxy_responses_total", some ("status_code", toString status)⟩ n
  | errors {kind n} : T.proxyErrors.get? kind = some n →
      Exposes T statuses ⟨"ferrum_proxy_errors_total", some ("kind", kind)⟩ n

theorem filterMap_family (name help type : String) (l : List (Series × ℕ)) :
    (family name help type l).filterMap Sum.getRight? = l := by
  simp [family, List.filterMap_cons, Function.comp_def]

/-- The samples, family by family. -/
theorem samples_eq (T : Telemetry) (statuses : List (String × Bool)) :
    samples T statuses =
      [(⟨"ferrum_proxy_requests_total", none⟩, T.requestCount),
        (⟨"ferrum_proxy_upstream_request_duration_microseconds_sum", none⟩,
          T.upstreamLatencyTotalMicros),
        (⟨"ferrum_proxy_upstream_request_duration_microseconds_count", none⟩,
          T.upstreamLatencyCount),
        (⟨"ferrum_proxy_health_transitions_total", none⟩, T.healthTransitionsTotal)] ++
      ((sorted T.backendFailures).map fun e =>
        (⟨"ferrum_proxy_backend_failures_total", some ("backend", e.1)⟩, e.2)) ++
      (statuses.map fun e =>
        (⟨"ferrum_proxy_backend_healthy", some ("backend", e.1)⟩, if e.2 then 1 else 0)) ++
      ((sorted T.responseStatuses).map fun e =>
        (⟨"ferrum_proxy_responses_total", some ("status_code", toString e.1)⟩, e.2)) ++
      ((sorted T.proxyErrors).map fun e =>
        (⟨"ferrum_proxy_errors_total", some ("kind", e.1)⟩, e.2)) := by
  simp only [samples, document, List.filterMap_append, filterMap_family]
  rfl

theorem mem_sorted {κ : Type} [LinearOrder κ] (T : Table κ ℕ) (e : κ × ℕ) :
    e ∈ sorted T ↔ T.get? e.1 = some e.2 := by
  rw [sorted, List.mem_insertionSort, Table.mem_entries]

theorem nodup_sorted {κ : Type} [LinearOrder κ] (T : Table κ ℕ) :
    ((sorted T).map (·.1)).Nodup := by
  have hperm : ((sorted T).map (·.1)).Perm (T.entries.map (·.1)) :=
    (List.perm_insertionSort _ _).map _
  rw [hperm.nodup_iff, Table.map_fst_entries]
  exact T.nodup

theorem mem_samples {T : Telemetry} {statuses : List (String × Bool)} {series : Series} {n : ℕ} :
    (series, n) ∈ samples T statuses ↔ Exposes T statuses series n := by
  rw [samples_eq]
  simp only [List.mem_append, List.mem_cons, List.not_mem_nil, or_false, List.mem_map, Prod.mk.injEq,
    mem_sorted]
  constructor
  · rintro (((((⟨rfl, rfl⟩ | ⟨rfl, rfl⟩ | ⟨rfl, rfl⟩ | ⟨rfl, rfl⟩) | ⟨e, he, rfl, rfl⟩) |
      ⟨e, he, rfl, rfl⟩) | ⟨e, he, rfl, rfl⟩) | ⟨e, he, rfl, rfl⟩)
    · exact .requests
    · exact .latencySum
    · exact .latencyCount
    · exact .transitions
    · exact .failures he
    · exact .healthy he
    · exact .responses he
    · exact .errors he
  · intro h
    cases h with
    | requests => simp
    | latencySum => simp
    | latencyCount => simp
    | transitions => simp
    | failures he => exact .inl (.inl (.inl (.inr ⟨(_, _), he, rfl, rfl⟩)))
    | healthy he => exact .inl (.inl (.inr ⟨(_, _), he, rfl, rfl⟩))
    | responses he => exact .inl (.inr ⟨(_, _), he, rfl, rfl⟩)
    | errors he => exact .inr ⟨(_, _), he, rfl, rfl⟩

/-- The series of one name, with different labels. -/
theorem nodup_series {α : Type} {l : List (α × ℕ)} (h : (l.map (·.1)).Nodup)
    {series : α → Series} (hs : Function.Injective series) :
    (l.map fun e => series e.1).Nodup := by
  have hmap := h.map hs
  rwa [List.map_map] at hmap

/-- No series has two samples. -/
theorem nodup_samples {T : Telemetry} {statuses : List (String × Bool)}
    (h : (statuses.map (·.1)).Nodup) : ((samples T statuses).map (·.1)).Nodup := by
  have hlabel : ∀ name key, Function.Injective fun v : String => Series.mk name (some (key, v)) := by
    intro name key v w he
    simpa using he
  have hstatus : Function.Injective fun n : ℕ =>
      Series.mk "ferrum_proxy_responses_total" (some ("status_code", toString n)) := by
    intro n n' he
    have hrepr : toString n = toString n' := by simpa using he
    have hread := congrArg (fun s : String => Nat.ofDigitChars 10 s.toList 0) hrepr
    simpa [Nat.repr, Nat.ofDigitChars_ten_toDigits] using hread
  have hstatuses : (statuses.map fun e =>
      Series.mk "ferrum_proxy_backend_healthy" (some ("backend", e.1))).Nodup := by
    have hmap := h.map (hlabel "ferrum_proxy_backend_healthy" "backend")
    rwa [List.map_map] at hmap
  rw [samples_eq]
  simp only [List.map_append, List.map_map, Function.comp_def]
  refine List.nodup_append.2 ⟨List.nodup_append.2 ⟨List.nodup_append.2 ⟨List.nodup_append.2
    ⟨by simp, nodup_series (nodup_sorted _) (hlabel _ _), ?_⟩, hstatuses, ?_⟩,
    nodup_series (nodup_sorted _) hstatus, ?_⟩,
    nodup_series (nodup_sorted _) (hlabel _ _), ?_⟩
  -- the names of the families differ
  all_goals
    rintro series hleft _ hright rfl
    obtain ⟨e, -, rfl⟩ := List.mem_map.1 hright
    simp at hleft

/-- A family of valid samples. -/
theorem lineValid_family {name help type : String} {l : List (Series × ℕ)}
    (hcomment : ∀ text ∈ [name, help, type], '\n' ∉ text.toList)
    (h : ∀ e ∈ l, LineValid (.inr e)) : ∀ line ∈ family name help type l, LineValid line := by
  have hname := hcomment name (by simp)
  have hhelp := hcomment help (by simp)
  have htype := hcomment type (by simp)
  intro line hline
  simp only [family, List.mem_cons, List.mem_map] at hline
  rcases hline with rfl | rfl | ⟨e, he, rfl⟩
  · show '\n' ∉ (" HELP " ++ name ++ " " ++ help).toList
    simp [hname, hhelp]
  · show '\n' ∉ (" TYPE " ++ name ++ " " ++ type).toList
    simp [hname, htype]
  · exact h e he

/-- The lines of the document are valid when the texts from outside have no line feed. -/
theorem lineValid_document {T : Telemetry} {statuses : List (String × Bool)}
    (hfailures : ∀ b ∈ T.backendFailures.keys, '\n' ∉ b.toList)
    (hstatuses : ∀ e ∈ statuses, '\n' ∉ e.1.toList)
    (herrors : ∀ kind ∈ T.proxyErrors.keys, '\n' ∉ kind.toList) :
    ∀ line ∈ document T statuses, LineValid line := by
  have hdigits : ∀ n : ℕ, '\n' ∉ (toString n).toList := fun n hmem =>
    absurd (isDigit_of_mem (by simpa [Nat.repr] using hmem)) (by decide : ¬ '\n'.isDigit)
  have hplain : ∀ name n, lacks [' ', '{', '#'] name → name ≠ "" →
      LineValid (.inr (⟨name, none⟩, n)) := fun name n hname hne => ⟨hname, hne, by simp⟩
  have hlabelled : ∀ name key value n, lacks [' ', '{', '#'] name → name ≠ "" →
      '=' ∉ key.toList → '\n' ∉ value.toList → LineValid (.inr (⟨name, some (key, value)⟩, n)) := by
    intro name key value n hname hne hkey hvalue
    exact ⟨hname, hne, by rintro label ⟨⟩; exact ⟨hkey, hvalue⟩⟩
  have htable : ∀ {κ : Type} [LinearOrder κ] (T : Table κ ℕ) {e : κ × ℕ},
      e ∈ sorted T → e.1 ∈ T.keys := by
    intro κ _ T e he
    exact (T.mem_keys _).2 (by simp [(mem_sorted T e).1 he])
  simp only [document, List.forall_mem_append]
  refine ⟨⟨⟨⟨⟨⟨?_, ?_⟩, ?_⟩, ?_⟩, ?_⟩, ?_⟩, ?_⟩ <;> refine lineValid_family (by decide) ?_
  · simpa using hplain _ _ (by decide) (by decide)
  · simpa using ⟨hplain _ _ (by decide) (by decide), hplain _ _ (by decide) (by decide)⟩
  · simpa using hplain _ _ (by decide) (by decide)
  · rintro _ hmem
    obtain ⟨e, he, rfl⟩ := List.mem_map.1 hmem
    exact hlabelled _ _ _ _ (by decide) (by decide) (by decide) (hfailures _ (htable _ he))
  · rintro _ hmem
    obtain ⟨e, he, rfl⟩ := List.mem_map.1 hmem
    exact hlabelled _ _ _ _ (by decide) (by decide) (by decide) (hstatuses e he)
  · rintro _ hmem
    obtain ⟨e, he, rfl⟩ := List.mem_map.1 hmem
    exact hlabelled _ _ _ _ (by decide) (by decide) (by decide) (hdigits _)
  · rintro _ hmem
    obtain ⟨e, he, rfl⟩ := List.mem_map.1 hmem
    exact hlabelled _ _ _ _ (by decide) (by decide) (by decide) (herrors _ (htable _ he))

/-- **Round trip.** -/
theorem readExposition_renderPrometheus {T : Telemetry} {statuses : List (String × Bool)}
    (h : ∀ line ∈ document T statuses, LineValid line) :
    readExposition (T.renderPrometheus statuses).toList = some (samples T statuses) := by
  have hne : ∀ line, expositionLine.write line ≠ [] := by
    intro line hnil
    have := (toList_lineText line).trans hnil
    simp at this
  have hlen : (document T statuses).length ≤ (T.renderPrometheus statuses).toList.length := by
    rw [toList_renderPrometheus]
    clear h
    induction document T statuses with
    | nil => exact Nat.zero_le _
    | cons line lines ih =>
      have := List.length_pos_iff.2 (hne line)
      rw [List.flatMap_cons, List.length_append, List.length_cons]
      omega
  rw [readExposition]
  generalize (T.renderPrometheus statuses).toList.length = n at hlen
  rw [toList_renderPrometheus, Codec.readAll_flatMap _ hne _ (fun line hl => (h line hl).valid) hlen]
  rfl

/-! ## In every reachable state -/

theorem nodup_backendStatuses (m : HealthManager) (now : ℕ) :
    ((m.backendStatuses now).2.map (·.1)).Nodup := by
  have hperm : ((m.backendStatuses now).2.map (·.1)).Perm m.backendHealth.keys := by
    simp only [HealthManager.backendStatuses, HealthManager.mapStatuses_eq]
    refine ((List.perm_insertionSort _ _).map _).trans (.of_eq ?_)
    rw [List.map_map]
    exact List.map_id _
  exact hperm.nodup_iff.2 m.backendHealth.nodup

/-- The health manager counts no errors. -/
theorem proxyErrors_healthCalls (m : HealthManager) (now : ℕ) (c : HealthManager.Event)
    (T : Telemetry) : ((Sys.healthCalls m now c).foldl Telemetry.apply T).proxyErrors =
      T.proxyErrors := by
  have hkeep : ∀ (cs : List Telemetry.Call), (∀ call ∈ cs, ¬ call.silent) → ∀ T : Telemetry,
      (cs.foldl Telemetry.apply T).proxyErrors = T.proxyErrors := by
    intro cs
    induction cs with
    | nil => exact fun _ _ => rfl
    | cons call cs ih =>
      intro hcs T
      obtain ⟨hcall, hcs⟩ := List.forall_mem_cons.1 hcs
      rw [List.foldl_cons, ih hcs]
      cases call <;> first | rfl | exact absurd rfl hcall
  have htransition : ∀ b tr, ∀ call ∈ m.recordTransition b tr, ¬ call.silent := by
    intro b tr call hcall
    unfold HealthManager.recordTransition at hcall
    split_ifs at hcall
    · obtain ⟨tr', -, rfl⟩ := List.mem_map.1 hcall
      exact Bool.false_ne_true
    · cases hcall
  refine hkeep _ ?_ T
  cases c with
  | recordSuccess b =>
    simp only [Sys.healthCalls, HealthManager.recordSuccess]
    split
    · simp
    · exact htransition b _
  | recordFailure b =>
    simp only [Sys.healthCalls, HealthManager.recordFailure]
    split
    · simp
    · refine List.forall_mem_append.2 ⟨fun call hcall => ?_, htransition b _⟩
      split_ifs at hcall
      · rw [List.mem_singleton.1 hcall]
        exact Bool.false_ne_true
      · cases hcall
  | healthyBackends | backendStatuses => simp [Sys.healthCalls]

/-- The kinds of errors are those of the code. -/
theorem proxyErrors_frame :
    Frame (fun _ => True) fun s => ∀ kind ∈ s.telemetry.proxyErrors.keys, kind ∈ proxyErrorKinds where
  env _ _ _ _ _ _ hs := hs
  emit _ _ _ _ hs := hs
  record s c hc hs := by
    cases c with
    | proxyError kind =>
      intro kind' hk
      rw [Table.mem_keys] at hk
      by_cases he : kind' = kind
      · exact he ▸ of_decide_eq_true hc
      · refine hs kind' ((Table.mem_keys _ _).2 ?_)
        rwa [show (s.record (.proxyError kind)).telemetry.proxyErrors =
          bump s.telemetry.proxyErrors kind from rfl, bump, Table.get?_insert_ne _ _ he] at hk
    | _ => exact hs
  callHealth s source c _ hs := by
    rwa [show (s.callHealth source c).telemetry.proxyErrors = s.telemetry.proxyErrors from
      proxyErrors_healthCalls ..]

theorem newline_not_mem_proxyErrorKinds : ∀ kind ∈ proxyErrorKinds, '\n' ∉ kind.toList := by decide

/-- **What a scraper reads.** If no backend contains a line feed, the text of `/metrics` is read as
    one sample for each series, with the values of the telemetry and the statuses; each configured
    backend is read with the failures recorded for it and with its eligibility. -/
theorem metrics_read_exact (P : Setup) {s : Sys} (h : P.Reachable s)
    (hb : ∀ r ∈ P.config.routes, ∀ b ∈ r.backends, '\n' ∉ b.toList) (t : ℕ) :
    ∃ l, readExposition (s.telemetry.renderPrometheus (s.health.backendStatuses t).2).toList =
        some l ∧
      (l.map (·.1)).Nodup ∧
      (∀ series n, (series, n) ∈ l ↔
        Exposes s.telemetry (s.health.backendStatuses t).2 series n) ∧
      ∀ r ∈ P.config.routes, ∀ b ∈ r.backends, ∃ st, s.health.backendHealth.get? b = some st ∧
        (⟨"ferrum_proxy_backend_failures_total", some ("backend", b)⟩,
          (healthHistory s.log).countP (·.2 = .recordFailure b)) ∈ l ∧
        (⟨"ferrum_proxy_backend_healthy", some ("backend", b)⟩,
          if st.eligible t then 1 else 0) ∈ l := by
  have hconfigured : ∀ b, (∃ r ∈ P.config.routes, b ∈ r.backends) → '\n' ∉ b.toList :=
    fun b ⟨r, hr, hmem⟩ => hb r hr b hmem
  have hhealth : ∀ b, (s.health.backendHealth.get? b).isSome ↔
      ∃ r ∈ P.config.routes, b ∈ r.backends := by
    intro b
    rw [h.replays.health]
    exact P.fresh.isSome_iff _ b
  have hlines : ∀ line ∈ document s.telemetry (s.health.backendStatuses t).2, LineValid line := by
    refine lineValid_document (fun b hmem => hconfigured b ?_) (fun e he => hconfigured e.1 ?_)
      fun kind hkind => newline_not_mem_proxyErrorKinds kind ?_
    · rw [Table.mem_keys, h.backendFailures] at hmem
      by_contra hnone
      simp [hnone] at hmem
    · obtain ⟨st, hst, -⟩ := (HealthManager.mem_backendStatuses ..).1 he
      exact (hhealth e.1).1 (by simp [hst])
    · exact proxyErrors_frame.reachable (P := P) (by simp [Setup.initial, Telemetry.new, Table.empty])
        h kind hkind
  refine ⟨_, readExposition_renderPrometheus hlines, nodup_samples (nodup_backendStatuses _ _),
    fun _ _ => mem_samples, fun r hr b hmem => ?_⟩
  obtain ⟨st, hst⟩ := Option.isSome_iff_exists.1 ((hhealth b).2 ⟨r, hr, hmem⟩)
  refine ⟨st, hst, mem_samples.2 (.failures ?_), mem_samples.2 (.healthy ?_)⟩
  · rw [h.backendFailures b, if_pos ⟨r, hr, hmem⟩]
  · exact (HealthManager.mem_backendStatuses ..).2 ⟨st, hst, rfl⟩

/-- A scrape one nanosecond after the only backend has failed a check. -/
theorem metrics_read_exact_ejected :
    let P := small ["http://127.0.0.1:3001"] 1 1 1
    ∃ s l, exec (Sys.step P) P.initial [(0, .checked "http://127.0.0.1:3001" 500)] = some s ∧
      readExposition (s.telemetry.renderPrometheus (s.health.backendStatuses 1).2).toList = some l ∧
      (⟨"ferrum_proxy_backend_failures_total", some ("backend", "http://127.0.0.1:3001")⟩, 1) ∈ l ∧
      (⟨"ferrum_proxy_backend_healthy", some ("backend", "http://127.0.0.1:3001")⟩, 0) ∈ l := by
  intro P
  obtain ⟨s, hs, hp⟩ := exists_of_exec_any (Sys.step P) P.initial
    [(0, .checked "http://127.0.0.1:3001" 500)]
    (fun s => decide (healthHistory s.log = [(0, .recordFailure "http://127.0.0.1:3001")] ∧
      (s.health.backendHealth.get? "http://127.0.0.1:3001").any (!·.eligible 1)))
    (by decide +kernel)
  obtain ⟨hlog, hst'⟩ := of_decide_eq_true hp
  obtain ⟨l, hl, -, -, hbackends⟩ := metrics_read_exact P (P.reachable_of_exec hs) (by decide) 1
  obtain ⟨st, hst, hfailures, hhealthy⟩ := hbackends _ (List.mem_singleton_self _) _
    (List.mem_singleton_self "http://127.0.0.1:3001")
  rw [hlog] at hfailures
  rw [hst] at hst'
  have heligible : st.eligible 1 = false := by simpa using hst'
  rw [heligible] at hhealthy
  exact ⟨s, l, hs, hl, hfailures, hhealthy⟩

end FerrumProxy
