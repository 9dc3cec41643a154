/-
  Backends as labels of the metrics.

  `escape_label_value` escapes the backslash and the double quote, in this order, and
  leaves a line feed as it is.  The text format of Prometheus escapes all three.  A
  backend may well contain a line feed: `Url::parse` removes it before it parses, and
  the configuration keeps the text as it was written.
-/
import FerrumProxy.System
import FerrumProxy.Lib.Escapes
import FerrumProxy.Lib.Paths

namespace FerrumProxy

open Lib Telemetry

/-! ## The text format -/

/-- The characters that `escape_label_value` escapes, with their codes. -/
def labelCode : Char → Option Char
  | '\\' => some '\\'
  | '"' => some '"'
  | _ => none

/-- The escapes that the text format knows in label values. -/
def labelEscape : Char → Option Char
  | '\\' => some '\\'
  | '"' => some '"'
  | 'n' => some '\n'
  | _ => none

/-- A label value as a reader of the text format decodes it. -/
def decodeLabelValue (s : String) : Option String :=
  (unescape '\\' labelEscape s.toList).map String.ofList

/-- The escaped value stays on its line and between its quotes, and is read back as it was. -/
def LabelSurvives (v : String) : Prop :=
  '\n' ∉ (escapeLabelValue v).toList ∧ '"' ∉ bare '\\' (escapeLabelValue v).toList ∧
    decodeLabelValue (escapeLabelValue v) = some v

/-- The two replacements are one escaping: the first one makes no quotes. -/
theorem toList_escapeLabelValue (v : String) :
    (escapeLabelValue v).toList = escape '\\' labelCode v.toList := by
  unfold escapeLabelValue replaceChar escape
  simp only [String.toList_ofList, List.flatMap_assoc]
  refine List.flatMap_congr fun c _ => ?_
  by_cases hslash : c = '\\'
  · subst hslash
    rfl
  · by_cases hquote : c = '"'
    · subst hquote
      rfl
    · have hcode : labelCode c = none := by
        unfold labelCode
        split <;> simp_all
      simp [escapeOne_of_none hcode, hslash, hquote]

theorem labelEscape_of_labelCode {c d : Char} (h : labelCode c = some d) :
    labelEscape d = some c := by
  unfold labelCode at h
  split at h
  · obtain rfl := Option.some.inj h
    rfl
  · obtain rfl := Option.some.inj h
    rfl
  · cases h

/-- **Every value is read back.** -/
theorem decodeLabelValue_escapeLabelValue (v : String) :
    decodeLabelValue (escapeLabelValue v) = some v := by
  unfold decodeLabelValue
  rw [toList_escapeLabelValue, unescape_escape (fun _ _ => labelEscape_of_labelCode) (by decide)]
  simp

theorem quote_not_mem_bare (v : String) : '"' ∉ bare '\\' (escapeLabelValue v).toList := by
  rw [toList_escapeLabelValue, bare_escape (by decide), List.mem_filter]
  exact fun h => absurd h.2 (by decide)

/-- Line feeds stay where they are. -/
theorem newline_mem_escapeLabelValue {v : String} :
    '\n' ∈ (escapeLabelValue v).toList ↔ '\n' ∈ v.toList := by
  rw [toList_escapeLabelValue, escape, List.mem_flatMap]
  constructor
  · rintro ⟨c, hc, hmem⟩
    cases hcode : labelCode c with
    | some d =>
      rw [escapeOne_of_some hcode] at hmem
      have hd := labelEscape_of_labelCode hcode
      obtain rfl : d = '\n' := by simpa [eq_comm] using hmem
      cases hd
    | none =>
      rw [escapeOne_of_none hcode, List.mem_singleton] at hmem
      rwa [hmem]
  · intro h
    exact ⟨'\n', h, by decide⟩

/-! ## The lines of the metrics -/

/-- The two metrics that have a backend as their label. -/
def backendMetrics : List String :=
  ["ferrum_proxy_backend_failures_total", "ferrum_proxy_backend_healthy"]

theorem newline_not_mem_toDigits (n : ℕ) : '\n' ∉ Nat.toDigits 10 n := fun h =>
  absurd (Nat.isDigit_of_mem_toDigits (by decide) (by decide) h) (by decide)

/-- A line for a backend is one line iff its label is. -/
theorem newline_mem_sample {metric value : String} (hmetric : metric ∈ backendMetrics) {n : ℕ} :
    '\n' ∈ (sample metric "backend" value n).toList ↔ '\n' ∈ value.toList := by
  have hname : '\n' ∉ metric.toList := by
    revert metric
    decide
  have hsample : sample metric "backend" value n =
      metric ++ "\x7b" ++ "backend" ++ "=\"" ++ value ++ "\"\x7d " ++ toString n := rfl
  rw [hsample]
  simp [hname, newline_not_mem_toDigits]

/-- The line that counts the failures of a backend. -/
def failuresLine (v : String) (count : ℕ) : String :=
  sample "ferrum_proxy_backend_failures_total" "backend" (escapeLabelValue v) count

/-- The line that says whether a backend is healthy. -/
def healthyLine (v : String) (healthy : Bool) : String :=
  sample "ferrum_proxy_backend_healthy" "backend" (escapeLabelValue v) (if healthy then 1 else 0)

section
variable {T : Telemetry} {statuses : List (String × Bool)} {v : String}

theorem failuresLine_mem {count : ℕ} (h : (v, count) ∈ T.backendFailures.entries) :
    failuresLine v count ∈ T.renderLines statuses := by
  have hline : failuresLine v count ∈ (sorted T.backendFailures).map fun e =>
      sample "ferrum_proxy_backend_failures_total" "backend" (escapeLabelValue e.1) e.2 :=
    List.mem_map.2 ⟨(v, count), (List.mem_insertionSort _).2 h, rfl⟩
  simp only [renderLines, List.mem_append, hline, or_true, true_or]

theorem healthyLine_mem {healthy : Bool} (h : (v, healthy) ∈ statuses) :
    healthyLine v healthy ∈ T.renderLines statuses := by
  have hline : healthyLine v healthy ∈ statuses.map fun e =>
      sample "ferrum_proxy_backend_healthy" "backend" (escapeLabelValue e.1)
        (if e.2 then 1 else 0) :=
    List.mem_map.2 ⟨(v, healthy), h, rfl⟩
  simp only [renderLines, List.mem_append, hline, or_true, true_or]

end

/-- **Labels.** A backend survives as a label iff it has no line feed; the lines that
    `render_prometheus` writes for it are one line each iff it has none; and distinct backends have
    distinct labels. -/
theorem labelSurvives_iff (v : String) :
    (LabelSurvives v ↔ '\n' ∉ v.toList) ∧
      (∀ (T : Telemetry) (statuses : List (String × Bool)),
        (∀ count, (v, count) ∈ T.backendFailures.entries →
          failuresLine v count ∈ T.renderLines statuses ∧
            ('\n' ∉ (failuresLine v count).toList ↔ '\n' ∉ v.toList)) ∧
        ∀ healthy, (v, healthy) ∈ statuses →
          healthyLine v healthy ∈ T.renderLines statuses ∧
            ('\n' ∉ (healthyLine v healthy).toList ↔ '\n' ∉ v.toList)) ∧
      ∀ w, escapeLabelValue v = escapeLabelValue w → v = w := by
  have hlines : ∀ metric ∈ backendMetrics, ∀ count,
      '\n' ∉ (sample metric "backend" (escapeLabelValue v) count).toList ↔ '\n' ∉ v.toList := by
    intro metric hmetric count
    rw [newline_mem_sample hmetric, newline_mem_escapeLabelValue]
  refine ⟨⟨fun h => ?_, fun h => ?_⟩, fun T statuses => ⟨?_, ?_⟩, fun w h => ?_⟩
  · rw [← newline_mem_escapeLabelValue]
    exact h.1
  · refine ⟨?_, quote_not_mem_bare v, decodeLabelValue_escapeLabelValue v⟩
    rwa [newline_mem_escapeLabelValue]
  · intro count hv
    exact ⟨failuresLine_mem hv, hlines _ (by decide) _⟩
  · intro healthy hv
    exact ⟨healthyLine_mem hv, hlines _ (by decide) _⟩
  · have hv := decodeLabelValue_escapeLabelValue v
    rw [h, decodeLabelValue_escapeLabelValue w] at hv
    exact (Option.some.inj hv).symm

/-- `Url::parse` as far as the first steps of the basic URL parser go: control characters and spaces
    at the ends are dropped, tabs and line breaks are removed everywhere. -/
def strippingCrate : UrlCrate :=
  { smallCrate with
    parse := fun s => smallCrate.parse (String.ofList
      ((trim (fun c => c.toNat ≤ 0x20) s.toList).filter fun c => !isTabOrNewline c)) }

/-- **A backend with a line feed** is accepted, its label is not escaped, and its line in the
    metrics is two lines. -/
theorem newline_backend_breaks_line :
    let v := "http://127.0.0.1:3001\n"
    let c := (small [v] 1 1 1).config
    let line := healthyLine v true
    c.validate strippingCrate = .ok () ∧ (∃ r ∈ c.routes, v ∈ r.backends) ∧
      '\n' ∈ (escapeLabelValue v).toList ∧ ¬ LabelSurvives v ∧
      line ∈ (Telemetry.new c.routes).renderLines [(v, true)] ∧ '\n' ∈ line.toList := by
  intro v c line
  have hmem : '\n' ∈ (escapeLabelValue v).toList := newline_mem_escapeLabelValue.2 (by decide)
  refine ⟨by decide +kernel, ⟨_, List.mem_singleton_self _, List.mem_singleton_self _⟩, hmem,
    fun h => h.1 hmem, healthyLine_mem (List.mem_singleton_self _), ?_⟩
  exact (newline_mem_sample (by decide)).2 hmem

end FerrumProxy
