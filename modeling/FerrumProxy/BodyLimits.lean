/-
  The limits on bodies.

  `limit_body_stream` counts what it receives, the rejected chunks included, and goes
  on after an error.  Its frames are the longest leading part of the chunks that fits
  the limit (`frames_limitBodyStream`).  `Limiter` is the closure as the machine runs
  it, with a `u64` counter and the calls of the hook; on fewer than `2 ^ 64` bytes it
  is `limitBodyStream`.

  `buffer_request_body` stops at the first item that `limit_body_stream` rejects, with
  the same kind.  An upstream response is judged by its `Content-Length` as well,
  which for a response without a body says nothing about what is delivered.
-/
import FerrumProxy.System
import FerrumProxy.Lib.Quotas

namespace FerrumProxy

open Lib

/-! ## Chunks and frames -/

/-- The data of an item. -/
def StreamItem.chunk? : StreamItem → Option Bytes
  | .data bytes => some bytes
  | _ => none

/-- The chunks received. -/
def chunks (items : List StreamItem) : List Bytes := items.filterMap StreamItem.chunk?

/-- The number of bytes received. -/
def received (items : List StreamItem) : ℕ := ((chunks items).map List.length).sum

/-- The data frames emitted. -/
def frames {ε : Type} (emitted : List (Except ε Bytes)) : List Bytes :=
  emitted.filterMap Except.toOption

/-- The kinds of the error items. -/
def errorKinds (emitted : List (Except StreamError Bytes)) : List String :=
  emitted.filterMap fun
    | .ok _ => none
    | .error err => some err.kind

section
variable {maxBytes idleTimeout seen : ℕ} {context : String} {items : List StreamItem}

@[simp] theorem chunks_nil : chunks [] = [] := rfl

@[simp] theorem chunks_data (bytes : Bytes) (items : List StreamItem) :
    chunks (.data bytes :: items) = bytes :: chunks items := rfl

@[simp] theorem chunks_readError (text : String) (items : List StreamItem) :
    chunks (.readError text :: items) = chunks items := rfl

@[simp] theorem chunks_idleElapsed (items : List StreamItem) :
    chunks (.idleElapsed :: items) = chunks items := rfl

@[simp] theorem received_nil : received [] = 0 := rfl

theorem received_data (bytes : Bytes) : received [.data bytes] = bytes.length := by
  simp [received]

theorem received_cons (item : StreamItem) (items : List StreamItem) :
    received (item :: items) = received [item] + received items := by
  cases item with
  | data bytes => simp [received]
  | readError text => simp [received]
  | idleElapsed => simp [received]

theorem errorKinds_append (es es' : List (Except StreamError Bytes)) :
    errorKinds (es ++ es') = errorKinds es ++ errorKinds es' := List.filterMap_append

theorem errorKinds_cons (e : Except StreamError Bytes) (es : List (Except StreamError Bytes)) :
    errorKinds (e :: es) = errorKinds [e] ++ errorKinds es := errorKinds_append [e] es

theorem errorKinds_map_ok (cs : List Bytes) : errorKinds (cs.map .ok) = [] := by
  unfold errorKinds
  rw [List.filterMap_map]
  exact List.filterMap_none cs

theorem limitItem_data_of_le {bytes : Bytes} (h : seen + bytes.length ≤ maxBytes) :
    limitItem maxBytes idleTimeout context seen (.data bytes) =
      (seen + bytes.length, .ok bytes) :=
  if_neg (Nat.not_lt.2 h)

theorem limitItem_data_of_lt {bytes : Bytes} (h : maxBytes < seen + bytes.length) :
    limitItem maxBytes idleTimeout context seen (.data bytes) = (seen + bytes.length,
      .error ⟨sizeLimitKind context, s!"{context} exceeded {maxBytes} byte limit"⟩) :=
  if_pos h

/-- The counter counts every chunk. -/
theorem limitItem_fst (item : StreamItem) :
    (limitItem maxBytes idleTimeout context seen item).1 = seen + received [item] := by
  cases item with
  | data bytes =>
    rw [received_data]
    rcases Nat.lt_or_ge maxBytes (seen + bytes.length) with h | h
    · rw [limitItem_data_of_lt h]
    · rw [limitItem_data_of_le h]
  | readError text => rfl
  | idleElapsed => rfl

/-- An item is emitted iff it is data and the counter is within the limit after it. -/
theorem limitItem_snd_eq_ok {item : StreamItem} {bytes : Bytes} :
    (limitItem maxBytes idleTimeout context seen item).2 = .ok bytes ↔
      item = .data bytes ∧ seen + bytes.length ≤ maxBytes := by
  cases item with
  | data bytes' =>
    rcases Nat.lt_or_ge maxBytes (seen + bytes'.length) with h | h
    · rw [limitItem_data_of_lt h]
      simp only [reduceCtorEq, StreamItem.data.injEq, false_iff, not_and]
      rintro rfl
      exact Nat.not_le.2 h
    · rw [limitItem_data_of_le h]
      simp only [Except.ok.injEq, StreamItem.data.injEq]
      constructor
      · rintro rfl
        exact ⟨rfl, h⟩
      · exact fun hb => hb.1
  | readError text => simp [limitItem]
  | idleElapsed => simp [limitItem]

@[simp] theorem length_limitBodyStream :
    (limitBodyStream maxBytes idleTimeout context seen items).length = items.length := by
  induction items generalizing seen with
  | nil => rfl
  | cons item items ih => simp [limitBodyStream, ih]

/-- The item emitted at a position depends on what was received before. -/
theorem getElem?_limitBodyStream (i : ℕ) :
    (limitBodyStream maxBytes idleTimeout context seen items)[i]? = items[i]?.map fun item =>
      (limitItem maxBytes idleTimeout context (seen + received (items.take i)) item).2 := by
  induction items generalizing seen i with
  | nil => simp [limitBodyStream]
  | cons item items ih =>
    cases i with
    | zero => simp [limitBodyStream]
    | succ i =>
      rw [limitBodyStream, limitItem_fst, List.getElem?_cons_succ, ih, List.take_succ_cons,
        received_cons item (items.take i), Nat.add_assoc]
      rfl

/-- **What is emitted** is the longest leading part of the chunks that fits the limit. -/
theorem frames_limitBodyStream :
    frames (limitBodyStream maxBytes idleTimeout context seen items) =
      fitting List.length maxBytes seen (chunks items) := by
  induction items generalizing seen with
  | nil => rfl
  | cons item items ih =>
    cases item with
    | data bytes =>
      have hrest : frames (limitBodyStream maxBytes idleTimeout context (seen + bytes.length)
          items) = fitting List.length maxBytes (seen + bytes.length) (chunks items) := ih
      rw [limitBodyStream]
      rcases Nat.lt_or_ge maxBytes (seen + bytes.length) with h | h
      · -- past the limit nothing fits any more
        rw [fitting_of_lt h] at hrest
        rw [limitItem_data_of_lt h, chunks_data, fitting, if_neg (Nat.not_le.2 h)]
        exact hrest
      · rw [limitItem_data_of_le h, chunks_data, fitting, if_pos h]
        exact congrArg (bytes :: ·) hrest
    | readError text => exact ih
    | idleElapsed => exact ih

end

/-! ## The closure on the machine -/

/-- The closure of `limit_body_stream` between two items: the value of `seen`, and the calls that
    were made of `error_hook`. -/
structure Limiter where
  seen : ℕ := 0
  hookCalls : List String := []

namespace Limiter

variable (hook : Bool) (maxBytes idleTimeout : ℕ) (context : String)

/-- `notify_error`; there may be no hook. -/
def notifyError (l : Limiter) (kind : String) : Limiter :=
  if hook then { l with hookCalls := l.hookCalls ++ [kind] } else l

/-- The closure, on one item; an error is known by its text. -/
def item (l : Limiter) : StreamItem → Limiter × Except String Bytes
  | .data bytes =>
    let seen := (l.seen + bytes.length) % 2 ^ 64
    if maxBytes < seen then
      ({ l with seen := seen }.notifyError hook (sizeLimitKind context),
        .error s!"{context} exceeded {maxBytes} byte limit")
    else ({ l with seen := seen }, .ok bytes)
  | .readError text => (l.notifyError hook (readFailureKind context), .error text)
  | .idleElapsed => (l.notifyError hook (timeoutKind context),
      .error s!"{context} idle timeout: no data received for {idleTimeout / 1000000} ms")

/-- The stream, polled to the end of the sequence whatever it yields. -/
def run : Limiter → List StreamItem → Limiter × List (Except String Bytes)
  | l, [] => (l, [])
  | l, i :: is =>
    let (l, emitted) := l.item hook maxBytes idleTimeout context i
    let (l, rest) := run l is
    (l, emitted :: rest)

variable {hook maxBytes idleTimeout context} {l : Limiter}

/-- The calls of the hook for some items. -/
def called (hook : Bool) (kinds : List String) : List String := if hook then kinds else []

theorem called_append (hook : Bool) (ks ks' : List String) :
    called hook (ks ++ ks') = called hook ks ++ called hook ks' := by
  cases hook <;> simp [called]

theorem notifyError_eq (kind : String) :
    l.notifyError hook kind = ⟨l.seen, l.hookCalls ++ called hook [kind]⟩ := by
  cases hook <;> simp [notifyError, called]

/-- Without overflow the closure is `limitItem`, and the hook is called for its errors. -/
theorem item_eq (i : StreamItem) (h : l.seen + received [i] < 2 ^ 64) :
    l.item hook maxBytes idleTimeout context i =
      (⟨l.seen + received [i],
        l.hookCalls ++
          called hook (errorKinds [(limitItem maxBytes idleTimeout context l.seen i).2])⟩,
        (limitItem maxBytes idleTimeout context l.seen i).2.mapError (·.text)) := by
  cases i with
  | data bytes =>
    rw [received_data] at h ⊢
    have hmod : (l.seen + bytes.length) % 2 ^ 64 = l.seen + bytes.length := Nat.mod_eq_of_lt h
    simp only [item, hmod]
    rcases Nat.lt_or_ge maxBytes (l.seen + bytes.length) with hlt | hle
    · rw [limitItem_data_of_lt hlt, if_pos hlt, notifyError_eq]
      rfl
    · rw [limitItem_data_of_le hle, if_neg (Nat.not_lt.2 hle)]
      simp [errorKinds, called, Except.mapError]
  | readError text => exact Prod.ext (notifyError_eq _) rfl
  | idleElapsed => exact Prod.ext (notifyError_eq _) rfl

/-- **The stream on the machine.** On fewer than `2 ^ 64` bytes it is `limitBodyStream`, and the
    hook is called for its error items, in their order. -/
theorem run_eq (is : List StreamItem) (h : l.seen + received is < 2 ^ 64) :
    l.run hook maxBytes idleTimeout context is =
      (⟨l.seen + received is,
        l.hookCalls ++
          called hook (errorKinds (limitBodyStream maxBytes idleTimeout context l.seen is))⟩,
        (limitBodyStream maxBytes idleTimeout context l.seen is).map
          (Except.mapError (·.text))) := by
  induction is generalizing l with
  | nil => simp [run, limitBodyStream, errorKinds, called]
  | cons i is ih =>
    rw [received_cons, ← Nat.add_assoc] at h
    rw [limitBodyStream, limitItem_fst, errorKinds_cons, called_append, received_cons,
      ← Nat.add_assoc, ← List.append_assoc, List.map_cons, run, item_eq i (by omega)]
    dsimp only
    rw [ih h]

end Limiter

/-- The kind of the cause of an error item; a chunk is only replaced by one on account of its
    size. -/
def causeKind (context : String) : StreamItem → String
  | .data _ => sizeLimitKind context
  | .readError _ => readFailureKind context
  | .idleElapsed => timeoutKind context

/-- The kind that is due for an item and what is emitted for it. -/
def dueKind (context : String) (p : StreamItem × Except String Bytes) : Option String :=
  match p.2 with
  | .ok _ => none
  | .error _ => some (causeKind context p.1)

section
variable {maxBytes idleTimeout seen : ℕ} {context : String} {items : List StreamItem}

/-- The kind of an error item is the one of its cause. -/
theorem errorKinds_limitItem (item : StreamItem) :
    errorKinds [(limitItem maxBytes idleTimeout context seen item).2] = (dueKind context
      (item, (limitItem maxBytes idleTimeout context seen item).2.mapError (·.text))).toList := by
  cases item with
  | data bytes =>
    rcases Nat.lt_or_ge maxBytes (seen + bytes.length) with h | h
    · rw [limitItem_data_of_lt h]
      rfl
    · rw [limitItem_data_of_le h]
      rfl
  | readError text => rfl
  | idleElapsed => rfl

theorem errorKinds_limitBodyStream :
    errorKinds (limitBodyStream maxBytes idleTimeout context seen items) =
      (items.zip ((limitBodyStream maxBytes idleTimeout context seen items).map
        (Except.mapError (·.text)))).filterMap (dueKind context) := by
  induction items generalizing seen with
  | nil => rfl
  | cons item items ih =>
    rw [limitBodyStream, errorKinds_cons, errorKinds_limitItem, ih, List.map_cons,
      List.zip_cons_cons, List.filterMap_cons]
    cases dueKind context
      (item, (limitItem maxBytes idleTimeout context seen item).2.mapError (·.text)) <;> rfl

theorem mapError_eq_ok {ε ε' : Type} {f : ε → ε'} {e : Except ε Bytes} {bytes : Bytes} :
    e.mapError f = .ok bytes ↔ e = .ok bytes := by
  cases e <;> simp [Except.mapError]

theorem frames_mapError {ε ε' : Type} (f : ε → ε') (emitted : List (Except ε Bytes)) :
    frames (emitted.map (Except.mapError f)) = frames emitted := by
  unfold frames
  rw [List.filterMap_map]
  exact List.filterMap_congr fun e _ => by cases e <;> rfl

theorem received_take_succ {i : ℕ} {bytes : Bytes} (h : items[i]? = some (.data bytes)) :
    received (items.take (i + 1)) = received (items.take i) + bytes.length := by
  rw [List.take_add_one, h]
  simp [received, chunks, List.filterMap_append, StreamItem.chunk?]

end

/-- **The body limit.** Whatever the items and however long the stream is polled: the frames stay
    within the limit and are a leading part of the chunks; a chunk is emitted as it is as long as
    the data received, itself included, is within the limit, and replaced by an error from then on;
    and the hook is called once for each error item, with the kind of its cause. -/
theorem body_limit_kept (hook : Bool) (maxBytes idleTimeout : ℕ) (context : String)
    (items : List StreamItem) (htotal : received items < 2 ^ 64) :
    let r := Limiter.run hook maxBytes idleTimeout context {} items
    r.2.length = items.length ∧
      ((frames r.2).map List.length).sum ≤ maxBytes ∧ frames r.2 <+: chunks items ∧
      (∀ (i : ℕ) (bytes : Bytes), r.2[i]? = some (.ok bytes) → items[i]? = some (.data bytes)) ∧
      (∀ (i : ℕ) (bytes : Bytes), items[i]? = some (.data bytes) →
        received (items.take (i + 1)) ≤ maxBytes → r.2[i]? = some (.ok bytes)) ∧
      (∀ (i : ℕ) (bytes : Bytes), items[i]? = some (.data bytes) →
        maxBytes < received (items.take (i + 1)) → ∃ text, r.2[i]? = some (.error text)) ∧
      r.1.hookCalls = Limiter.called hook ((items.zip r.2).filterMap (dueKind context)) := by
  intro r
  have hr : r = _ := Limiter.run_eq items (by simpa using htotal)
  have hframes : frames r.2 = fitting List.length maxBytes 0 (chunks items) := by
    rw [hr, frames_mapError, frames_limitBodyStream]
  have hget : ∀ i, r.2[i]? = items[i]?.map fun item =>
      (limitItem maxBytes idleTimeout context (received (items.take i)) item).2.mapError
        (·.text) := by
    intro i
    rw [hr, List.getElem?_map, getElem?_limitBodyStream, Option.map_map, Nat.zero_add]
    rfl
  refine ⟨by simp [hr], ?_, ?_, ?_, ?_, ?_, ?_⟩
  · rw [hframes]
    have hfit : 0 + ((fitting List.length maxBytes 0 (chunks items)).map List.length).sum ≤
        maxBytes := add_sum_fitting_le (Nat.zero_le _)
    rwa [Nat.zero_add] at hfit
  · rw [hframes]
    exact fitting_isPrefix
  · intro i bytes h
    rw [hget] at h
    obtain ⟨item, hitem, hok⟩ := Option.map_eq_some_iff.1 h
    rw [hitem, (limitItem_snd_eq_ok.1 (mapError_eq_ok.1 hok)).1]
  · intro i bytes hitem hle
    rw [received_take_succ hitem] at hle
    rw [hget, hitem, Option.map_some, limitItem_data_of_le hle]
    rfl
  · intro i bytes hitem hlt
    rw [received_take_succ hitem] at hlt
    rw [hget, hitem, Option.map_some, limitItem_data_of_lt hlt]
    exact ⟨_, rfl⟩
  · rw [hr]
    simp [errorKinds_limitBodyStream]

/-- Errors before, at and after the limit: the last chunk is empty and still not emitted. -/
theorem body_limit_kept_past_errors :
    let items : List StreamItem :=
      [.data [1, 2, 3], .readError "reset", .data [4, 5], .data [6], .idleElapsed, .data []]
    let r := Limiter.run true 5 0 upstreamContext {} items
    received items < 2 ^ 64 ∧ frames r.2 = [[1, 2, 3], [4, 5]] ∧
      ((frames r.2).map List.length).sum ≤ 5 ∧
      r.1.hookCalls = ["upstream_response_body_read_failed", "response_body_too_large",
        "upstream_response_body_timeout", "response_body_too_large"] := by
  intro items r
  have htotal : received items < 2 ^ 64 := by decide
  obtain ⟨-, hle, -, -, -, -, hcalls⟩ := body_limit_kept true 5 0 upstreamContext items htotal
  refine ⟨htotal, by decide, hle, ?_⟩
  rw [hcalls]
  decide

/-! ## Buffered and streamed request bodies -/

section
variable {maxBytes idleTimeout : ℕ} {buffered b : Bytes} {item : StreamItem}
  {items : List StreamItem} {e : RequestBufferError}

/-- A buffered item is emitted by the stream that has seen as much. -/
theorem bufferItem_ok (h : bufferItem maxBytes idleTimeout buffered item = .ok b) :
    ∃ bytes, item = .data bytes ∧ b = buffered ++ bytes ∧
      limitItem maxBytes idleTimeout clientContext buffered.length item =
        (b.length, .ok bytes) := by
  cases item with
  | data bytes =>
    simp only [bufferItem] at h
    split_ifs at h with hlt
    obtain rfl : buffered ++ bytes = b := Except.ok.inj h
    exact ⟨bytes, rfl, rfl, by rw [limitItem_data_of_le (Nat.not_lt.1 hlt), List.length_append]⟩
  | readError text => simp [bufferItem] at h
  | idleElapsed => simp [bufferItem] at h

/-- A refused item is an error of the stream that has seen as much, of the same kind. -/
theorem bufferItem_error (h : bufferItem maxBytes idleTimeout buffered item = .error e) :
    ∃ err, (limitItem maxBytes idleTimeout clientContext buffered.length item).2 = .error err ∧
      err.kind = e.kind := by
  cases item with
  | data bytes =>
    simp only [bufferItem] at h
    split_ifs at h with hlt
    obtain rfl : .tooLarge maxBytes = e := Except.error.inj h
    exact ⟨_, by rw [limitItem_data_of_lt hlt], rfl⟩
  | readError text =>
    obtain rfl : .readFailed text = e := Except.error.inj h
    exact ⟨_, rfl, rfl⟩
  | idleElapsed =>
    obtain rfl : .timedOut idleTimeout = e := Except.error.inj h
    exact ⟨_, rfl, rfl⟩

theorem bufferRequestBody_cons (item : StreamItem) (items : List StreamItem) :
    bufferRequestBody maxBytes idleTimeout buffered (item :: items) =
      (bufferItem maxBytes idleTimeout buffered item).bind fun b =>
        bufferRequestBody maxBytes idleTimeout b items := rfl

/-- A body that is buffered is streamed without an error. -/
theorem bufferRequestBody_ok (h : bufferRequestBody maxBytes idleTimeout buffered items = .ok b) :
    ∃ cs : List Bytes, limitBodyStream maxBytes idleTimeout clientContext buffered.length items =
      cs.map .ok ∧ b = buffered ++ cs.flatten := by
  induction items generalizing buffered with
  | nil =>
    obtain rfl : buffered = b := Except.ok.inj h
    exact ⟨[], rfl, by simp⟩
  | cons item items ih =>
    rw [bufferRequestBody_cons] at h
    cases hitem : bufferItem maxBytes idleTimeout buffered item with
    | error e => rw [hitem] at h; cases h
    | ok b' =>
      rw [hitem] at h
      obtain ⟨cs, hcs, rfl⟩ := ih h
      obtain ⟨bytes, -, rfl, hlimit⟩ := bufferItem_ok hitem
      refine ⟨bytes :: cs, ?_, by simp⟩
      rw [limitBodyStream, hlimit, hcs, List.map_cons]

/-- A body that is not buffered is streamed up to the same item, which is an error of the same
    kind. -/
theorem bufferRequestBody_error
    (h : bufferRequestBody maxBytes idleTimeout buffered items = .error e) :
    ∃ (cs : List Bytes) (err : StreamError) (rest : List (Except StreamError Bytes)),
      limitBodyStream maxBytes idleTimeout clientContext buffered.length items =
        cs.map .ok ++ .error err :: rest ∧
      err.kind = e.kind ∧ chunks (items.take cs.length) = cs ∧
      bufferRequestBody maxBytes idleTimeout buffered (items.take cs.length) =
        .ok (buffered ++ cs.flatten) := by
  induction items generalizing buffered with
  | nil => cases h
  | cons item items ih =>
    rw [bufferRequestBody_cons] at h
    cases hitem : bufferItem maxBytes idleTimeout buffered item with
    | error e' =>
      rw [hitem] at h
      obtain rfl : e' = e := Except.error.inj h
      obtain ⟨err, herr, hkind⟩ := bufferItem_error hitem
      have hfirst : ∃ rest, limitBodyStream maxBytes idleTimeout clientContext buffered.length
          (item :: items) = .error err :: rest := ⟨_, by rw [limitBodyStream, herr]⟩
      obtain ⟨rest, hrest⟩ := hfirst
      exact ⟨[], err, rest, hrest, hkind, rfl, by simp [bufferRequestBody]⟩
    | ok b' =>
      rw [hitem] at h
      obtain ⟨cs, err, rest, hcs, hkind, hchunks, hbuffered⟩ := ih h
      obtain ⟨bytes, rfl, rfl, hlimit⟩ := bufferItem_ok hitem
      refine ⟨bytes :: cs, err, rest, ?_, hkind, ?_, ?_⟩
      · rw [limitBodyStream, hlimit, hcs, List.map_cons, List.cons_append]
      · rw [List.length_cons, List.take_succ_cons, chunks_data, hchunks]
      · rw [List.length_cons, List.take_succ_cons, bufferRequestBody_cons, hitem]
        simpa [Except.bind] using hbuffered

theorem frames_map_ok {ε : Type} (cs : List Bytes) :
    frames (cs.map (.ok : Bytes → Except ε Bytes)) = cs := by
  unfold frames
  rw [List.filterMap_map]
  exact List.filterMap_some

end

/-- **Buffered and streamed bodies.** A request body is buffered iff it is streamed without an
    error, with the same bytes; otherwise the first error of the stream, and the first call of its
    hook, has the kind of the error of the buffer, after the chunks buffered so far; and a buffered
    body passes again as one chunk. -/
theorem bufferRequestBody_eq_streamed (maxBytes idleTimeout : ℕ) (items : List StreamItem) :
    let streamed := limitBodyStream maxBytes idleTimeout clientContext 0 items
    (∀ b, bufferRequestBody maxBytes idleTimeout [] items = .ok b ↔
        (∀ err, .error err ∉ streamed) ∧ (frames streamed).flatten = b) ∧
      (∀ e, bufferRequestBody maxBytes idleTimeout [] items = .error e →
        ∃ (cs : List Bytes) (err : StreamError) (rest : List (Except StreamError Bytes)),
          streamed = cs.map .ok ++ .error err :: rest ∧ err.kind = e.kind ∧
            chunks (items.take cs.length) = cs ∧
            bufferRequestBody maxBytes idleTimeout [] (items.take cs.length) = .ok cs.flatten ∧
            (received items < 2 ^ 64 →
              (Limiter.run true maxBytes idleTimeout clientContext {} items).1.hookCalls.head? =
                some e.kind)) ∧
      ∀ b, bufferRequestBody maxBytes idleTimeout [] items = .ok b →
        limitBodyStream maxBytes idleTimeout clientContext 0 [.data b] = [.ok b] := by
  intro streamed
  have hok : ∀ b, bufferRequestBody maxBytes idleTimeout [] items = .ok b →
      ∃ cs : List Bytes, streamed = cs.map .ok ∧ b = cs.flatten :=
    fun b h => by simpa using bufferRequestBody_ok h
  have herror : ∀ e, bufferRequestBody maxBytes idleTimeout [] items = .error e →
      ∃ (cs : List Bytes) (err : StreamError) (rest : List (Except StreamError Bytes)),
        streamed = cs.map .ok ++ .error err :: rest ∧ err.kind = e.kind ∧
          chunks (items.take cs.length) = cs ∧
          bufferRequestBody maxBytes idleTimeout [] (items.take cs.length) = .ok cs.flatten :=
    fun e h => by simpa using bufferRequestBody_error h
  refine ⟨fun b => ⟨fun h => ?_, fun ⟨hnone, hb⟩ => ?_⟩, fun e h => ?_, fun b h => ?_⟩
  · obtain ⟨cs, hcs, rfl⟩ := hok b h
    exact ⟨by simp [hcs], by rw [hcs, frames_map_ok]⟩
  · cases hbuffer : bufferRequestBody maxBytes idleTimeout [] items with
    | ok b' =>
      obtain ⟨cs, hcs, rfl⟩ := hok b' hbuffer
      rw [← hb, hcs, frames_map_ok]
    | error e =>
      obtain ⟨cs, err, rest, hcs, -⟩ := herror e hbuffer
      exact absurd (by simp [hcs]) (hnone err)
  · obtain ⟨cs, err, rest, hcs, hkind, hchunks, hbuffered⟩ := herror e h
    refine ⟨cs, err, rest, hcs, hkind, hchunks, hbuffered, fun htotal => ?_⟩
    rw [Limiter.run_eq items (by simpa using htotal)]
    show (errorKinds streamed).head? = some e.kind
    rw [hcs, errorKinds_append, errorKinds_map_ok, ← hkind]
    rfl
  · -- the frames, and so their concatenation, are within the limit
    obtain ⟨cs, hcs, rfl⟩ := hok b h
    have hframes : cs = fitting List.length maxBytes 0 (chunks items) := by
      rw [← frames_limitBodyStream, ← frames_map_ok cs, ← hcs]
    have hlen : 0 + cs.flatten.length ≤ maxBytes := by
      rw [List.length_flatten, hframes]
      exact add_sum_fitting_le (Nat.zero_le _)
    rw [limitBodyStream, limitItem_data_of_le hlen]
    rfl

/-! ## The size of upstream responses -/

/-- The length that a response declares: the first `Content-Length`, if it is a number. -/
def declaredLength (headers : HeaderMap) : Option ℕ :=
  (headers.get "content-length").bind fun v => (HeaderValue.toStr v).bind parseU64

theorem contentLengthExceeds_eq_none {headers : HeaderMap} {limit : ℕ} :
    contentLengthExceeds headers limit = none ↔ ∀ n ∈ declaredLength headers, n ≤ limit := by
  unfold contentLengthExceeds
  rw [Option.filter_eq_none_iff]
  simp [declaredLength]

/-- A body that arrives without a fault and is within the limit is streamed as it is. -/
theorem limitBodyStream_of_received_le {maxBytes idleTimeout seen : ℕ} {context : String}
    {items : List StreamItem} (hdata : ∀ item ∈ items, ∃ bytes, item = .data bytes)
    (hle : seen + received items ≤ maxBytes) :
    limitBodyStream maxBytes idleTimeout context seen items = (chunks items).map .ok := by
  induction items generalizing seen with
  | nil => rfl
  | cons item items ih =>
    obtain ⟨⟨bytes, rfl⟩, hrest⟩ := List.forall_mem_cons.1 hdata
    rw [received_cons, received_data] at hle
    have hitem : seen + bytes.length ≤ maxBytes := by omega
    rw [limitBodyStream, limitItem_data_of_le hitem, ih hrest (by omega), chunks_data,
      List.map_cons]

/-- A response is not rejected on account of its size: `forward` returns it, its body is streamed
    as it was delivered, and the backend is only reported for a passive failure status. -/
def NotRejectedForSize (P : Setup) (job : Job) (backend : String) (dispatch : Dispatch)
    (status : ℕ) (headers : HeaderMap) (items : List StreamItem) : Prop :=
  let result := Sys.forwardResult P job backend dispatch (.response status headers)
  (∀ limit contentLength, result ≠ .error (.responseTooLarge limit contentLength)) ∧
    (∃ response, result = .ok response ∧ response.body = .upstream ∧
      limitBodyStream P.config.upstream.maxResponseBodyBytes (P.routeReadTimeout job.route)
        upstreamContext 0 items = (chunks items).map .ok) ∧
    ∀ m, Sys.outcome m job.route backend result = .recordFailure backend →
      isPassiveFailureStatus m job.route status

/-- **Responses within the limit.** A response whose body arrives without a fault and within the
    limit is not rejected on account of its size iff the length it declares, if any, is within the
    limit too. -/
theorem notRejectedForSize_iff {P : Setup} {job : Job} {backend : String} {dispatch : Dispatch}
    {request : UpstreamRequest} {status : ℕ} {headers : HeaderMap} {items : List StreamItem}
    (hsent : Sys.prepareAttempt P job backend dispatch = .ok request)
    (hdata : ∀ item ∈ items, ∃ bytes, item = .data bytes)
    (hsize : received items ≤ P.config.upstream.maxResponseBodyBytes) :
    NotRejectedForSize P job backend dispatch status headers items ↔
      ∀ n ∈ declaredLength headers, n ≤ P.config.upstream.maxResponseBodyBytes := by
  rw [← contentLengthExceeds_eq_none]
  have hresult : Sys.forwardResult P job backend dispatch (.response status headers) =
      receive (P.routeConnectTimeout job.route) P.config.upstream.maxResponseBodyBytes
        (.response status headers) := by
    unfold Sys.forwardResult
    rw [hsent]
    rfl
  unfold NotRejectedForSize
  rw [hresult, receive]
  cases contentLengthExceeds headers P.config.upstream.maxResponseBodyBytes with
  | some n => simp
  | none =>
    refine iff_of_true ⟨by simp, ⟨_, rfl, rfl, ?_⟩, fun m hm => ?_⟩ rfl
    · exact limitBodyStream_of_received_le hdata (by omega)
    · simp only [Sys.outcome] at hm
      split_ifs at hm with hstatus
      exact hstatus

/-- A request to the route of `small`, on its way to the backend. -/
def smallJob (method : Method) : Job :=
  ⟨smallRequest method, { pathPrefix := "/api", backends := ["http://127.0.0.1:3001"] }, 0, "id"⟩

/-- A response with its body, in two chunks. -/
theorem get_response_within_limit :
    NotRejectedForSize (small ["http://127.0.0.1:3001"] 1 1 1) (smallJob .get)
      "http://127.0.0.1:3001" (.stream .ended) 200
      [("content-length", HeaderValue.ofString "3")] [.data [1, 2], .data [3]] := by
  have hsent : ∃ request, Sys.prepareAttempt (small ["http://127.0.0.1:3001"] 1 1 1)
      (smallJob .get) "http://127.0.0.1:3001" (.stream .ended) = .ok request := ⟨_, rfl⟩
  obtain ⟨request, hsent⟩ := hsent
  refine (notRejectedForSize_iff hsent (by simp) (by decide)).2 ?_
  decide +kernel

/-- **A response to `HEAD`** declares the length of a body that it does not have: it is turned into
    a `ResponseTooLarge`, and a failure of the backend is recorded. -/
theorem head_response_rejected :
    let P := small ["http://127.0.0.1:3001"] 1 1 1
    let headers := [("content-length", HeaderValue.ofString "67108865")]
    let result := Sys.forwardResult P (smallJob .head) "http://127.0.0.1:3001" (.stream .ended)
      (.response 200 headers)
    P.config.validate P.url = .ok () ∧ received [] ≤ P.config.upstream.maxResponseBodyBytes ∧
      result = .error (.responseTooLarge 67108864 67108865) ∧
      Sys.outcome P.initial.health (smallJob .head).route "http://127.0.0.1:3001" result =
        .recordFailure "http://127.0.0.1:3001" ∧
      isPassiveFailureStatus P.initial.health (smallJob .head).route 200 = false ∧
      ¬ NotRejectedForSize P (smallJob .head) "http://127.0.0.1:3001" (.stream .ended) 200 headers
        [] := by
  intro P headers result
  have hresult : result = .error (.responseTooLarge 67108864 67108865) := by decide +kernel
  refine ⟨by decide +kernel, by decide, hresult, by rw [hresult]; rfl, by decide +kernel, ?_⟩
  rintro ⟨hnot, -⟩
  exact hnot _ _ hresult

end FerrumProxy
