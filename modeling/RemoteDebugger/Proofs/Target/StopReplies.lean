import RemoteDebugger.Proofs.Wire.HexReading
import RemoteDebugger.Proofs.Remote.StubClient
import RemoteDebugger.Proofs.Dwarf.Reading

/-!
# Stop replies

`StopEvent.parse` accepts exactly the replies of the grammar `StopReply`, with the event each
describes, and refuses everything else as malformed (`parse_eq_ok_iff`).
-/

namespace RemoteDebugger

/-! ## The grammar of stop replies -/

/-- The bytes `thread:` that open a thread field. -/
def threadPrefix : List UInt8 := threadField ++ [0x3A]

/-- The values of the thread fields of a reply's tail, in order: the tail is cut at every `;`,
and a field that starts with `thread:` holds what follows. -/
def threadValues (tail : List UInt8) : List (List UInt8) :=
  (tail.splitOn 0x3B).filterMap threadPrefix.isPrefixOf?

/-- The reason a kind letter reports with a code: `S` and `T` a signal, `W` an exit and `X` a
termination. -/
inductive KindReports : UInt8 → UInt8 → StopReason → Prop
  | signal (code : UInt8) : KindReports 0x53 code (.signal code)
  | threadSignal (code : UInt8) : KindReports 0x54 code (.signal code)
  | exited (code : UInt8) : KindReports 0x57 code (.exited code)
  | terminated (code : UInt8) : KindReports 0x58 code (.terminated code)

/-- A documented stop reply and the event it describes: a kind letter, two hex digits of either
case whose value is the code, and a tail. A `T` reply's thread fields hold one to sixteen hex
digits each and the last of them names the thread; other replies name none. -/
inductive StopReply : List UInt8 → StopEvent → Prop
  | mk (kind high low : UInt8) (tail : List UInt8) (reason : StopReason)
      (hhigh : (Char.ofNat high.toNat).isHexDigit) (hlow : (Char.ofNat low.toNat).isHexDigit)
      (hreason : KindReports kind
        (16 * hexDigitValue (Char.ofNat high.toNat) + hexDigitValue (Char.ofNat low.toNat)).toUInt8
        reason)
      (hthreads : kind = 0x54 → ∀ v ∈ threadValues tail, HexNumeral v) :
      StopReply (kind :: high :: low :: tail)
        { reason,
          thread := if kind = 0x54 then (threadValues tail).getLast?.map fun v => (hexValue v).toUInt64
            else none }

/-! ## Fields -/

/-- A list starts with a prefix exactly when it is the prefix followed by what `isPrefixOf?`
returns. -/
theorem isPrefixOf?_eq_some_iff {pre l rest : List UInt8} :
    pre.isPrefixOf? l = some rest ↔ l = pre ++ rest := by
  induction pre generalizing l with
  | nil => simp [List.isPrefixOf?, eq_comm]
  | cons x pre ih =>
    cases l with
    | nil => simp [List.isPrefixOf?]
    | cons y l =>
      by_cases hxy : x = y
      · subst hxy
        simp [List.isPrefixOf?, ih]
      · simp [List.isPrefixOf?, hxy, Ne.symm hxy]

/-- What precedes the first separator holds no separator, and the list is put back together
around it. -/
theorem splitFirst_eq_some {sep : UInt8} {bytes name value : List UInt8}
    (h : splitFirst sep bytes = (name, some value)) : sep ∉ name ∧ bytes = name ++ sep :: value := by
  unfold splitFirst at h
  split at h
  next i hi =>
    simp only [Prod.mk.injEq, Option.some.injEq] at h
    obtain ⟨rfl, rfl⟩ := h
    obtain ⟨hlt, hget, hbefore⟩ := List.idxOf?_eq_some_iff.mp hi
    constructor
    · intro hmem
      obtain ⟨j, hj, hjget⟩ := List.mem_iff_getElem.mp hmem
      rw [List.length_take] at hj
      rw [List.getElem_take] at hjget
      exact hbefore j (by omega) hjget
    · have hdrop : bytes.drop i = sep :: bytes.drop (i + 1) := by
        rw [List.drop_eq_getElem_cons hlt, hget]
      rw [← hdrop, List.take_append_drop]
  next => simp at h

/-- A field splits at its first colon into `thread` and a value exactly when it is `thread:`
followed by the value. -/
theorem splitFirst_thread_iff {field value : List UInt8} :
    splitFirst 0x3A field = (threadField, some value) ↔ threadPrefix.isPrefixOf? field = some value := by
  rw [isPrefixOf?_eq_some_iff, threadPrefix, List.append_assoc, List.singleton_append]
  constructor
  · intro h
    exact (splitFirst_eq_some h).2
  · rintro rfl
    exact splitFirst_append (by decide) value

/-- A thread field's value is read as a thread number before the fields that follow. -/
theorem threadOfFields_cons_thread {field value : List UInt8} (rest : List (List UInt8))
    (h : threadPrefix.isPrefixOf? field = some value) :
    threadOfFields (field :: rest) =
      Hex.parseU64 value >>= fun id => threadOfFields rest >>= fun last => pure (last.or (some id)) := by
  rw [threadOfFields, splitFirst_thread_iff.mpr h]
  simp

/-- A field that is no thread field is skipped. -/
theorem threadOfFields_cons_other {field : List UInt8} (rest : List (List UInt8))
    (h : threadPrefix.isPrefixOf? field = none) :
    threadOfFields (field :: rest) = threadOfFields rest := by
  rw [threadOfFields]
  split
  next name value hsplit =>
    split
    next hname =>
      subst hname
      rw [splitFirst_thread_iff.mp hsplit] at h
      cases h
    next => simp
  next => simp

/-- The last of a list's values is the last of the rest, or the first value when nothing
follows it. -/
theorem getLast?_cons_map {α β : Type} (f : α → β) (a : α) (l : List α) :
    (a :: l).getLast?.map f = (l.getLast?.map f).or (some (f a)) := by
  rw [List.getLast?_cons]
  cases l.getLast? <;> rfl

/-- The thread fields are read exactly when every thread value is a number of one to sixteen
digits, and the last of them names the thread. -/
theorem threadOfFields_eq_ok_iff {fields : List (List UInt8)} {thread : Option ThreadId} :
    threadOfFields fields = .ok thread ↔
      (∀ v ∈ fields.filterMap threadPrefix.isPrefixOf?, HexNumeral v) ∧
        thread = (fields.filterMap threadPrefix.isPrefixOf?).getLast?.map
          fun v => (hexValue v).toUInt64 := by
  induction fields generalizing thread with
  | nil => simp [threadOfFields, eq_comm]
  | cons field rest ih =>
    cases hpfx : threadPrefix.isPrefixOf? field with
    | none => rw [threadOfFields_cons_other rest hpfx, List.filterMap_cons_none hpfx, ih]
    | some v =>
      rw [threadOfFields_cons_thread rest hpfx, List.filterMap_cons_some hpfx, getLast?_cons_map,
        List.forall_mem_cons]
      simp only [Dwarf.except_bind_eq_ok, pure, Except.pure, Except.ok.injEq, ih]
      constructor
      · rintro ⟨id, hid, last, ⟨hvalid, rfl⟩, rfl⟩
        -- a thread value that is read is a numeral, read as the number it denotes
        have hv := (Hex.parseU64_eq_ok_iff.mp hid).1
        rw [Hex.parseU64_of_numeral hv, Except.ok.injEq] at hid
        subst hid
        exact ⟨⟨hv, hvalid⟩, rfl⟩
      · rintro ⟨⟨hv, hvalid⟩, rfl⟩
        exact ⟨(hexValue v).toUInt64, Hex.parseU64_of_numeral hv, _, ⟨hvalid, rfl⟩, rfl⟩

/-! ## Replies -/

/-- Two bytes are read as a code exactly when both are hex digits, as sixteen times the first
digit's value plus the second's. -/
theorem parseU64_pair {high low : UInt8} {v : UInt64} :
    Hex.parseU64 [high, low] = .ok v ↔
      (Char.ofNat high.toNat).isHexDigit ∧ (Char.ofNat low.toNat).isHexDigit ∧
        v.toNat =
          16 * hexDigitValue (Char.ofNat high.toNat) + hexDigitValue (Char.ofNat low.toNat) := by
  rw [Hex.parseU64_eq_ok_iff]
  simp [HexNumeral, hexValue, and_assoc]

/-- The byte of a word holding a number is the byte of the number. -/
theorem toUInt8_of_toNat {v : UInt64} {n : Nat} (h : v.toNat = n) : v.toUInt8 = n.toUInt8 := by
  apply UInt8.toNat_inj.mp
  simp [h]

/-- The kind letters the reader knows are those of `KindReports`, with the reasons it gives them. -/
theorem reports_of_eq_some {kind code : UInt8} {reason : StopReason}
    (h : (if kind = 0x53 ∨ kind = 0x54 then some (StopReason.signal code)
      else if kind = 0x57 then some (StopReason.exited code)
      else if kind = 0x58 then some (StopReason.terminated code) else none) = some reason) :
    KindReports kind code reason := by
  split_ifs at h with hst hw hx
  · cases h
    rcases hst with rfl | rfl
    · exact .signal code
    · exact .threadSignal code
  · cases h
    subst hw
    exact .exited code
  · cases h
    subst hx
    exact .terminated code

/-- A documented reply is read as the event it describes. -/
theorem parse_of_stopReply {payload : List UInt8} {e : StopEvent} (h : StopReply payload e) :
    StopEvent.parse payload = .ok e := by
  obtain ⟨kind, high, low, tail, reason, hhigh, hlow, hreason, hthreads⟩ := h
  have hlt := Nat.add_lt_add_of_le_of_lt
    (Nat.mul_le_mul_left 16 (Nat.le_of_lt_succ (Hex.hexDigitValue_lt high hhigh)))
    (Hex.hexDigitValue_lt low hlow)
  have hcode : Hex.parseU64 [high, low] = .ok
      (16 * hexDigitValue (Char.ofNat high.toNat) + hexDigitValue (Char.ofNat low.toNat)).toUInt64 :=
    parseU64_pair.mpr ⟨hhigh, hlow, by simp; omega⟩
  have hthread : kind = 0x54 → threadOfFields (splitBytes 0x3B tail) =
      .ok ((threadValues tail).getLast?.map fun v => (hexValue v).toUInt64) :=
    fun hk => threadOfFields_eq_ok_iff.mpr ⟨hthreads hk, rfl⟩
  cases hreason <;> simp [StopEvent.parse, hcode, hthread]

/-- What is read is a documented reply, with the event it describes. -/
theorem stopReply_of_parse {payload : List UInt8} {e : StopEvent}
    (h : StopEvent.parse payload = .ok e) : StopReply payload e := by
  obtain _ | ⟨kind, _ | ⟨high, _ | ⟨low, tail⟩⟩⟩ := payload
  · simp [StopEvent.parse] at h
  · simp [StopEvent.parse] at h
  · simp [StopEvent.parse] at h
  · simp only [StopEvent.parse, List.length_cons, List.take_succ_cons, List.take_zero,
      List.drop_succ_cons, List.drop_zero, Nat.not_lt.mpr (Nat.le_add_left 2 tail.length),
      if_false] at h
    cases hcode : Hex.parseU64 [high, low] with
    | error err => simp [hcode] at h
    | ok value =>
      obtain ⟨hhigh, hlow, hvalue⟩ := parseU64_pair.mp hcode
      rw [hcode] at h
      simp only [toUInt8_of_toNat hvalue] at h
      -- the kind letter gives the reason; a `T` reply is read on into its thread fields
      split at h
      next => cases h
      next reason hreason =>
        have hreports := reports_of_eq_some hreason
        split at h
        next hk =>
          split at h
          next thread hthread =>
            cases h
            obtain ⟨hvalid, rfl⟩ := threadOfFields_eq_ok_iff.mp hthread
            have hreply := StopReply.mk kind high low tail reason hhigh hlow hreports
              fun _ => hvalid
            rwa [if_pos hk] at hreply
          next => cases h
        next hk =>
          cases h
          have hreply := StopReply.mk kind high low tail reason hhigh hlow hreports
            fun h => absurd h hk
          rwa [if_neg hk] at hreply

/-- Stop replies are read exactly as documented: a payload is read as an event exactly when it
is a documented reply describing that event, and every other payload is refused as malformed. -/
theorem StopEvent.parse_exactly_documented (payload : List UInt8) :
    (∀ e, StopEvent.parse payload = .ok e ↔ StopReply payload e) ∧
    ((∀ e, ¬StopReply payload e) →
      ∃ detail, StopEvent.parse payload = .error (.wire (.malformed detail))) := by
  refine ⟨fun _ => ⟨stopReply_of_parse, parse_of_stopReply⟩, fun hnone => ?_⟩
  cases hp : StopEvent.parse payload with
  | ok e => exact absurd (stopReply_of_parse hp) (hnone e)
  | error err =>
    obtain ⟨detail, rfl⟩ := StopEvent.parse_error hp
    exact ⟨detail, rfl⟩

/-- The reply `OK` is no stop reply, and is refused as malformed. -/
theorem StopEvent.parse_exactly_documented_okReply :
    (∀ e, ¬StopReply [0x4F, 0x4B] e) ∧
      ∃ detail, StopEvent.parse [0x4F, 0x4B] = .error (.wire (.malformed detail)) :=
  have hnone : ∀ e, ¬StopReply [0x4F, 0x4B] e := fun _ h => by cases h
  ⟨hnone, (StopEvent.parse_exactly_documented _).2 hnone⟩

end RemoteDebugger
