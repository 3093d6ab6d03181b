import RemoteDebugger.Remote.Client

/-!
# Reading back what is written

Hex digits, hex numbers and framed packets read back as what was written, whatever bytes a
payload holds.
-/

namespace RemoteDebugger

/-! ## Hex digits -/

/-- A property of every byte follows from the property of each of the 256 byte values; the
second form is one `decide` can check. -/
theorem forall_byte {P : UInt8 → Prop} (h : ∀ n < 256, P (UInt8.ofNat n)) (b : UInt8) : P b := by
  have hb := h b.toNat b.toNat_lt
  rwa [UInt8.ofNat_toNat] at hb

namespace Hex

/-- A lowercase digit reads back as its value. -/
theorem nibble_digit : ∀ n : UInt8, n < 16 → nibble (digit n) = some n :=
  forall_byte (by decide +kernel)

/-- The high half of a byte is a digit value. -/
theorem high_lt : ∀ b : UInt8, b >>> 4 < 16 := forall_byte (by decide +kernel)

/-- The low half of a byte is a digit value. -/
theorem low_lt : ∀ b : UInt8, b &&& 0x0F < 16 := forall_byte (by decide +kernel)

/-- The two halves of a byte, put back together, give the byte. -/
theorem join_halves : ∀ b : UInt8, ((b >>> 4) <<< 4) ||| (b &&& 0x0F) = b :=
  forall_byte (by decide +kernel)

/-- Pairs of digits decode to the bytes they were written from. -/
theorem decodePairs_digits (bytes : List UInt8) : decodePairs (digits bytes) = .ok bytes := by
  induction bytes with
  | nil => rfl
  | cons b bs ih =>
    have hhigh := nibble_digit _ (high_lt b)
    have hlow := nibble_digit _ (low_lt b)
    simp only [digits, List.flatMap_cons, pair, List.cons_append, List.nil_append] at ih ⊢
    rw [decodePairs, hhigh, hlow, ih]
    simp [Except.map, join_halves]

/-- Hex text has two digits per byte. -/
@[simp] theorem length_digits (bytes : List UInt8) : (digits bytes).length = 2 * bytes.length := by
  induction bytes with
  | nil => rfl
  | cons b bs ih =>
    simp only [digits, List.flatMap_cons, List.length_append, List.length_cons] at ih ⊢
    rw [ih, pair]
    simp only [List.length_cons, List.length_nil]
    omega

/-- Decoding the digits of bytes gives the bytes back. -/
theorem decode_digits (bytes : List UInt8) : decode (digits bytes) = .ok bytes := by
  have heven : (digits bytes).length % 2 = 0 := by rw [length_digits]; omega
  simp only [decode, heven, ne_eq, not_true_eq_false, if_false, decodePairs_digits]

/-- Every byte of hex text is a lowercase digit. -/
theorem mem_digits {bytes : List UInt8} {d : UInt8} (h : d ∈ digits bytes) :
    ∃ n, n < 16 ∧ d = digit n := by
  simp only [digits, List.mem_flatMap, pair, List.mem_cons, List.not_mem_nil, or_false] at h
  obtain ⟨b, -, rfl | rfl⟩ := h
  · exact ⟨_, high_lt b, rfl⟩
  · exact ⟨_, low_lt b, rfl⟩

end Hex

/-! ## Numbers in request texts -/

/-- The bytes of the hex text of a number: lowercase digits without leading zeros. -/
def numberBytes (n : Nat) : List UInt8 :=
  if n < 16 then [Hex.digit n.toUInt8] else numberBytes (n / 16) ++ numberBytes (n % 16)
termination_by n
decreasing_by all_goals omega

/-- The value of big-endian hex digits of either case as an unbounded number; `none` for an
empty text or one with a byte that is not a digit. -/
def hexNumber (text : List UInt8) : Option Nat :=
  if text.isEmpty then none
  else text.foldlM (fun acc d => (Hex.nibble d).map fun v => acc * 16 + v.toNat) 0

/-- A digit value is below sixteen as a byte too. -/
theorem toUInt8_lt_sixteen {n : Nat} (h : n < 16) : n.toUInt8 < 16 := by
  rw [Nat.toUInt8_eq, UInt8.lt_iff_toNat_lt, UInt8.toNat_ofNat']
  show n % 256 < 16
  omega

/-- A digit value written and read back. -/
theorem nibble_digit_toUInt8 {n : Nat} (h : n < 16) :
    Hex.nibble (Hex.digit n.toUInt8) = some n.toUInt8 :=
  Hex.nibble_digit _ (toUInt8_lt_sixteen h)

/-- A number below sixteen is one digit. -/
theorem numberBytes_of_lt {n : Nat} (h : n < 16) : numberBytes n = [Hex.digit n.toUInt8] := by
  rw [numberBytes, if_pos h]

/-- A number of two or more digits is the number of its leading digits followed by its last. -/
theorem numberBytes_of_le {n : Nat} (h : 16 ≤ n) :
    numberBytes n = numberBytes (n / 16) ++ [Hex.digit (n % 16).toUInt8] := by
  rw [numberBytes, if_neg (by omega), numberBytes_of_lt (Nat.mod_lt _ (by omega))]

/-- Hex text of a number is never empty. -/
theorem numberBytes_ne_nil (n : Nat) : numberBytes n ≠ [] := by
  rw [numberBytes]
  split
  · simp
  · simp [numberBytes_ne_nil (n % 16)]
termination_by n
decreasing_by omega

/-- Every byte of the hex text of a number is a lowercase digit. -/
theorem mem_numberBytes {n : Nat} {d : UInt8} (h : d ∈ numberBytes n) :
    ∃ v, v < 16 ∧ d = Hex.digit v := by
  fun_induction numberBytes n with
  | case1 n hn =>
    simp only [List.mem_cons, List.not_mem_nil, or_false] at h
    exact ⟨_, toUInt8_lt_sixteen hn, h⟩
  | case2 n _ ih1 ih2 =>
    rcases List.mem_append.mp h with h | h
    · exact ih1 h
    · exact ih2 h

/-- The digit reader reads the hex text of a number as the number. -/
theorem foldlM_numberBytes (n : Nat) :
    (numberBytes n).foldlM (fun acc d => (Hex.nibble d).map fun v => acc * 16 + v.toNat) 0 =
      some n := by
  induction n using Nat.strongRecOn with
  | ind n ih =>
    by_cases hn : n < 16
    · rw [numberBytes_of_lt hn]
      simp only [List.foldlM_cons, List.foldlM_nil, nibble_digit_toUInt8 hn]
      simp [Nat.mod_eq_of_lt (show n < 256 by omega)]
    · have hq : n / 16 < n := by omega
      rw [numberBytes_of_le (by omega), List.foldlM_append, ih _ hq]
      simp only [List.foldlM_cons, List.foldlM_nil, nibble_digit_toUInt8 (Nat.mod_lt n (by omega))]
      simp only [Option.bind_eq_bind, Option.bind_some, Option.map_some, Nat.toUInt8_eq,
        UInt8.toNat_ofNat']
      congr 1
      omega

/-- A stub reads the hex text of a number as the number. -/
theorem hexNumber_numberBytes (n : Nat) : hexNumber (numberBytes n) = some n := by
  have hne : (numberBytes n).isEmpty = false := by
    cases h : numberBytes n with
    | nil => exact absurd h (numberBytes_ne_nil n)
    | cons _ _ => rfl
  rw [hexNumber, hne, if_neg Bool.false_ne_true, foldlM_numberBytes]

/-! ## Request texts as bytes -/

/-- The bytes of a byte array are those of its underlying array. -/
theorem byteArray_toList_loop (bs : ByteArray) (i : Nat) (r : List UInt8) :
    ByteArray.toList.loop bs i r = r.reverse ++ bs.data.toList.drop i := by
  induction i, r using ByteArray.toList.loop.induct bs with
  | case1 i r h ih =>
    rw [ByteArray.toList.loop, if_pos h, ih]
    have hi : i < bs.data.toList.length := by simpa using h
    rw [List.drop_eq_getElem_cons hi]
    simp [ByteArray.get!, h]
  | case2 i r h =>
    rw [ByteArray.toList.loop, if_neg h]
    have hi : bs.data.toList.length ≤ i := by simp; omega
    simp [List.drop_eq_nil_of_le hi]

/-- Listing a byte array lists its underlying array. -/
theorem byteArray_toList (bs : ByteArray) : bs.toList = bs.data.toList := by
  simp [ByteArray.toList, byteArray_toList_loop]

/-- The bytes of a concatenation are the concatenated bytes. -/
@[simp] theorem Client.text_append (s t : String) :
    Client.text (s ++ t) = Client.text s ++ Client.text t := by
  simp [Client.text, byteArray_toList]

/-- The bytes of a request text are its characters' UTF-8 encodings, one after another. -/
theorem Client.text_eq (s : String) : Client.text s = s.toList.flatMap String.utf8EncodeChar := by
  rw [← @String.ofList_toList s]
  simp only [Client.text, String.toUTF8_eq_toByteArray, String.toByteArray_ofList,
    byteArray_toList, List.utf8Encode, List.toList_data_toByteArray, String.toList_ofList]

/-- Each hex digit character is one UTF-8 byte, the digit's byte. -/
theorem utf8_hexChar : ∀ n < 16,
    String.utf8EncodeChar (Char.ofNat (if n < 10 then 48 + n else 87 + n)) =
      [Hex.digit n.toUInt8] := by
  decide +kernel

/-- The UTF-8 bytes of the hex digits of a number are `numberBytes`. -/
theorem flatMap_utf8_hexDigits (n : Nat) :
    (Quoted.hexDigits n).flatMap String.utf8EncodeChar = numberBytes n := by
  fun_induction Quoted.hexDigits n with
  | case1 n h => rw [numberBytes, if_pos h]; simp [utf8_hexChar n h]
  | case2 n h ih1 ih2 => rw [numberBytes, if_neg h, List.flatMap_append, ih1, ih2]

/-- A number's hex text is sent as `numberBytes`. -/
@[simp] theorem Client.text_natDigits (n : Nat) : Client.text (Hex.natDigits n) = numberBytes n := by
  simp only [Client.text, Hex.natDigits, String.toUTF8_eq_toByteArray, String.toByteArray_ofList,
    byteArray_toList, List.utf8Encode, List.toList_data_toByteArray, flatMap_utf8_hexDigits]

/-! ## Packet framing -/

namespace Packet

/-- Adding bytes to a running sum is adding their checksum. -/
theorem foldl_add (s : UInt8) (l : List UInt8) : l.foldl (· + ·) s = s + checksum l := by
  induction l generalizing s with
  | nil => simp [checksum]
  | cons b l ih =>
    simp only [checksum, List.foldl_cons] at ih ⊢
    rw [ih, ih (0 + b), UInt8.zero_add, UInt8.add_assoc]

/-- The checksum of a concatenation is the sum of the checksums. -/
theorem checksum_append (l₁ l₂ : List UInt8) : checksum (l₁ ++ l₂) = checksum l₁ + checksum l₂ := by
  rw [checksum, List.foldl_append, foldl_add]
  rfl

/-- An escaped byte is restored by a second xor. -/
theorem xor_xor : ∀ b : UInt8, (b ^^^ 0x20) ^^^ 0x20 = b := forall_byte (by decide +kernel)

/-- A byte that completes no frame leaves the rest of the chunk to the decoder it leads to. -/
theorem feed_cons_of_push {d d' : Decoder} {b : UInt8} (h : d.push b = (d', none))
    (bs : List UInt8) : d.feed (b :: bs) = d'.feed bs := by
  simp [Decoder.feed, h]

/-- Inside a body, a byte that needs no escape is payload. -/
theorem push_body_plain {s : UInt8} {acc : Array UInt8} {b : UInt8} (h : isReserved b = false) :
    (Decoder.mk .body s acc).push b = (⟨.body, s + b, acc.push b⟩, none) := by
  simp only [isReserved, Bool.or_eq_false_iff, beq_eq_false_iff_ne] at h
  obtain ⟨⟨⟨h1, h2⟩, h3⟩, h4⟩ := h
  simp [Decoder.push, h1, h2, h3, h4]

/-- Inside a body, an escape and the escaped byte give back the payload byte. -/
theorem feed_body_escaped {s : UInt8} {acc : Array UInt8} {b : UInt8} :
    (Decoder.mk .body s acc).feed [escape, b ^^^ 0x20] =
      (⟨.body, s + escape + (b ^^^ 0x20), acc.push b⟩, []) := by
  simp [Decoder.feed, Decoder.push, escape, stop, xor_xor]

/-- A whole escaped body is read into the payload, summed as transmitted. -/
theorem feed_body (s : UInt8) (acc : Array UInt8) (payload : List UInt8) :
    (Decoder.mk .body s acc).feed (body payload) =
      (⟨.body, s + checksum (body payload), acc ++ payload.toArray⟩, []) := by
  induction payload generalizing s acc with
  | nil => simp [body, checksum, Decoder.feed]
  | cons b bs ih =>
    have hbody : body (b :: bs) = escapeByte b ++ body bs := by simp [body]
    rw [hbody, Decoder.feed_append, checksum_append]
    by_cases hr : isReserved b = true
    · have he : escapeByte b = [escape, b ^^^ 0x20] := by simp [escapeByte, hr]
      rw [he, feed_body_escaped, ih]
      have hsum : checksum [escape, b ^^^ 0x20] = escape + (b ^^^ 0x20) := by
        simp [checksum, UInt8.zero_add]
      simp only [hsum, List.nil_append, UInt8.add_assoc]
      simp
    · have hr' : isReserved b = false := by simpa using hr
      have he : escapeByte b = [b] := by simp [escapeByte, hr']
      rw [he]
      simp only [Decoder.feed, push_body_plain hr', ih]
      have hsum : checksum [b] = b := by simp [checksum, UInt8.zero_add]
      simp [hsum, UInt8.add_assoc]

/-- A decoder between packets reads a framed payload as that packet, and is between packets
again afterwards. -/
theorem feed_encode {d : Decoder} (hd : d.phase = .idle) (payload : List UInt8) :
    d.feed (encode payload) = ({}, [.packet payload]) := by
  obtain ⟨phase, sum, acc⟩ := d
  subst hd
  have hstart : (Decoder.mk .idle sum acc).push start = (⟨.body, 0, #[]⟩, none) := by
    simp [Decoder.push, start, ack, nack, interrupt]
  rw [encode, List.cons_append, feed_cons_of_push hstart, Decoder.feed_append, feed_body]
  have hhigh := Hex.nibble_digit _ (Hex.high_lt (checksum (body payload)))
  have hlow := Hex.nibble_digit _ (Hex.low_lt (checksum (body payload)))
  simp [Decoder.feed, Decoder.push, Hex.pair, stop, hhigh, hlow, Hex.join_halves]

/-- A decoder between packets reads an acknowledgement and stays as it is. -/
theorem feed_ack {d : Decoder} (hd : d.phase = .idle) (rest : List UInt8) :
    d.feed (ack :: rest) = ((d.feed rest).1, .ack :: (d.feed rest).2) := by
  simp [Decoder.feed, Decoder.push, hd, ack]

end Packet

end RemoteDebugger
