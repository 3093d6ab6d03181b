import RemoteDebugger.Proofs.Wire.RoundTrip

/-!
# What the hex readers accept

`Hex.decode` succeeds exactly on even runs of hex digits and inverts writing, and
`Hex.parseU64` reads exactly one to sixteen digits as the number they denote.
-/

namespace RemoteDebugger

/-! ## Digits and the numbers they denote -/

/-- The value of a hex digit of either case: the number whose digit it is, in the standard
alphabet `0`–`9`, `a`–`f`. -/
def hexDigitValue (c : Char) : Nat := ((List.range 16).map Nat.digitChar).idxOf c.toLower

/-- The number that big-endian hex digits denote. -/
def hexValue (text : List UInt8) : Nat :=
  text.foldl (fun n d => 16 * n + hexDigitValue (Char.ofNat d.toNat)) 0

/-- One to sixteen hex digits of either case: the texts that read as 64-bit numbers. -/
def HexNumeral (text : List UInt8) : Prop :=
  text ≠ [] ∧ text.length ≤ 16 ∧ ∀ d ∈ text, (Char.ofNat d.toNat).isHexDigit

/-- The lowercase hex digits of a number are the standard ones, without leading zeros. -/
theorem Quoted.hexDigits_eq_toDigits (n : Nat) : Quoted.hexDigits n = Nat.toDigits 16 n := by
  have hchar : ∀ k < 16, Char.ofNat (if k < 10 then 48 + k else 87 + k) = Nat.digitChar k := by
    decide
  fun_induction Quoted.hexDigits n with
  | case1 n h => rw [Nat.toDigits_of_lt_base h, hchar n h]
  | case2 n h ih1 ih2 =>
    rw [Nat.toDigits_of_base_le (by decide) (by omega), ih1, ih2,
      Nat.toDigits_of_lt_base (Nat.mod_lt n (by decide))]

namespace Hex

/-- Numbers are written as the standard lowercase hex digits. -/
theorem natDigits_eq (n : Nat) : natDigits n = String.ofList (Nat.toDigits 16 n) := by
  rw [natDigits, Quoted.hexDigits_eq_toDigits]

/-! ## Single digits -/

/-- The digit reader recognises exactly the hex digits, with their values. -/
theorem nibble_eq : ∀ d : UInt8, nibble d =
    if (Char.ofNat d.toNat).isHexDigit then some (hexDigitValue (Char.ofNat d.toNat)).toUInt8
    else none :=
  forall_byte (by decide +kernel)

/-- A hex digit has one of the sixteen values. -/
theorem hexDigitValue_lt : ∀ d : UInt8, (Char.ofNat d.toNat).isHexDigit →
    hexDigitValue (Char.ofNat d.toNat) < 16 :=
  forall_byte (by decide +kernel)

/-- The digit written for the value of a digit is that digit in lowercase. -/
theorem nibble_map_digit : ∀ d : UInt8,
    (nibble d).map (fun n => Char.ofNat (digit n).toNat) =
      if (Char.ofNat d.toNat).isHexDigit then some (Char.ofNat d.toNat).toLower else none :=
  forall_byte (by decide +kernel)

/-- A lowercase digit is one byte of UTF-8 text. -/
theorem utf8_digit : ∀ n : UInt8, n < 16 →
    String.utf8EncodeChar (Char.ofNat (digit n).toNat) = [digit n] :=
  forall_byte (by decide +kernel)

/-- A lowercase digit is a hex digit with its own value. -/
theorem hexDigitValue_digit : ∀ n : UInt8, n < 16 →
    (Char.ofNat (digit n).toNat).isHexDigit ∧ hexDigitValue (Char.ofNat (digit n).toNat) = n.toNat :=
  forall_byte (by decide +kernel)

theorem nibble_of_isHexDigit {d : UInt8} (h : (Char.ofNat d.toNat).isHexDigit) :
    ∃ n, nibble d = some n := by
  rw [nibble_eq, if_pos h]
  exact ⟨_, rfl⟩

theorem nibble_eq_none_iff {d : UInt8} :
    nibble d = none ↔ (Char.ofNat d.toNat).isHexDigit = false := by
  rw [nibble_eq]
  split <;> simp_all

theorem nibble_eq_some {d n : UInt8} (h : nibble d = some n) :
    (Char.ofNat d.toNat).isHexDigit ∧ n.toNat = hexDigitValue (Char.ofNat d.toNat) := by
  rw [nibble_eq] at h
  split at h
  next hd =>
    cases h
    have hlt := hexDigitValue_lt d hd
    refine ⟨hd, ?_⟩
    simp only [Nat.toUInt8_eq, UInt8.toNat_ofNat']
    omega
  next => cases h

/-- The value of a digit is below sixteen, and its lowercase digit is the digit lowered. -/
theorem digit_of_nibble {d n : UInt8} (h : nibble d = some n) :
    n < 16 ∧ Char.ofNat (digit n).toNat = (Char.ofNat d.toNat).toLower := by
  obtain ⟨hd, hn⟩ := nibble_eq_some h
  have hlt := hexDigitValue_lt d hd
  have hmap := nibble_map_digit d
  rw [h, if_pos hd, Option.map_some, Option.some.injEq] at hmap
  exact ⟨UInt8.lt_iff_toNat_lt.mpr (by simp only [UInt8.reduceToNat]; omega), hmap⟩

/-! ## Bytes from two digits -/

/-- Shifting by one digit and putting a digit value in the gap appends the digit. -/
theorem shiftLeft_four_or {a n : Nat} (hn : n < 16) : a <<< 4 ||| n = 16 * a + n := by
  rw [← Nat.shiftLeft_add_eq_or_of_lt (by omega : n < 2 ^ 4), Nat.shiftLeft_eq]
  omega

/-- Two digit values joined into a byte: the first times sixteen plus the second. -/
theorem join_toNat (h l : UInt8) (hh : h < 16) (hl : l < 16) :
    ((h <<< 4) ||| l).toNat = 16 * h.toNat + l.toNat := by
  have hh' : h.toNat < 16 := hh
  have hl' : l.toNat < 16 := hl
  rw [UInt8.toNat_or, UInt8.toNat_shiftLeft]
  simp only [UInt8.reduceToNat, Nat.reduceMod]
  rw [Nat.mod_eq_of_lt (by rw [Nat.shiftLeft_eq]; omega), shiftLeft_four_or hl']

/-- A byte joined from two digit values is written as those two digits. -/
theorem pair_join (h l : UInt8) (hh : h < 16) (hl : l < 16) :
    pair ((h <<< 4) ||| l) = [digit h, digit l] := by
  have hj := join_toNat h l hh hl
  have hh' : h.toNat < 16 := hh
  have hl' : l.toNat < 16 := hl
  have hhigh : ((h <<< 4) ||| l) >>> 4 = h := by
    apply UInt8.toNat_inj.mp
    rw [UInt8.toNat_shiftRight, hj]
    simp only [UInt8.reduceToNat, Nat.reduceMod, Nat.shiftRight_eq_div_pow]
    omega
  have hlow : ((h <<< 4) ||| l) &&& 0x0F = l := by
    have hmask : (16 * h.toNat + l.toNat) &&& 15 = (16 * h.toNat + l.toNat) % 16 :=
      Nat.and_two_pow_sub_one_eq_mod _ 4
    apply UInt8.toNat_inj.mp
    rw [UInt8.toNat_and, hj]
    simp only [UInt8.reduceToNat, hmask]
    omega
  rw [pair, hhigh, hlow]

/-! ## Decoding byte strings -/

/-- Pairs of digits decode exactly when every byte of them is a digit. -/
theorem decodePairs_isOk_iff {text : List UInt8} (heven : text.length % 2 = 0) :
    (∃ bytes, decodePairs text = .ok bytes) ↔ ∀ d ∈ text, (Char.ofNat d.toNat).isHexDigit := by
  fun_induction decodePairs text with
  | case1 hi lo rest h l hlo hhi ih =>
    have hrest : rest.length % 2 = 0 := by simp at heven; omega
    rw [List.forall_mem_cons, List.forall_mem_cons, ← ih hrest, (nibble_eq_some hhi).1,
      (nibble_eq_some hlo).1]
    cases decodePairs rest <;> simp [Except.map]
  | case2 hi lo rest hbad =>
    simp only [reduceCtorEq, exists_false, false_iff]
    intro hall
    obtain ⟨h, hh⟩ := nibble_of_isHexDigit (hall hi (by simp))
    obtain ⟨l, hl⟩ := nibble_of_isHexDigit (hall lo (by simp))
    exact hbad h l hh hl
  | case3 text hshort =>
    -- what is left of an even text when no pair starts it is nothing
    obtain _ | ⟨a, _ | ⟨b, rest⟩⟩ := text
    · simp
    · simp at heven
    · exact absurd rfl (hshort a b rest)

/-- Decoded pairs are written back as the digits they were read from, in lowercase. -/
theorem digits_of_decodePairs {text bytes : List UInt8} (heven : text.length % 2 = 0)
    (h : decodePairs text = .ok bytes) :
    (digits bytes).map (fun d => Char.ofNat d.toNat) =
      text.map fun d => (Char.ofNat d.toNat).toLower := by
  fun_induction decodePairs text generalizing bytes with
  | case1 hi lo rest h l hlo hhi ih =>
    have hrest : rest.length % 2 = 0 := by simp at heven; omega
    cases hr : decodePairs rest with
    | error e => rw [hr] at h; cases h
    | ok tail =>
      rw [hr] at h
      cases h
      obtain ⟨hh, hhc⟩ := digit_of_nibble hhi
      obtain ⟨hl, hlc⟩ := digit_of_nibble hlo
      simp only [digits, List.flatMap_cons, pair_join h l hh hl, List.cons_append,
        List.nil_append, List.map_cons] at ih ⊢
      rw [hhc, hlc, ih hrest hr]
  | case2 => cases h
  | case3 text hshort =>
    cases h
    obtain _ | ⟨a, _ | ⟨b, rest⟩⟩ := text
    · rfl
    · simp at heven
    · exact absurd rfl (hshort a b rest)

/-- The bytes of written hex text are its digits. -/
theorem text_encode (bytes : List UInt8) : Client.text (encode bytes) = digits bytes := by
  rw [Client.text_eq, encode, String.toList_ofList, List.flatMap_map]
  -- every digit is one byte of UTF-8
  have hone : ∀ d ∈ digits bytes, String.utf8EncodeChar (Char.ofNat d.toNat) = [d] := by
    intro d hd
    obtain ⟨n, hn, rfl⟩ := mem_digits hd
    exact utf8_digit n hn
  generalize digits bytes = ds at hone ⊢
  induction ds with
  | nil => rfl
  | cons d ds ih =>
    rw [List.flatMap_cons, hone d List.mem_cons_self,
      ih fun e he => hone e (List.mem_cons_of_mem d he)]
    rfl

/-- Hex text is decoded exactly when it has an even number of digits of either case. -/
theorem decode_isOk_iff (text : List UInt8) :
    (∃ bytes, decode text = .ok bytes) ↔
      text.length % 2 = 0 ∧ ∀ d ∈ text, (Char.ofNat d.toNat).isHexDigit := by
  by_cases heven : text.length % 2 = 0
  · rw [← decodePairs_isOk_iff heven]
    simp only [decode, heven, ne_eq, not_true_eq_false, if_false, true_and]
    cases decodePairs text <;> simp
  · simp [decode, heven]

/-- What is decoded was read pair by pair from a text of an even number of digits. -/
theorem decodePairs_of_decode {text bytes : List UInt8} (h : decode text = .ok bytes) :
    text.length % 2 = 0 ∧ decodePairs text = .ok bytes := by
  by_cases heven : text.length % 2 = 0
  · simp only [decode, heven, ne_eq, not_true_eq_false, if_false] at h
    refine ⟨heven, ?_⟩
    cases hp : decodePairs text <;> simp_all
  · simp [decode, heven] at h

/-- Decoded bytes are written as the text they were read from, in lowercase. -/
theorem encode_of_decode {text bytes : List UInt8} (h : decode text = .ok bytes) :
    encode bytes = String.ofList (text.map fun d => (Char.ofNat d.toNat).toLower) := by
  obtain ⟨heven, hp⟩ := decodePairs_of_decode h
  rw [encode, digits_of_decodePairs heven hp]

/-- Written hex text decodes to the bytes it was written from. -/
theorem decode_text_encode (bytes : List UInt8) : decode (Client.text (encode bytes)) = .ok bytes := by
  rw [text_encode, decode_digits]

/-! ## Reading numbers -/

/-- Shifting a word with room for one more digit and putting a digit value in the gap appends
the digit. -/
theorem shift_or_toNat (acc : UInt64) (n : UInt8) (ha : acc.toNat * 16 < UInt64.size)
    (hn : n < 16) : ((acc <<< 4) ||| n.toUInt64).toNat = 16 * acc.toNat + n.toNat := by
  have hn' : n.toNat < 16 := hn
  have hsize : UInt64.size = 2 ^ 64 := rfl
  rw [UInt64.toNat_or, UInt64.toNat_shiftLeft]
  simp only [UInt64.reduceToNat, Nat.reduceMod, UInt8.toNat_toUInt64]
  rw [Nat.mod_eq_of_lt (by rw [Nat.shiftLeft_eq]; omega), shiftLeft_four_or hn']

/-- One more digit multiplies the room a number needs by sixteen. -/
theorem room_cons (a : Nat) (d : UInt8) (rest : List UInt8) :
    (a + 1) * Nat.pow 16 (d :: rest).length = 16 * (a + 1) * Nat.pow 16 rest.length := by
  rw [List.length_cons, Nat.pow_eq, Nat.pow_eq, Nat.pow_succ]
  ac_rfl

/-- Digits read onto a number: below the number times sixteen per digit, plus one less. -/
theorem foldl_digits_lt (text : List UInt8) (a : Nat)
    (hdig : ∀ d ∈ text, (Char.ofNat d.toNat).isHexDigit) :
    text.foldl (fun n d => 16 * n + hexDigitValue (Char.ofNat d.toNat)) a <
      (a + 1) * Nat.pow 16 text.length := by
  induction text generalizing a with
  | nil => simp
  | cons d rest ih =>
    have hv := hexDigitValue_lt d (hdig d List.mem_cons_self)
    have hrest := ih (16 * a + hexDigitValue (Char.ofNat d.toNat))
      fun e he => hdig e (List.mem_cons_of_mem d he)
    -- one more digit multiplies the room by sixteen
    calc _ < (16 * a + hexDigitValue (Char.ofNat d.toNat) + 1) * Nat.pow 16 rest.length := hrest
      _ ≤ 16 * (a + 1) * Nat.pow 16 rest.length := Nat.mul_le_mul_right _ (by omega)
      _ = (a + 1) * Nat.pow 16 (d :: rest).length := (room_cons a d rest).symm

/-- Reading digits onto a word that has room for all of them gives the number they denote. -/
theorem foldlM_value (text : List UInt8) (acc : UInt64)
    (hroom : (acc.toNat + 1) * Nat.pow 16 text.length ≤ UInt64.size) :
    text.foldlM (fun (acc : UInt64) d => (nibble d).map fun n => (acc <<< 4) ||| n.toUInt64) acc =
      if text.all (fun d => (Char.ofNat d.toNat).isHexDigit) then
        some (text.foldl (fun n d => 16 * n + hexDigitValue (Char.ofNat d.toNat)) acc.toNat).toUInt64
      else none := by
  induction text generalizing acc with
  | nil => simp
  | cons d rest ih =>
    rw [List.foldlM_cons, List.foldl_cons]
    cases hn : nibble d with
    | none =>
      have hd := nibble_eq_none_iff.mp hn
      simp [hd]
    | some n =>
      obtain ⟨hd, hv⟩ := nibble_eq_some hn
      have hlt := hexDigitValue_lt d hd
      have hpow : 16 ≤ Nat.pow 16 (rest.length + 1) := by
        rw [Nat.pow_eq, Nat.pow_succ]
        exact Nat.le_mul_of_pos_left 16 (Nat.pow_pos (by decide))
      have hroom16 : (acc.toNat + 1) * 16 ≤ UInt64.size :=
        Nat.le_trans (Nat.mul_le_mul_left _ hpow) (by simpa using hroom)
      have hnext := shift_or_toNat acc n (by omega) (UInt8.lt_iff_toNat_lt.mpr (by simp; omega))
      -- the word after this digit still has room for the rest
      have hroom' : (((acc <<< 4) ||| n.toUInt64).toNat + 1) * Nat.pow 16 rest.length ≤
          UInt64.size := by
        calc _ ≤ 16 * (acc.toNat + 1) * Nat.pow 16 rest.length :=
              Nat.mul_le_mul_right _ (by omega)
          _ = (acc.toNat + 1) * Nat.pow 16 (d :: rest).length := (room_cons _ d rest).symm
          _ ≤ UInt64.size := hroom
      simp only [Option.map_some, Option.bind_eq_bind, Option.bind_some, ih _ hroom', hnext, hv,
        List.all_cons, hd, Bool.true_and]

/-- Up to sixteen digits are read as the number they denote, if they are all digits. -/
theorem value_eq {text : List UInt8} (hlen : text.length ≤ 16) :
    value text =
      if text.all (fun d => (Char.ofNat d.toNat).isHexDigit) then some (hexValue text).toUInt64
      else none := by
  have hroom : ((0 : UInt64).toNat + 1) * Nat.pow 16 text.length ≤ UInt64.size := by
    have h := Nat.pow_le_pow_right (show 0 < 16 by decide) hlen
    simp only [Nat.pow_eq] at h ⊢
    simpa using h
  rw [value, foldlM_value text 0 hroom]
  rfl

/-- The number of up to sixteen digits fits in a word. -/
theorem hexValue_lt {text : List UInt8} (hlen : text.length ≤ 16)
    (hdig : ∀ d ∈ text, (Char.ofNat d.toNat).isHexDigit) : hexValue text < UInt64.size := by
  have hlt := foldl_digits_lt text 0 hdig
  have hpow := Nat.pow_le_pow_right (show 0 < 16 by decide) hlen
  simp only [Nat.pow_eq, Nat.zero_add, Nat.one_mul] at hlt hpow
  exact Nat.lt_of_lt_of_le hlt hpow

/-- A number is read exactly from one to sixteen digits of either case, as the value they
denote. -/
theorem parseU64_eq_ok_iff {text : List UInt8} {v : UInt64} :
    parseU64 text = .ok v ↔ HexNumeral text ∧ v.toNat = hexValue text := by
  by_cases hshape : text.isEmpty ∨ text.length > 16
  · have hbad : ¬(text ≠ [] ∧ text.length ≤ 16) := by
      rcases hshape with h | h
      · simp_all
      · omega
    simp only [parseU64, hshape, if_true, reduceCtorEq, false_iff]
    exact fun h => hbad ⟨h.1.1, h.1.2.1⟩
  · have hne : text ≠ [] := by simp_all
    have hlen : text.length ≤ 16 := by omega
    simp only [parseU64, hshape, if_false, value_eq hlen]
    by_cases hdig : ∀ d ∈ text, (Char.ofNat d.toNat).isHexDigit
    · have hlt := hexValue_lt hlen hdig
      rw [if_pos (List.all_eq_true.mpr hdig)]
      simp only [Except.ok.injEq]
      constructor
      · rintro rfl
        exact ⟨⟨hne, hlen, hdig⟩, by simp [Nat.mod_eq_of_lt hlt]⟩
      · rintro ⟨-, hv⟩
        apply UInt64.toNat_inj.mp
        simp [hv, Nat.mod_eq_of_lt hlt]
    · rw [if_neg (fun hall => hdig (List.all_eq_true.mp hall))]
      simp only [reduceCtorEq, false_iff]
      exact fun h => hdig h.1.2.2

/-- A numeral is read as the number it denotes. -/
theorem parseU64_of_numeral {text : List UInt8} (h : HexNumeral text) :
    parseU64 text = .ok (hexValue text).toUInt64 :=
  parseU64_eq_ok_iff.mpr ⟨h, by simp [Nat.mod_eq_of_lt (hexValue_lt h.2.1 h.2.2)]⟩

/-! ## Numbers written and read back -/

/-- The hex text of a number has as many bytes as the number has digits. -/
theorem length_numberBytes (n : Nat) : (numberBytes n).length = (Nat.toDigits 16 n).length := by
  induction n using Nat.strongRecOn with
  | ind n ih =>
    by_cases hn : n < 16
    · rw [numberBytes_of_lt hn, Nat.toDigits_of_lt_base hn]
      rfl
    · rw [numberBytes_of_le (by omega), Nat.toDigits_of_base_le (by decide) (by omega),
        List.length_append, List.length_append, ih _ (by omega)]
      rfl

/-- The hex text of a number denotes the number. -/
theorem hexValue_numberBytes (n : Nat) :
    (∀ d ∈ numberBytes n, (Char.ofNat d.toNat).isHexDigit) ∧ hexValue (numberBytes n) = n := by
  induction n using Nat.strongRecOn with
  | ind n ih =>
    by_cases hn : n < 16
    · obtain ⟨hd, hv⟩ := hexDigitValue_digit _ (toUInt8_lt_sixteen hn)
      rw [numberBytes_of_lt hn]
      refine ⟨by simpa using hd, ?_⟩
      simp only [hexValue, List.foldl_cons, List.foldl_nil, hv, Nat.toUInt8_eq, UInt8.toNat_ofNat']
      omega
    · have hlast := toUInt8_lt_sixteen (Nat.mod_lt n (show 16 > 0 by decide))
      obtain ⟨hd, hv⟩ := hexDigitValue_digit _ hlast
      obtain ⟨hdigs, hval⟩ := ih (n / 16) (by omega)
      rw [numberBytes_of_le (by omega)]
      refine ⟨?_, ?_⟩
      · intro d hmem
        rcases List.mem_append.mp hmem with h | h
        · exact hdigs d h
        · simp only [List.mem_singleton] at h
          subst h
          exact hd
      · simp only [hexValue] at hval ⊢
        rw [List.foldl_append, hval, List.foldl_cons, List.foldl_nil, hv]
        simp only [Nat.toUInt8_eq, UInt8.toNat_ofNat']
        omega

/-- The hex text of a 64-bit number reads back as the number. -/
theorem parseU64_numberBytes (v : UInt64) : parseU64 (numberBytes v.toNat) = .ok v := by
  obtain ⟨hdig, hval⟩ := hexValue_numberBytes v.toNat
  have hlen : (numberBytes v.toNat).length ≤ 16 := by
    rw [length_numberBytes, Nat.length_toDigits_le_iff (by decide) (by decide)]
    exact v.toNat_lt
  have hne : numberBytes v.toNat ≠ [] := numberBytes_ne_nil _
  exact parseU64_eq_ok_iff.mpr ⟨⟨hne, hlen, hdig⟩, hval.symm⟩

/-- The hex helpers are inverse on their domains. Bytes written as hex text are decoded back;
decoding succeeds exactly on an even number of digits of either case, and writes back as the
text in lowercase; a number is read exactly from one to sixteen digits, as the value they
denote; and the hex text of every 64-bit number reads back as the number. -/
theorem readers_exact :
    (∀ bytes : List UInt8, decode (encode bytes).toUTF8.toList = .ok bytes) ∧
    (∀ text : List UInt8, (∃ bytes, decode text = .ok bytes) ↔
      text.length % 2 = 0 ∧ ∀ d ∈ text, (Char.ofNat d.toNat).isHexDigit) ∧
    (∀ text bytes : List UInt8, decode text = .ok bytes →
      encode bytes = String.ofList (text.map fun d => (Char.ofNat d.toNat).toLower)) ∧
    (∀ text : List UInt8, (∃ v, parseU64 text = .ok v) ↔
      1 ≤ text.length ∧ text.length ≤ 16 ∧ ∀ d ∈ text, (Char.ofNat d.toNat).isHexDigit) ∧
    (∀ (text : List UInt8) (v : UInt64), parseU64 text = .ok v → v.toNat = hexValue text) ∧
    (∀ v : UInt64, parseU64 (String.ofList (Nat.toDigits 16 v.toNat)).toUTF8.toList = .ok v) := by
  refine ⟨decode_text_encode, decode_isOk_iff, fun _ _ => encode_of_decode, ?_, ?_, ?_⟩
  · intro text
    constructor
    · rintro ⟨v, hv⟩
      obtain ⟨⟨hne, hlen, hdig⟩, -⟩ := parseU64_eq_ok_iff.mp hv
      exact ⟨List.length_pos_iff.mpr hne, hlen, hdig⟩
    · rintro ⟨hpos, hlen, hdig⟩
      have hlt := hexValue_lt hlen hdig
      exact ⟨(hexValue text).toUInt64, parseU64_eq_ok_iff.mpr
        ⟨⟨List.length_pos_iff.mp hpos, hlen, hdig⟩, by simp [Nat.mod_eq_of_lt hlt]⟩⟩
  · intro text v hv
    exact (parseU64_eq_ok_iff.mp hv).2
  · intro v
    have htext := Client.text_natDigits v.toNat
    rw [natDigits_eq] at htext
    change parseU64 (Client.text _) = _
    rw [htext]
    exact parseU64_numberBytes v

/-- Mixed-case digits `00CC7f` decode to three bytes written back as `00cc7f`, and the number
`1000` is read as `0x1000`. -/
theorem readers_exact_mixedCase :
    decode [0x30, 0x30, 0x43, 0x43, 0x37, 0x66] = .ok [0x00, 0xcc, 0x7f] ∧
    encode [0x00, 0xcc, 0x7f] =
      String.ofList ([0x30, 0x30, 0x43, 0x43, 0x37, 0x66].map fun (d : UInt8) =>
        (Char.ofNat d.toNat).toLower) ∧
    parseU64 [0x31, 0x30, 0x30, 0x30] = .ok 0x1000 ∧
    (0x1000 : UInt64).toNat = hexValue [0x31, 0x30, 0x30, 0x30] :=
  have hdecode : decode [0x30, 0x30, 0x43, 0x43, 0x37, 0x66] = .ok [0x00, 0xcc, 0x7f] := by rfl
  have hparse : parseU64 [0x31, 0x30, 0x30, 0x30] = .ok 0x1000 := by rfl
  ⟨hdecode, readers_exact.2.2.1 _ _ hdecode, hparse, readers_exact.2.2.2.2.1 _ _ hparse⟩

end Hex

end RemoteDebugger
