import RemoteDebugger.Symbols.Type
import RemoteDebugger.Proofs.Target.GdbLayout
import RemoteDebugger.Proofs.Wire.HexReading

/-!
# Integers rendered from their bytes

`SymbolType.formatValue` renders the little-endian encoding of an integer or pointer as the value
encoded, whatever bytes follow it.
-/

namespace RemoteDebugger

namespace SymbolType

/-- The sizes an integer may have. -/
theorem contains_of_mem {n : Nat} (hn : n ∈ [1, 2, 4, 8]) : [1, 2, 4, 8].contains n = true := by
  simpa using hn

/-- Half the range of an `n`-byte integer, doubled, is the range. -/
theorem range_eq_double {n : Nat} (hn : n ∈ [1, 2, 4, 8]) :
    Nat.pow 2 (8 * n) = 2 * Nat.pow 2 (8 * n - 1) := by
  have hpos : 0 < n := by simp at hn; omega
  rw [Nat.pow_eq, Nat.pow_eq, show 8 * n = 8 * n - 1 + 1 by omega, Nat.pow_succ]
  simp only [Nat.add_sub_cancel]
  ac_rfl

/-- An unsigned integer reads back from its little-endian bytes. -/
theorem unsignedOf_leBytes {n v : Nat} (hn : n ∈ [1, 2, 4, 8]) (hv : v < Nat.pow 2 (8 * n)) :
    unsignedOf (Registers.leBytes n v) = some v := by
  have hrange : Nat.pow 256 n = Nat.pow 2 (8 * n) := by
    rw [Nat.pow_eq, Nat.pow_eq, Nat.pow_mul]
  rw [unsignedOf, Registers.length_leBytes, if_pos (contains_of_mem hn),
    Registers.leValue_leBytes, hrange, Nat.mod_eq_of_lt hv]

/-- A signed integer reads back from the little-endian bytes of its two's complement. -/
theorem signedOf_leBytes {n : Nat} {v : Int} (hn : n ∈ [1, 2, 4, 8])
    (hlo : -(Nat.pow 2 (8 * n - 1) : Int) ≤ v) (hhi : v < (Nat.pow 2 (8 * n - 1) : Int)) :
    signedOf (Registers.leBytes n (v % (Nat.pow 2 (8 * n) : Int)).toNat) = some v := by
  have hdouble := range_eq_double hn
  -- the encoded number is `v` itself for a non-negative value, and `v` plus the range otherwise
  have hmod : 0 ≤ v % (Nat.pow 2 (8 * n) : Int) ∧ v % (Nat.pow 2 (8 * n) : Int) < Nat.pow 2 (8 * n) ∧
      (v % (Nat.pow 2 (8 * n) : Int) = if 0 ≤ v then v else v + Nat.pow 2 (8 * n)) := by
    rw [hdouble]
    push_cast
    split
    · refine ⟨by rw [Int.emod_eq_of_lt] <;> omega, by rw [Int.emod_eq_of_lt] <;> omega, ?_⟩
      rw [Int.emod_eq_of_lt] <;> omega
    · have hshift : v % (2 * (Nat.pow 2 (8 * n - 1) : Int)) = v + 2 * Nat.pow 2 (8 * n - 1) := by
        rw [← Int.add_mul_emod_self_left v (2 * (Nat.pow 2 (8 * n - 1) : Int)) 1, Int.mul_one,
          Int.emod_eq_of_lt] <;> omega
      omega
  obtain ⟨hnonneg, hlt, heq⟩ := hmod
  have hcast : ((v % (Nat.pow 2 (8 * n) : Int)).toNat : Int) = v % (Nat.pow 2 (8 * n) : Int) :=
    Int.toNat_of_nonneg hnonneg
  have hrange : ((Nat.pow 2 (8 * n) : Nat) : Int) = 2 * (Nat.pow 2 (8 * n - 1) : Int) := by
    exact_mod_cast hdouble
  rw [signedOf, unsignedOf_leBytes hn (by omega), Option.map_some, Registers.length_leBytes]
  congr 1
  by_cases hv : 0 ≤ v
  · rw [if_pos hv] at heq
    have hsmall : (v % (Nat.pow 2 (8 * n) : Int)).toNat < Nat.pow 2 (8 * n - 1) := by omega
    rw [if_pos hsmall]
    omega
  · rw [if_neg hv] at heq
    have hlarge : ¬(v % (Nat.pow 2 (8 * n) : Int)).toNat < Nat.pow 2 (8 * n - 1) := by omega
    rw [if_neg hlarge]
    omega

/-! ## Rendering -/

/-- Bytes past a type's size are not looked at. -/
theorem formatValue_append (t : SymbolType) {bytes : List UInt8} (hlen : bytes.length = t.size.toNat)
    (suffix : List UInt8) : t.formatValue (bytes ++ suffix) = t.formatValue bytes := by
  have htake : (bytes ++ suffix).take t.size.toNat = bytes.take t.size.toNat := by
    rw [← hlen, List.take_left, List.take_length]
  have hlong : ¬(bytes ++ suffix).length < t.size.toNat := by
    rw [List.length_append]
    omega
  have hexact : ¬bytes.length < t.size.toNat := by omega
  simp only [formatValue, hlong, hexact, or_false, htake]

/-- A type renders nothing from fewer bytes than its size. -/
theorem formatValue_short (t : SymbolType) {bytes : List UInt8} (h : bytes.length < t.size.toNat) :
    t.formatValue bytes = none := by
  simp [formatValue, h]

/-- An unknown type renders nothing. -/
theorem formatValue_unknown {t : SymbolType} (h : t.kind = .unknown) (bytes : List UInt8) :
    t.formatValue bytes = none := by
  simp [formatValue, h]

/-- An integer or pointer type of a size integers do not have renders nothing. -/
theorem formatValue_odd_size {t : SymbolType} (hk : t.kind ∈ [.int, .uint, .pointer])
    (hs : t.size.toNat ∉ [1, 2, 4, 8]) (bytes : List UInt8) : t.formatValue bytes = none := by
  by_cases hshort : bytes.length < t.size.toNat
  · exact formatValue_short t hshort
  · -- the bytes looked at have the type's size, which no integer has
    have hodd : unsignedOf (bytes.take t.size.toNat) = none := by
      have hlen : (bytes.take t.size.toNat).length = t.size.toNat := by
        rw [List.length_take]
        omega
      rw [unsignedOf, hlen, if_neg (by simpa using hs)]
    simp only [List.mem_cons, List.not_mem_nil, or_false] at hk
    rcases hk with hk | hk | hk <;> simp [formatValue, hk, hshort, signedOf, hodd]

/-- A type of size `n` looks at all `n` bytes of an encoding. -/
theorem take_leBytes (n v : Nat) : (Registers.leBytes n v).take n = Registers.leBytes n v :=
  List.take_of_length_le (Nat.le_of_eq (Registers.length_leBytes n v))

/-- A type of size `n` renders an `n`-byte encoding whatever bytes follow it. -/
theorem formatValue_leBytes_append (t : SymbolType) {n : Nat} (hsize : t.size.toNat = n) (v : Nat)
    (suffix : List UInt8) :
    t.formatValue (Registers.leBytes n v ++ suffix) = t.formatValue (Registers.leBytes n v) :=
  formatValue_append t (by rw [Registers.length_leBytes, hsize]) suffix

/-- The little-endian bytes of an unsigned value, and anything after them, render as its
decimal. -/
theorem formatValue_uint {t : SymbolType} (hk : t.kind = .uint) {n v : Nat} (hsize : t.size.toNat = n)
    (hn : n ∈ [1, 2, 4, 8]) (hv : v < Nat.pow 2 (8 * n)) (suffix : List UInt8) :
    t.formatValue (Registers.leBytes n v ++ suffix) = some (toString v) := by
  rw [formatValue_leBytes_append t hsize _ suffix]
  simp [formatValue, hk, hsize, take_leBytes, unsignedOf_leBytes hn hv]

/-- The little-endian bytes of a pointer, and anything after them, render as `0x` and its
lowercase hex digits. -/
theorem formatValue_pointer {t : SymbolType} (hk : t.kind = .pointer) {n v : Nat}
    (hsize : t.size.toNat = n) (hn : n ∈ [1, 2, 4, 8]) (hv : v < Nat.pow 2 (8 * n))
    (suffix : List UInt8) :
    t.formatValue (Registers.leBytes n v ++ suffix) = some ("0x" ++ String.ofList (Nat.toDigits 16 v)) := by
  rw [formatValue_leBytes_append t hsize _ suffix]
  simp [formatValue, hk, hsize, take_leBytes, unsignedOf_leBytes hn hv, Hex.natDigits_eq]

/-- The little-endian bytes of a signed value's two's complement, and anything after them,
render as its decimal. -/
theorem formatValue_int {t : SymbolType} (hk : t.kind = .int) {n : Nat} {v : Int}
    (hsize : t.size.toNat = n) (hn : n ∈ [1, 2, 4, 8])
    (hlo : -(Nat.pow 2 (8 * n - 1) : Int) ≤ v) (hhi : v < (Nat.pow 2 (8 * n - 1) : Int))
    (suffix : List UInt8) :
    t.formatValue (Registers.leBytes n (v % (Nat.pow 2 (8 * n) : Int)).toNat ++ suffix) =
      some (toString v) := by
  rw [formatValue_leBytes_append t hsize _ suffix]
  have hsigned := signedOf_leBytes hn hlo hhi
  simp only [formatValue, hk, hsize, Registers.length_leBytes, take_leBytes, hsigned]
  simp

example : SymbolType.formatValue ⟨none, "point", 2, .int⟩ [0xfe, 0xff] = some "-2" := by decide

end SymbolType

end RemoteDebugger
