/-!
# Reading DWARF operands

Little-endian fixed-width numbers and LEB128 numbers read from the front of a
byte list. Running out of bytes is `eof`; an unsigned LEB128 number whose
tenth byte carries more than the top bit of a 64-bit word is refused, and so is
a signed one whose tenth byte is neither `0x00` nor `0x7f`.
-/

namespace RemoteDebugger.Dwarf

/-- Why an operand could not be read. -/
inductive OperandError where
  | eof
  | badUnsigned
  | badSigned
  deriving DecidableEq, Repr

/-- The text of an operand error. -/
def OperandError.message : OperandError → String
  | .eof => "Hit the end of input before it was expected"
  | .badUnsigned => "An error parsing an unsigned LEB128 value"
  | .badSigned => "An error parsing a signed LEB128 value"

/-- The little-endian value of a byte list. -/
def leValue (bytes : List UInt8) : Nat := bytes.foldr (fun b acc => b.toNat + 256 * acc) 0

/-- Read `n` bytes as a little-endian number. -/
def readFixed (n : Nat) (bytes : List UInt8) : Except OperandError (Nat × List UInt8) :=
  if bytes.length < n then .error .eof else .ok (leValue (bytes.take n), bytes.drop n)

/-- The signed value of `n` little-endian bytes in two's complement. -/
def signedOf (n : Nat) (v : Nat) : Int :=
  if v < Nat.pow 2 (8 * n - 1) then v else (v : Int) - (Nat.pow 2 (8 * n) : Nat)

/-- Read an unsigned LEB128 number; `shift` is the bit position of the next group. -/
def readUleb (shift : Nat) (acc : UInt64) : List UInt8 → Except OperandError (UInt64 × List UInt8)
  | [] => .error .eof
  | b :: rest =>
    if shift = 63 ∧ b ≠ 0 ∧ b ≠ 1 then .error .badUnsigned
    else
      let acc := acc ||| ((b &&& 0x7f).toUInt64 <<< shift.toUInt64)
      if b &&& 0x80 = 0 then .ok (acc, rest) else readUleb (shift + 7) acc rest

/-- Read a signed LEB128 number, extending the sign of the last group. -/
def readSleb (shift : Nat) (acc : UInt64) : List UInt8 → Except OperandError (UInt64 × List UInt8)
  | [] => .error .eof
  | b :: rest =>
    if shift = 63 ∧ b ≠ 0 ∧ b ≠ 0x7f then .error .badSigned
    else
      let acc := acc ||| ((b &&& 0x7f).toUInt64 <<< shift.toUInt64)
      let shift := shift + 7
      if b &&& 0x80 = 0 then
        let acc := if shift < 64 ∧ b &&& 0x40 ≠ 0 then acc ||| (UInt64.ofNat (UInt64.size - 1) <<< shift.toUInt64) else acc
        .ok (acc, rest)
      else readSleb shift acc rest

/-- An unsigned LEB128 number from the front of a byte list. -/
def uleb (bytes : List UInt8) : Except OperandError (UInt64 × List UInt8) := readUleb 0 0 bytes

/-- A signed LEB128 number from the front of a byte list, as its 64-bit two's complement. -/
def sleb (bytes : List UInt8) : Except OperandError (UInt64 × List UInt8) := readSleb 0 0 bytes

end RemoteDebugger.Dwarf
