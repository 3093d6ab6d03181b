/-!
# Reading DWARF sections

A `Cursor` is a window of a section's bytes with its byte order. A reader consumes a prefix of
the window or fails with a `Fault`, the sentence a DWARF reader reports.
-/

namespace RemoteDebugger.Dwarf

/-- Why debug information could not be read. -/
inductive Fault where
  | eof
  | badUnsignedLeb
  | badSignedLeb
  | abbreviationTagZero
  | attributeFormZero
  | badHasChildren
  | unknownForm
  | expectedZero
  | duplicateAbbreviationCode
  | unknownReservedLength
  | unknownVersion
  | unknownAbbreviation
  | unexpectedNull
  | unknownLocListsEntry
  | unknownRangeListsEntry
  | unsupportedAddressSize
  | minimumInstructionLengthZero
  | maximumOperationsPerInstructionZero
  | lineRangeZero
  | opcodeBaseZero
  | notCieId
  | unknownCallFrameInstruction
  | invalidAddressRange
  | addressOverflow
  | cfiInstructionInInvalidContext
  | popWithEmptyStack
  | unknownPointerEncoding
  | noEntryAtGivenOffset
  | offsetOutOfBounds
  | unknownAugmentation
  | unsupportedPointerEncoding
  | unsupportedRegister
  | tooManyRegisterRules
  | stackFull
  | unsupportedUnitType
  | unsupportedSegmentSize
  | missingUnitDie
  | missingFileEntryFormatPath
  | expectedStringAttributeValue
  | invalidImplicitConst
  | pcRelativeWithoutSectionBase
  | textRelativeWithoutTextBase
  | dataRelativeWithoutDataBase
  | funcRelativeOutOfContext
  | omitPointer
  deriving DecidableEq, Repr

/-- The sentence that reports a fault. -/
def Fault.message : Fault → String
  | .eof => "Hit the end of input before it was expected"
  | .badUnsignedLeb => "An error parsing an unsigned LEB128 value"
  | .badSignedLeb => "An error parsing a signed LEB128 value"
  | .abbreviationTagZero =>
    "An abbreviation declared that its tag is zero,\n                 but zero is reserved for null records"
  | .attributeFormZero =>
    "An attribute specification declared that its form is zero,\n                 but zero is reserved for null records"
  | .badHasChildren =>
    "The abbreviation's has-children byte was not one of\n                 " ++
      "\x60DW_CHILDREN_\x7byes,no\x7d\x60"
  | .unknownForm => "Found an unknown \x60DW_FORM_*\x60 type"
  | .expectedZero => "Expected a zero, found something else"
  | .duplicateAbbreviationCode => "Found an abbreviation code that has already been used"
  | .unknownReservedLength => "Found an unknown reserved length value"
  | .unknownVersion => "Found an unknown DWARF version"
  | .unknownAbbreviation => "Found a record with an unknown abbreviation code"
  | .unexpectedNull => "Read a null entry before it was expected."
  | .unknownLocListsEntry => "Found an unknown location lists entry"
  | .unknownRangeListsEntry => "Found an unknown range lists entry"
  | .unsupportedAddressSize => "The specified address size is not supported"
  | .minimumInstructionLengthZero => "The minimum instruction length must not be zero."
  | .maximumOperationsPerInstructionZero => "The maximum operations per instruction must not be zero."
  | .lineRangeZero => "The line range must not be zero."
  | .opcodeBaseZero => "The opcode base must not be zero."
  | .notCieId => "Expected to find the CIE ID, but found something else."
  | .unknownCallFrameInstruction => "An unknown DW_CFA_* instruction"
  | .invalidAddressRange => "The end of an address range must not be before the beginning."
  | .addressOverflow => "An address calculation overflowed."
  | .cfiInstructionInInvalidContext =>
    "Encountered a call frame instruction in a context in which it is not valid."
  | .popWithEmptyStack =>
    "When evaluating call frame instructions, found a \x60DW_CFA_restore_state\x60 stack pop " ++
      "instruction, but the stack was empty, and had nothing to pop."
  | .unknownPointerEncoding => "The given pointer encoding is either unknown or invalid."
  | .noEntryAtGivenOffset => "Did not find an entry at the given offset."
  | .offsetOutOfBounds => "The given offset is out of bounds."
  | .unknownAugmentation => "Found an unknown CFI augmentation."
  | .unsupportedPointerEncoding => "We do not support the given pointer encoding yet."
  | .unsupportedRegister => "Registers larger than \x60u16\x60 are not supported."
  | .tooManyRegisterRules => "The CFI program defined more register rules than we have storage for."
  | .stackFull =>
    "Attempted to push onto the CFI or evaluation stack, but it was already at full capacity."
  | .unsupportedUnitType => "The \x60DW_UT_*\x60 value for this unit is not supported yet"
  | .unsupportedSegmentSize => "Nonzero segment size not supported yet"
  | .missingUnitDie => "A compilation unit or type unit is missing its top level DIE."
  | .missingFileEntryFormatPath => "Missing DW_LNCT_path in file entry format."
  | .expectedStringAttributeValue => "Expected an attribute value to be a string form."
  | .invalidImplicitConst => "DW_FORM_implicit_const used in an invalid context."
  | .pcRelativeWithoutSectionBase => "Found a PC relative pointer, but the section base is undefined."
  | .textRelativeWithoutTextBase =>
    "Found a \x60.text\x60 relative pointer, but the \x60.text\x60 base is undefined."
  | .dataRelativeWithoutDataBase => "Found a data relative pointer, but the data base is undefined."
  | .funcRelativeOutOfContext =>
    "Found a function relative pointer in a context that does not have a function base."
  | .omitPointer => "Cannot parse a pointer with a \x60DW_EH_PE_omit\x60 encoding."

/-- A window of a section's bytes and the section's byte order. -/
structure Cursor where
  data : ByteArray
  pos : Nat
  stop : Nat
  big : Bool

/-- A whole section. -/
def Cursor.ofSection (data : ByteArray) (big : Bool) : Cursor := ⟨data, 0, data.size, big⟩

/-- The number of bytes left in the window. -/
def Cursor.remaining (c : Cursor) : Nat := c.stop - c.pos

/-- Whether the window is used up. -/
def Cursor.isEmpty (c : Cursor) : Bool := c.stop ≤ c.pos

/-- The bytes left in the window. -/
def Cursor.bytes (c : Cursor) : ByteArray := c.data.extract c.pos c.stop

/-- Readers: consume a prefix of the window or fail. -/
abbrev Read := StateT Cursor (Except Fault)

/-- Fail with a fault. -/
def fault {α : Type} (f : Fault) : Read α := fun _ => .error f

/-- Skip `n` bytes. -/
def skip (n : Nat) : Read Unit := fun c =>
  if n ≤ c.remaining then .ok ((), { c with pos := c.pos + n }) else .error .eof

/-- The next `n` bytes as a window of their own. -/
def split (n : Nat) : Read Cursor := fun c =>
  if n ≤ c.remaining then .ok ({ c with stop := c.pos + n }, { c with pos := c.pos + n })
  else .error .eof

/-- An unsigned number of `n` bytes in the section's byte order. -/
def uint (n : Nat) : Read Nat := fun c =>
  if n ≤ c.remaining then
    let bytes := (List.range n).map fun i => (c.data[c.pos + i]?.getD 0).toNat
    let ordered := if c.big then bytes else bytes.reverse
    .ok (ordered.foldl (fun acc b => acc * 256 + b) 0, { c with pos := c.pos + n })
  else .error .eof

/-- One byte. -/
def u8 : Read Nat := uint 1
/-- Two bytes. -/
def u16 : Read Nat := uint 2
/-- Four bytes. -/
def u32 : Read Nat := uint 4
/-- Eight bytes. -/
def u64 : Read Nat := uint 8

/-- The two's complement value of an `n`-byte number. -/
def twosComplement (n v : Nat) : Int := if v < Nat.pow 2 (8 * n - 1) then v else (v : Int) - (Nat.pow 2 (8 * n) : Nat)

/-- A signed number of `n` bytes. -/
def sint (n : Nat) : Read Int := do return twosComplement n (← uint n)

/-- The groups of an unsigned LEB128 number from bit `shift` on; at most ten bytes are read,
and the tenth may only carry the top bit of a 64-bit word. -/
def ulebGroups (shift : Nat) (acc : Nat) : Nat → Read Nat
  | 0 => fault .badUnsignedLeb
  | fuel + 1 => do
    let b ← u8
    if shift = 63 ∧ b ≠ 0 ∧ b ≠ 1 then fault .badUnsignedLeb
    else
      let acc := acc + (b % 128) * Nat.pow 2 shift
      if b < 128 then pure acc else ulebGroups (shift + 7) acc fuel

/-- An unsigned LEB128 number of at most 64 bits. -/
def uleb128 : Read Nat := ulebGroups 0 0 10

/-- The groups of a signed LEB128 number; the sign of the last group extends to 64 bits. -/
def slebGroups (shift : Nat) (acc : Nat) : Nat → Read Int
  | 0 => fault .badSignedLeb
  | fuel + 1 => do
    let b ← u8
    if shift = 63 ∧ b ≠ 0 ∧ b ≠ 0x7f then fault .badSignedLeb
    else
      let acc := (acc + (b % 128) * Nat.pow 2 shift) % UInt64.size
      let shift := shift + 7
      if b < 128 then
        let acc := if shift < 64 ∧ b % 128 ≥ 64 then acc + (UInt64.size - Nat.pow 2 shift) else acc
        pure (twosComplement 8 acc)
      else slebGroups shift acc fuel

/-- A signed LEB128 number of at most 64 bits. -/
def sleb128 : Read Int := slebGroups 0 0 10

/-- An unsigned LEB128 number of at most 16 bits, read in at most three bytes. -/
def uleb16 : Read Nat := do
  let b0 ← u8
  if b0 < 128 then return b0
  let b1 ← u8
  if b1 < 128 then return b0 % 128 + b1 * 128
  let b2 ← u8
  if b2 > 3 then fault .badUnsignedLeb
  else return b0 % 128 + (b1 % 128) * 128 + b2 * 16384

/-- The bytes up to the next zero byte, which is consumed too. -/
def cstring : Read ByteArray := fun c =>
  let rec find (i : Nat) (fuel : Nat) : Option Nat :=
    match fuel with
    | 0 => none
    | fuel + 1 =>
      if i < c.stop then
        if c.data[i]?.getD 0 = 0 then some i else find (i + 1) fuel
      else none
  match find c.pos c.remaining with
  | some z => .ok (c.data.extract c.pos z, { c with pos := z + 1 })
  | none => .error .eof

/-- An address of a given size. -/
def address (size : Nat) : Read Nat :=
  if size = 1 ∨ size = 2 ∨ size = 4 ∨ size = 8 then uint size else fault .unsupportedAddressSize

/-- An address size byte: one of 1, 2, 4 and 8. -/
def addressSize : Read Nat := do
  let s ← u8
  if s = 1 ∨ s = 2 ∨ s = 4 ∨ s = 8 then pure s else fault .unsupportedAddressSize

/-- A section offset: four bytes in 32-bit DWARF, eight in 64-bit DWARF. -/
def offset (is64 : Bool) : Read Nat := if is64 then u64 else u32

/-- An initial length: the length and whether the data that follows is 64-bit DWARF. -/
def initialLength : Read (Nat × Bool) := do
  let v ← u32
  if v < 0xfffffff0 then pure (v, false)
  else if v = 0xffffffff then return (← u64, true)
  else fault .unknownReservedLength

/-- Run a reader on a window, keeping only the value. -/
def Cursor.run {α : Type} (c : Cursor) (r : Read α) : Except Fault α := (r.run c).map (·.1)

/-- A window of a section starting at an offset, running to its end. -/
def Cursor.at (data : ByteArray) (big : Bool) (o : Nat) : Except Fault Cursor :=
  if o ≤ data.size then .ok ⟨data, o, data.size, big⟩ else .error .eof

/-- All ones in the low `size` bytes: the largest address of that size. -/
def onesSized (size : Nat) : Nat := Nat.pow 2 (8 * size) - 1

/-- Addition of addresses modulo the address size. -/
def wrapSized (a b size : Nat) : Nat := (a + b) % Nat.pow 2 (8 * size)

/-- Addition of addresses that must not leave the address size. -/
def addSized (a b size : Nat) : Except Fault Nat :=
  if a + b < UInt64.size ∧ a + b ≤ onesSized size then .ok (a + b) else .error .addressOverflow

end RemoteDebugger.Dwarf
