import RemoteDebugger.Dwarf.Form
import RemoteDebugger.Overflow

/-!
# Line number programs

A unit's line table: `LineHeader.parse` reads the header with its checks, directories and file
names, and `LineHeader.rows` runs the program, dropping the rows of dead code after a
`DW_LNE_set_address` that goes back.
-/

namespace RemoteDebugger.Dwarf

/-- A file of a line table: its path value and the index of its directory. -/
structure FileEntry where
  path : Value
  directory : Nat

/-- A parsed line program header. -/
structure LineHeader where
  enc : Encoding
  minInstLength : Nat
  maxOps : Nat
  defaultIsStmt : Bool
  lineBase : Int
  lineRange : Nat
  opcodeBase : Nat
  opcodeLengths : ByteArray
  directories : Array Value
  files : Array FileEntry
  program : Cursor
  compDir : Option ByteArray

/-- Repeat a reader up to `fuel` times while it yields something. -/
def collect {α : Type} (r : Read (Option α)) : Nat → Array α → Read (Array α)
  | 0, acc => pure acc
  | fuel + 1, acc => do
    match ← r with
    | some a => collect r fuel (acc.push a)
    | none => pure acc

/-- Run a reader `n` times. -/
def replicate {α : Type} (r : Read α) : Nat → Array α → Read (Array α)
  | 0, acc => pure acc
  | n + 1, acc => do replicate r n (acc.push (← r))

/-- An entry format of DWARF 5: content type codes with their forms. The path must be
described exactly once. -/
def entryFormat : Read (List (Nat × Nat)) := do
  let n ← u8
  let fmt ← replicate (do
    let kind ← uleb128
    let form ← uleb16
    pure (min kind 0xffff, form)) n #[]
  if (fmt.toList.filter (·.1 = 1)).length ≠ 1 then fault .missingFileEntryFormatPath
  pure fmt.toList

/-- The forms a value of a DWARF 5 entry list may take: blocks, constants, flags, section
offsets and strings. Addresses, references, indirection, present flags and implicit constants
have no meaning there. -/
def entryForms : List Nat :=
  [0x0a, 0x03, 0x04, 0x09, 0x0b, 0x05, 0x06, 0x07, 0x1e, 0x0f, 0x0d, 0x0c, 0x17, 0x08, 0x0e,
   0x1d, 0x1f21, 0x1f, 0x1a, 0x1f02, 0x25, 0x26, 0x27, 0x28]

/-- Read one entry of a DWARF 5 list: each described value in turn, keeping the path and the
directory index. -/
def formatEntry (enc : Encoding) (fmt : List (Nat × Nat)) : Read FileEntry := do
  let mut path : Value := .flag false
  let mut directory := 0
  for (kind, form) in fmt do
    if !entryForms.contains form then fault .unknownForm
    let v ← readValue enc 0 form none
    if kind = 1 then path := v
    else if kind = 2 then
      if let some d := v.udata? then directory := d
  pure ⟨path, directory⟩

/-- The most entries a DWARF 5 list is read to: every entry that takes room needs a byte. -/
def listBound (c : Cursor) (count : Nat) : Nat := min count (c.remaining + 4096)

/-- Parse the line program header at the front of the cursor, for a unit with an address size,
compilation directory and name. -/
def LineHeader.parse (addressSize₀ : Nat) (compDir : Option ByteArray) : Read LineHeader := do
  let (length, is64) ← initialLength
  let rest ← split length
  match (body length is64).run rest with
  | .ok (h, _) => pure h
  | .error e => fault e
where
  body (_length : Nat) (is64 : Bool) : Read LineHeader := do
    let version ← u16
    if version < 2 ∨ version > 5 then fault .unknownVersion
    let addressSize ← if version ≥ 5 then do
        let a ← addressSize
        if (← u8) ≠ 0 then fault .unsupportedSegmentSize
        pure a
      else pure addressSize₀
    let enc : Encoding := ⟨is64, version, addressSize⟩
    let headerLength ← offset is64
    let c ← get
    if headerLength > c.remaining then fault .eof
    let program : Cursor := { c with pos := c.pos + headerLength }
    set { c with stop := c.pos + headerLength }
    let minInstLength ← u8
    if minInstLength = 0 then fault .minimumInstructionLengthZero
    let maxOps ← if version ≥ 4 then u8 else pure 1
    if maxOps = 0 then fault .maximumOperationsPerInstructionZero
    let defaultIsStmt := (← u8) ≠ 0
    let lineBase ← sint 1
    let lineRange ← u8
    if lineRange = 0 then fault .lineRangeZero
    let opcodeBase ← u8
    if opcodeBase = 0 then fault .opcodeBaseZero
    let opcodeLengths := (← split (opcodeBase - 1)).bytes
    if version ≤ 4 then
      let directories ← collect (do
        let d ← cstring
        pure (if d.isEmpty then none else some (Value.string d))) ((← get).remaining + 1) #[]
      let files ← collect (do
        let p ← cstring
        if p.isEmpty then pure none
        else
          let directory ← uleb128
          discard uleb128
          discard uleb128
          pure (some ⟨.string p, directory⟩)) ((← get).remaining + 1) #[]
      pure { enc, minInstLength, maxOps, defaultIsStmt, lineBase, lineRange, opcodeBase,
             opcodeLengths, directories, files, program, compDir }
    else
      let dirFormat ← entryFormat
      let dirCount ← uleb128
      let directories ← replicate ((·.path) <$> formatEntry enc dirFormat)
        (listBound (← get) dirCount) #[]
      let fileFormat ← entryFormat
      let fileCount ← uleb128
      let files ← replicate (formatEntry enc fileFormat) (listBound (← get) fileCount) #[]
      pure { enc, minInstLength, maxOps, defaultIsStmt, lineBase, lineRange, opcodeBase,
             opcodeLengths, directories, files, program, compDir := none }

/-- The directory of a file: in DWARF 4 and before, index 0 is the compilation directory and
the include directories count from 1. -/
def LineHeader.directory (h : LineHeader) (index : Nat) : Option Value :=
  if h.enc.version ≤ 4 then
    if index = 0 then h.compDir.map .string else h.directories[index - 1]?
  else h.directories[index]?

/-- The registers of the line state machine. -/
structure LineRow where
  address : Nat := 0
  opIndex : Nat := 0
  file : Nat := 1
  line : Nat := 1
  column : Nat := 0
  isStmt : Bool
  endSequence : Bool := false
  /-- Set while the rows belong to code that was dropped at link time. -/
  tombstone : Bool := false

/-- The registers at the start of a sequence. -/
def LineHeader.startRow (h : LineHeader) : LineRow := { isStmt := h.defaultIsStmt }

/-- One instruction of a line program. -/
inductive LineOp where
  | special (opcode : Nat)
  | copy
  | advancePc (n : Nat)
  | advanceLine (n : Int)
  | setFile (n : Nat)
  | setColumn (n : Nat)
  | negateStmt
  | constAddPc
  | fixedAddPc (n : Nat)
  | endSequence
  | setAddress (a : Nat)
  /-- An instruction that changes nothing this reader keeps. -/
  | other

/-- Read one instruction. -/
def LineHeader.instruction (h : LineHeader) : Read LineOp := do
  let op ← u8
  if op = 0 then
    let length ← uleb128
    let body ← split length
    match (extended).run body with
    | .ok (i, _) => pure i
    | .error e => fault e
  else if op ≥ h.opcodeBase then pure (.special op)
  else match op with
    | 1 => pure .copy
    | 2 => .advancePc <$> uleb128
    | 3 => .advanceLine <$> sleb128
    | 4 => .setFile <$> uleb128
    | 5 => .setColumn <$> uleb128
    | 6 => pure .negateStmt
    | 7 => pure .other
    | 8 => pure .constAddPc
    | 9 => .fixedAddPc <$> u16
    | 10 | 11 => pure .other
    | 12 => do discard uleb128; pure .other
    | _ => do
      let n := (h.opcodeLengths[op - 1]?.getD 0).toNat
      discard (replicate uleb128 n #[])
      pure .other
where
  extended : Read LineOp := do
    match ← u8 with
    | 1 => pure .endSequence
    | 2 => .setAddress <$> address h.enc.addressSize
    | 3 =>
      if h.enc.version ≤ 4 then do
        discard cstring
        discard uleb128
        discard uleb128
        discard uleb128
        pure .other
      else pure .other
    | 4 => do discard uleb128; pure .other
    | _ => pure .other

/-- Advance the address by a number of operations. -/
def LineHeader.advance (h : LineHeader) (r : LineRow) (n : Nat) : Except Fault LineRow :=
  if r.tombstone then .ok r
  else
    let (opIndex, step) :=
      if h.maxOps = 1 then (0, h.minInstLength * n % UInt64.size)
      else
        let total := (r.opIndex + n) % UInt64.size
        (total % h.maxOps, h.minInstLength * (total / h.maxOps) % UInt64.size)
    match addSized r.address step h.enc.addressSize with
    | .ok a => .ok { r with address := a, opIndex }
    | .error e => .error e

/-- Running a line program: it stops at a fault of the data or at an arithmetic fault. -/
abbrev LineM := ExceptT Overflow (Except Fault)

/-- Go on with a checked result, or stop at its arithmetic fault. -/
def LineM.checked {α : Type} (c : Checked α) : LineM α := ExceptT.mk (.ok c)

/-- Move the line by a signed 64-bit amount; it stops at zero and wraps above. A backward move
takes the amount's magnitude, which the least amount does not have. -/
def LineRow.moveLine (r : LineRow) (d : Int) : Checked LineRow :=
  if d < 0 then do
    let back ← Checked.negate .lineAdvance d
    return { r with line := r.line - back }
  else .ok { r with line := (r.line + d.toNat) % UInt64.size }

/-- Execute one instruction; the flag says whether it emits a row. -/
def LineHeader.execute (h : LineHeader) (r : LineRow) : LineOp → LineM (LineRow × Bool)
  | .special op => do
    let adjusted := op - h.opcodeBase
    let r ← LineM.checked (r.moveLine (h.lineBase + (adjusted % h.lineRange : Nat)))
    return (← h.advance r (adjusted / h.lineRange), true)
  | .copy => pure (r, true)
  | .advancePc n => do return (← h.advance r n, false)
  | .advanceLine n => do return (← LineM.checked (r.moveLine n), false)
  | .setFile n => pure ({ r with file := n }, false)
  | .setColumn n => pure ({ r with column := n }, false)
  | .negateStmt => pure ({ r with isStmt := !r.isStmt }, false)
  | .constAddPc => do return (← h.advance r ((255 - h.opcodeBase) / h.lineRange), false)
  | .fixedAddPc n =>
    if r.tombstone then pure (r, false)
    else do
      let a ← addSized r.address n h.enc.addressSize
      return ({ r with address := a, opIndex := 0 }, false)
  | .endSequence => pure ({ r with endSequence := true }, true)
  | .setAddress a =>
    let tombstone := a < r.address ∨ a = onesSized h.enc.addressSize
    if tombstone then pure ({ r with tombstone := true }, false)
    else pure ({ r with tombstone := false, address := a, opIndex := 0 }, false)
  | .other => pure (r, false)

/-- The registers after a row was emitted: a new sequence starts after an end of sequence. -/
def LineHeader.afterRow (h : LineHeader) (r : LineRow) : LineRow :=
  if r.endSequence then h.startRow else r

/-- Run the program from a state, collecting the rows; every instruction takes at least one
byte, so `fuel` one more than the bytes left suffices. -/
def LineHeader.run (h : LineHeader) : Nat → Cursor → LineRow → Array LineRow →
    LineM (Array LineRow)
  | 0, _, _, acc => pure acc
  | fuel + 1, c, r, acc =>
    if c.isEmpty then pure acc
    else do
      let (op, c) ← h.instruction.run c
      let (r, emits) ← h.execute r op
      if emits then
        if r.tombstone then h.run fuel c (h.afterRow r) acc
        else h.run fuel c (h.afterRow r) (acc.push r)
      else h.run fuel c r acc

/-- Every row the program emits, or the first fault: of the data, or, inside, arithmetic. -/
def LineHeader.rows (h : LineHeader) : Except Fault (Checked (Array LineRow)) :=
  (h.run (h.program.remaining + 1) h.program h.startRow #[]).run

end RemoteDebugger.Dwarf
