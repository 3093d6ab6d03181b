import RemoteDebugger.Dwarf.Reader

/-!
# Call frame information

The CIEs and FDEs of `.debug_frame` and `.eh_frame`, and the unwind tables their call frame
instructions build: from each address on, how to find the CFA and where each register of the
caller was saved.
-/

namespace RemoteDebugger.Dwarf

/-- Which call frame section is read. -/
inductive FrameKind where
  | debugFrame
  | ehFrame
  deriving DecidableEq

/-- Addresses that encoded pointers may be relative to. -/
structure Bases where
  frameSection : Option Nat := none
  text : Option Nat := none
  data : Option Nat := none

/-- A call frame section with what reading it needs. -/
structure FrameSource where
  kind : FrameKind
  data : ByteArray
  big : Bool
  addressSize : Nat
  bases : Bases

/-- What the augmentation string of a CIE says about its FDEs. -/
structure Augmentation where
  lsda : Option Nat := none
  fdeEncoding : Option Nat := none

/-- A common information entry. -/
structure Cie where
  augmentation : Option Augmentation
  addressSize : Nat
  codeAlign : Nat
  dataAlign : Int
  instructions : Cursor

/-- A frame description entry with its CIE. -/
structure Fde where
  cie : Cie
  initial : Nat
  instructions : Cursor

/-- An entry of a call frame section: a CIE, or an FDE with the offset of its CIE and its
remaining bytes. -/
inductive FrameEntry where
  | cie (c : Cie)
  | fde (cieOffset : Nat) (rest : Cursor)

/-- Whether a pointer encoding byte is known: `DW_EH_PE_omit`, or a known value format with a
known application. -/
def validEncoding (e : Nat) : Bool :=
  e == 0xff || ([0, 1, 2, 3, 4, 9, 10, 11, 12].contains (e % 16) && (e / 16) % 8 ≤ 5)

/-- A pointer encoding byte. -/
def pointerEncoding : Read Nat := do
  let e ← u8
  if validEncoding e then pure e else fault .unknownPointerEncoding

/-- A value in the format of an encoding, as 64 bits. -/
def encodedValue (e size : Nat) : Read Nat :=
  let wrap (i : Int) : Nat := (i % UInt64.size).toNat
  match e % 16 with
  | 0 => address size
  | 1 => uleb128
  | 2 => u16
  | 3 => u32
  | 4 => u64
  | 9 => wrap <$> sleb128
  | 10 => wrap <$> sint 2
  | 11 => wrap <$> sint 4
  | _ => wrap <$> sint 8

/-- A pointer in an encoding, made absolute; the flag says it must be read through. -/
def encodedPointer (b : Bases) (func : Option Nat) (e size : Nat) : Read (Nat × Bool) := do
  if !validEncoding e then fault .unknownPointerEncoding
  if e = 0xff then fault .omitPointer
  let base ← match (e / 16) % 8 with
    | 0 => pure 0
    | 1 => do
      match b.frameSection with
      | some s => pure (wrapSized s (← get).pos size)
      | none => fault .pcRelativeWithoutSectionBase
    | 2 => match b.text with
      | some t => pure t
      | none => fault .textRelativeWithoutTextBase
    | 3 => match b.data with
      | some d => pure d
      | none => fault .dataRelativeWithoutDataBase
    | 4 => match func with
      | some f => pure f
      | none => fault .funcRelativeOutOfContext
    | _ => fault .unsupportedPointerEncoding
  let v ← encodedValue e size
  pure (wrapSized base v size, e ≥ 0x80)

/-- A register number that must fit in 16 bits. -/
def register16 : Read Nat := do
  let r ← uleb128
  if r < 65536 then pure r else fault .unsupportedRegister

/-- Read the augmentation of a CIE from its string; the data it describes follows the
return address register. -/
def augmentation (src : FrameSource) (size : Nat) (text : List UInt8) : Read Augmentation := do
  let mut aug : Augmentation := {}
  let mut data : Option Cursor := none
  let mut first := true
  for ch in text do
    if ch = 0x7a then
      if !first then fault .unknownAugmentation
      data := some (← split (← uleb128))
    else if ch = 0x4c ∨ ch = 0x50 ∨ ch = 0x52 then
      let some d := data | fault .unknownAugmentation
      match (step ch).run d with
      | .ok (r, d') =>
        data := some d'
        if ch = 0x4c then aug := { aug with lsda := some r }
        if ch = 0x52 then aug := { aug with fdeEncoding := some r }
      | .error e => fault e
    else if ch ≠ 0x53 then fault .unknownAugmentation
    first := false
  pure aug
where
  step (ch : UInt8) : Read Nat := do
    let e ← pointerEncoding
    if ch = 0x50 then discard (encodedPointer src.bases none e size)
    pure e

/-- The rest of a CIE after its id. -/
def cieBody (src : FrameSource) : Read Cie := do
  let version ← u8
  if !(version = 1 ∨ version = 3 ∨ version = 4) then fault .unknownVersion
  let text ← cstring
  let size ← if src.kind = .debugFrame ∧ version = 4 then do
      let s ← addressSize
      if (← u8) ≠ 0 then fault .unsupportedSegmentSize
      pure s
    else pure src.addressSize
  let codeAlign ← uleb128
  let dataAlign ← sleb128
  discard (if version = 1 then u8 else register16)
  let aug ← if text.isEmpty then pure none else some <$> augmentation src size text.toList
  pure ⟨aug, size, codeAlign, dataAlign, ← get⟩

/-- Read the entry at the front of the cursor; `none` where the entries end. Zero padding
between `.debug_frame` entries is skipped, four bytes at a time. -/
def frameEntry (src : FrameSource) : Nat → Read (Option FrameEntry)
  | 0 => pure none
  | fuel + 1 => do
    let (length, is64) ← initialLength
    if src.kind = .ehFrame ∧ length = 0 then return none
    if length = 0 ∧ !is64 then frameEntry src fuel
    else
      let rest ← split length
      match (body is64).run rest with
      | .ok (e, _) => pure (some e)
      | .error e => fault e
where
  body (is64 : Bool) : Read FrameEntry := do
    let idPos := (← get).pos
    let id ← if src.kind = .debugFrame ∧ is64 then u64 else u32
    let isCie : Bool := match src.kind with
      | .ehFrame => id == 0
      | .debugFrame => id == (if is64 then UInt64.size - 1 else UInt32.size - 1)
    if isCie then return .cie (← cieBody src)
    match src.kind with
    | .debugFrame => return .fde id (← get)
    | .ehFrame =>
      if id ≤ idPos then return .fde (idPos - id) (← get)
      else fault .offsetOutOfBounds

/-- The CIE at an offset of the section. -/
def FrameSource.cieAt (src : FrameSource) (o : Nat) : Except Fault Cie := do
  let c ← Cursor.at src.data src.big o
  match ← c.run (frameEntry src (c.remaining + 1)) with
  | some (.cie cie) => pure cie
  | some (.fde _ _) => .error .notCieId
  | none => .error .noEntryAtGivenOffset

/-- Complete an FDE: find its CIE, read its addresses and augmentation data. -/
def FrameSource.fde (src : FrameSource) (cieOffset : Nat) (rest : Cursor) : Except Fault Fde := do
  let cie ← src.cieAt cieOffset
  let fields : Read Fde := do
    let size := cie.addressSize
    let initial ← match cie.augmentation.bind (·.fdeEncoding) with
      | some e => do
        let (p, _) ← encodedPointer src.bases none e size
        discard (encodedValue e size)
        pure p
      | none => do
        let a ← address size
        discard (address size)
        pure a
    if let some aug := cie.augmentation then
      let d ← split (← uleb128)
      if let some e := aug.lsda then
        match (encodedPointer src.bases (some initial) e size).run d with
        | .ok _ => pure ()
        | .error f => fault f
    pure ⟨cie, initial, ← get⟩
  rest.run fields

/-- How the CFA is found. -/
inductive CfaRule where
  | regOffset (reg : Nat) (offset : Int)
  | expression

/-- How a register of the caller is recovered. -/
inductive RegRule where
  | undefined
  | sameValue
  | offset (n : Int)
  | valOffset (n : Int)
  | register (r : Nat)
  | expression
  | valExpression
  deriving DecidableEq

/-- A row of the unwind table: where it starts, the CFA rule and the register rules in the
order they are stored. -/
structure UnwindRow where
  start : Nat := 0
  cfa : CfaRule := .regOffset 0 0
  rules : Array (Nat × RegRule) := #[]

/-- The row every table starts from: no rules, and the CFA at register 0. -/
def UnwindRow.blank : UnwindRow := { start := 0 }

/-- Set the rule of a register: an undefined rule removes it, moving the last rule into its
place; a new rule goes last, if there is room. -/
def UnwindRow.setRule (r : UnwindRow) (reg : Nat) (rule : RegRule) : Except Fault UnwindRow :=
  match r.rules.findIdx? (·.1 = reg) with
  | some i =>
    if rule = .undefined then
      let last := r.rules.size - 1
      .ok { r with rules := (r.rules.set! i (r.rules[last]?.getD (reg, rule))).pop }
    else .ok { r with rules := r.rules.set! i (reg, rule) }
  | none =>
    if rule = .undefined then .ok r
    else if r.rules.size < 192 then .ok { r with rules := r.rules.push (reg, rule) }
    else .error .tooManyRegisterRules

/-- The rule of a register in a row. -/
def UnwindRow.rule (r : UnwindRow) (reg : Nat) : RegRule :=
  ((r.rules.find? (·.1 = reg)).map (·.2)).getD .undefined

/-- The unwinding context: the stack of rows, whose top is the row being built, and the rules
the CIE left, kept once its instructions have run. -/
structure UnwindContext where
  stack : Array UnwindRow := #[UnwindRow.blank]
  /-- The CIE's rules when they name at most one register; otherwise they sit at the bottom
  of the stack. -/
  initialRule : Option (Nat × RegRule) := none
  initialized : Bool := false

/-- The row being built. -/
def UnwindContext.row (c : UnwindContext) : UnwindRow := c.stack.back?.getD UnwindRow.blank

/-- Change the row being built. -/
def UnwindContext.modifyRow (c : UnwindContext) (f : UnwindRow → UnwindRow) : UnwindContext :=
  { c with stack := c.stack.modify (c.stack.size - 1) f }

/-- Keep the CIE's rules for `DW_CFA_restore`. -/
def UnwindContext.saveInitial (c : UnwindContext) : Except Fault UnwindContext :=
  match c.row.rules.toList with
  | [] => .ok { c with initialRule := some (0, .undefined), initialized := true }
  | [r] => .ok { c with initialRule := some r, initialized := true }
  | _ =>
    if c.stack.size ≥ 4 then .error .stackFull
    else .ok { c with stack := #[c.row] ++ c.stack, initialRule := none, initialized := true }

/-- The rule the CIE left for a register, once it is known. -/
def UnwindContext.initialRuleFor (c : UnwindContext) (reg : Nat) : Option RegRule :=
  if !c.initialized then none
  else match c.initialRule with
    | none => some ((c.stack[0]?.getD UnwindRow.blank).rule reg)
    | some (r, rule) => some (if r = reg then rule else .undefined)

/-- One call frame instruction. -/
inductive CfaOp where
  | setLoc (a : Nat)
  | advanceLoc (delta : Nat)
  | defCfa (reg : Nat) (offset : Int)
  | defCfaRegister (reg : Nat)
  | defCfaOffset (offset : Int)
  | defCfaExpression
  | rule (reg : Nat) (r : RegRule)
  | restore (reg : Nat)
  | remember
  | restoreState
  | nop

/-- The product of a factored offset and an alignment factor, in 64-bit two's complement. -/
def factored (n : Int) (align : Int) : Int := twosComplement 8 ((n * align) % UInt64.size).toNat

/-- A table being evaluated: alignment factors, the address size, where the next row starts,
and the instructions left. -/
structure Table where
  codeAlign : Nat
  dataAlign : Int
  addressSize : Nat
  fdeEncoding : Option Nat
  nextStart : Nat
  returnedLast : Bool := false
  input : Cursor

/-- Read one instruction. -/
def Table.instruction (t : Table) (b : Bases) : Read CfaOp := do
  let op ← u8
  let low := op % 64
  let da := t.dataAlign
  let u (n : Nat) : Int := twosComplement 8 n
  let expression : Read Unit := do skip (← uleb128)
  match op / 64 with
  | 1 => pure (.advanceLoc low)
  | 2 => do return .rule low (.offset (factored (u (← uleb128)) da))
  | 3 => pure (.restore low)
  | _ =>
    match op with
    | 0x00 => pure .nop
    | 0x01 => do
      match t.fdeEncoding with
      | some e => do
        let (p, indirect) ← encodedPointer b none e t.addressSize
        if indirect then fault .unsupportedPointerEncoding
        pure (.setLoc p)
      | none => .setLoc <$> address t.addressSize
    | 0x02 => .advanceLoc <$> u8
    | 0x03 => .advanceLoc <$> u16
    | 0x04 => .advanceLoc <$> u32
    | 0x05 => do
      let r ← register16
      return .rule r (.offset (factored (u (← uleb128)) da))
    | 0x06 => .restore <$> register16
    | 0x07 => do return .rule (← register16) .undefined
    | 0x08 => do return .rule (← register16) .sameValue
    | 0x09 => do
      let d ← register16
      return .rule d (.register (← register16))
    | 0x0a => pure .remember
    | 0x0b => pure .restoreState
    | 0x0c => do
      let r ← register16
      return .defCfa r (u (← uleb128))
    | 0x0d => .defCfaRegister <$> register16
    | 0x0e => do return .defCfaOffset (u (← uleb128))
    | 0x0f => do expression; pure .defCfaExpression
    | 0x10 => do
      let r ← register16
      expression
      pure (.rule r .expression)
    | 0x11 => do
      let r ← register16
      return .rule r (.offset (factored (← sleb128) da))
    | 0x12 => do
      let r ← register16
      return .defCfa r (factored (← sleb128) da)
    | 0x13 => do return .defCfaOffset (factored (← sleb128) da)
    | 0x14 => do
      let r ← register16
      return .rule r (.valOffset (factored (u (← uleb128)) da))
    | 0x15 => do
      let r ← register16
      return .rule r (.valOffset (factored (← sleb128) da))
    | 0x16 => do
      let r ← register16
      expression
      pure (.rule r .valExpression)
    | 0x2e => do discard uleb128; pure .nop
    | 0x2f => do
      let r ← register16
      let n := u (← uleb128)
      return .rule r (.offset (factored (twosComplement 8 ((-n) % UInt64.size).toNat) da))
    | _ => fault .unknownCallFrameInstruction

/-- Apply one instruction; the flag says whether it closes the current row. -/
def Table.evaluate (t : Table) (c : UnwindContext) : CfaOp → Except Fault (Bool × Table × UnwindContext)
  | .setLoc a =>
    if a < c.row.start then .error .invalidAddressRange
    else .ok (true, { t with nextStart := a }, c)
  | .advanceLoc delta => do
    let next ← addSized c.row.start (delta * t.codeAlign % UInt64.size) t.addressSize
    pure (true, { t with nextStart := next }, c)
  | .defCfa reg off => .ok (false, t, c.modifyRow fun r => { r with cfa := .regOffset reg off })
  | .defCfaRegister reg =>
    match c.row.cfa with
    | .regOffset _ off => .ok (false, t, c.modifyRow fun r => { r with cfa := .regOffset reg off })
    | .expression => .error .cfiInstructionInInvalidContext
  | .defCfaOffset off =>
    match c.row.cfa with
    | .regOffset reg _ => .ok (false, t, c.modifyRow fun r => { r with cfa := .regOffset reg off })
    | .expression => .error .cfiInstructionInInvalidContext
  | .defCfaExpression => .ok (false, t, c.modifyRow fun r => { r with cfa := .expression })
  | .rule reg rule => do
    let row ← c.row.setRule reg rule
    pure (false, t, c.modifyRow fun _ => row)
  | .restore reg => do
    let some rule := c.initialRuleFor reg | .error .cfiInstructionInInvalidContext
    let row ← c.row.setRule reg rule
    pure (false, t, c.modifyRow fun _ => row)
  | .remember =>
    if c.stack.size ≥ 4 then .error .stackFull
    else .ok (false, t, { c with stack := c.stack.push c.row })
  | .restoreState =>
    let floor := if c.initialized ∧ c.initialRule.isNone then 2 else 1
    if c.stack.size ≤ floor then .error .popWithEmptyStack
    else
      let start := c.row.start
      .ok (false, t, ({ c with stack := c.stack.pop }).modifyRow fun r => { r with start })
  | .nop => .ok (false, t, c)

/-- Run instructions until one closes a row, or until they run out, which closes the last row
once. Each instruction takes at least one byte. -/
def Table.nextRow (t : Table) (b : Bases) (c : UnwindContext) :
    Except Fault (Option UnwindRow × Table × UnwindContext) :=
  let c := c.modifyRow fun r => { r with start := t.nextStart }
  go (t.input.remaining + 1) t c
where
  go : Nat → Table → UnwindContext → Except Fault (Option UnwindRow × Table × UnwindContext)
    | 0, t, c => .ok (none, t, c)
    | fuel + 1, t, c =>
      if t.input.isEmpty then
        if t.returnedLast then .ok (none, t, c)
        else .ok (some c.row, { t with returnedLast := true }, c)
      else do
        let (op, input) ← (t.instruction b).run t.input
        let t := { t with input }
        let (closes, t, c) ← t.evaluate c op
        if closes then pure (some c.row, t, c) else go fuel t c

/-- All rows of a table, from a context. -/
def Table.rows (t : Table) (b : Bases) : Nat → UnwindContext → Array UnwindRow →
    Except Fault (Array UnwindRow × UnwindContext)
  | 0, c, acc => .ok (acc, c)
  | fuel + 1, c, acc => do
    match ← t.nextRow b c with
    | (none, _, c) => pure (acc, c)
    | (some row, t', c) => t'.rows b fuel c (acc.push row)

/-- The table of a CIE's or FDE's instructions. -/
def Cie.table (cie : Cie) (start : Nat) (input : Cursor) : Table :=
  { codeAlign := cie.codeAlign, dataAlign := cie.dataAlign, addressSize := cie.addressSize,
    fdeEncoding := cie.augmentation.bind (·.fdeEncoding), nextStart := start, input }

/-- Where reading call frame information failed. -/
inductive FrameStage where
  | entry
  | description
  | initialRules
  | row

/-- The rows of one FDE's table, starting from the rules its CIE sets up. -/
def FrameSource.fdeRows (src : FrameSource) (fde : Fde) :
    Except (FrameStage × Fault) (Array UnwindRow) := do
  let cieTable := fde.cie.table 0 fde.cie.instructions
  let fuel (t : Table) := t.input.remaining + 2
  let (_, c) ← (cieTable.rows src.bases (fuel cieTable) { stack := #[.blank] } #[]).mapError (.initialRules, ·)
  let c ← c.saveInitial.mapError (.initialRules, ·)
  let table := fde.cie.table fde.initial fde.instructions
  let (rows, _) ← (table.rows src.bases (fuel table) c #[]).mapError (.row, ·)
  pure rows

/-- Every FDE of a section in order, with its first address and table rows. -/
def FrameSource.frames (src : FrameSource) : Except (FrameStage × Fault) (Array (Nat × Array UnwindRow)) :=
  go (src.data.size + 1) (Cursor.ofSection src.data src.big) #[]
where
  go : Nat → Cursor → Array (Nat × Array UnwindRow) →
      Except (FrameStage × Fault) (Array (Nat × Array UnwindRow))
    | 0, _, acc => .ok acc
    | fuel + 1, c, acc =>
      if c.isEmpty then .ok acc
      else do
        let (entry, c) ← ((frameEntry src (c.remaining + 1)).run c).mapError (.entry, ·)
        match entry with
        | none => pure acc
        | some (.cie _) => go fuel c acc
        | some (.fde cieOffset rest) =>
          let fde ← (src.fde cieOffset rest).mapError (.description, ·)
          let rows ← src.fdeRows fde
          go fuel c (acc.push (fde.initial, rows))

end RemoteDebugger.Dwarf
