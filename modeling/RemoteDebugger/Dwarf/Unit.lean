import Std.Data.TreeMap
import RemoteDebugger.Dwarf.Line

/-!
# Compilation units and their entries

The units of `.debug_info`, each a header and a tree of entries written depth first.
`CompUnit.load` opens a unit: its abbreviations, its root entry and what the root says of the
unit's name, directory, base address, tables and line program.
-/

namespace RemoteDebugger.Dwarf

/-- The debug sections of a module, each empty when absent. -/
structure Sections where
  big : Bool
  abbreviations : ByteArray
  addr : ByteArray
  info : ByteArray
  line : ByteArray
  lineStr : ByteArray
  str : ByteArray
  strOffsets : ByteArray
  loc : ByteArray
  loclists : ByteArray
  ranges : ByteArray
  rnglists : ByteArray

/-- One attribute of an abbreviation. -/
structure AttrSpec where
  name : Nat
  form : Nat
  implicit : Option Int

/-- An abbreviation: the tag, whether entries have children, and the attributes they hold. -/
structure Abbreviation where
  code : Nat
  tag : Nat
  hasChildren : Bool
  specs : List AttrSpec

/-- Abbreviations by code. -/
abbrev Abbreviations := Std.TreeMap Nat Abbreviation compare

/-- One attribute specification, or `none` at the terminating pair of zeros. -/
def attrSpec : Read (Option AttrSpec) := do
  let name ← uleb16
  if name = 0 then
    if (← uleb16) = 0 then pure none else fault .expectedZero
  else
    let form ← uleb16
    if form = 0 then fault .attributeFormZero
    let implicit ← if form = 0x21 then some <$> sleb128 else pure none
    pure (some ⟨name, form, implicit⟩)

/-- One abbreviation, or `none` at the terminating zero code. -/
def abbreviation : Read (Option Abbreviation) := do
  let code ← uleb128
  if code = 0 then return none
  let tag ← uleb16
  if tag = 0 then fault .abbreviationTagZero
  let children ← u8
  if children > 1 then fault .badHasChildren
  let specs ← collect attrSpec ((← get).remaining + 1) #[]
  pure (some ⟨code, tag, children = 1, specs.toList⟩)

/-- Read abbreviations until the zero code or the end of the section; a code may be used
once. -/
def abbreviations : Nat → Abbreviations → Read Abbreviations
  | 0, table => pure table
  | fuel + 1, table => do
    if (← get).isEmpty then return table
    match ← abbreviation with
    | none => pure table
    | some a =>
      if table.contains a.code then fault .duplicateAbbreviationCode
      else abbreviations fuel (table.insert a.code a)

/-- The abbreviation table at an offset of `.debug_abbrev`. -/
def Sections.abbreviationsAt (s : Sections) (o : Nat) : Except Fault Abbreviations := do
  let c ← Cursor.at s.abbreviations s.big o
  c.run (Dwarf.abbreviations (c.remaining + 1) ∅)

/-- A unit header: where the unit starts and ends in `.debug_info`, where its entries start,
its encoding and its abbreviation table. -/
structure UnitHeader where
  offset : Nat
  enc : Encoding
  abbrevOffset : Nat
  entries : Nat
  stop : Nat

/-- The size of the header, which is also the unit offset of the first entry. -/
def UnitHeader.headerSize (h : UnitHeader) : Nat := h.entries - h.offset

/-- Whether a unit offset falls among the unit's entries. -/
def UnitHeader.isValidOffset (h : UnitHeader) (o : Nat) : Bool :=
  h.headerSize ≤ o && h.offset + o < h.stop

/-- Parse a unit header at the front of the cursor. -/
def unitHeader : Read UnitHeader := do
  let start := (← get).pos
  let (length, is64) ← initialLength
  let rest ← split length
  match (fields is64 start).run rest with
  | .ok (h, _) => pure h
  | .error e => fault e
where
  fields (is64 : Bool) (start : Nat) : Read UnitHeader := do
    let version ← u16
    let (kind, addressSize, abbrevOffset) ←
      if 2 ≤ version ∧ version ≤ 4 then do
        let a ← offset is64
        let s ← addressSize
        pure (1, s, a)
      else if version = 5 then do
        let k ← u8
        let s ← addressSize
        let a ← offset is64
        pure (k, s, a)
      else fault .unknownVersion
    match kind with
    | 1 | 3 => pure ()
    | 2 | 6 => do discard u64; discard (offset is64)
    | 4 | 5 => discard u64
    | _ => fault .unsupportedUnitType
    let c ← get
    pure ⟨start, ⟨is64, version, addressSize⟩, abbrevOffset, c.pos, c.stop⟩

/-- The headers of the units in order, up to the first that does not parse, with its fault;
every header takes at least four bytes. -/
def unitHeaders (info : ByteArray) (big : Bool) : Array UnitHeader × Option Fault :=
  go (info.size + 1) ⟨info, 0, info.size, big⟩ #[]
where
  go : Nat → Cursor → Array UnitHeader → Array UnitHeader × Option Fault
    | 0, _, acc => (acc, none)
    | fuel + 1, c, acc =>
      if c.isEmpty then (acc, none)
      else match unitHeader.run c with
        | .ok (h, _) => go fuel { c with pos := h.stop } (acc.push h)
        | .error e => (acc, some e)

/-- An opened unit. -/
structure CompUnit where
  header : UnitHeader
  abbrevs : Abbreviations
  name : Option ByteArray := none
  compDir : Option ByteArray := none
  lowPc : Nat := 0
  strOffsetsBase : Nat := 0
  addrBase : Nat := 0
  loclistsBase : Nat := 0
  rnglistsBase : Nat := 0
  line : Option LineHeader := none

/-- An entry: its unit offset, abbreviation and where its attribute values start. -/
structure Die where
  offset : Nat
  layout : Abbreviation
  attrs : Nat

/-- Read an entry at the front of the cursor; `none` for a null entry. -/
def readDie (h : UnitHeader) (abbrevs : Abbreviations) : Read (Option Die) := do
  let start := (← get).pos
  let code ← uleb128
  if code = 0 then return none
  match abbrevs[code]? with
  | some a => return some ⟨start - h.offset, a, (← get).pos⟩
  | none => fault .unknownAbbreviation

/-- A cursor on a unit's data from an absolute position to the unit's end. -/
def UnitHeader.cursorAt (h : UnitHeader) (s : Sections) (pos : Nat) : Cursor :=
  ⟨s.info, pos, h.stop, s.big⟩

/-- Read one attribute of an entry as stored, without giving it its class. -/
def readAttribute (enc : Encoding) (spec : AttrSpec) : Read (Nat × Value) := do
  return (spec.name, ← readValue enc spec.name spec.form spec.implicit)

/-- Skip the attribute values of an entry. -/
def skipAttributes (enc : Encoding) (d : Die) : Read Unit := do
  for spec in d.layout.specs do
    discard (readAttribute enc spec)

/-- The first non-null entry of a unit. -/
def firstDie (h : UnitHeader) (abbrevs : Abbreviations) : Nat → Read Die
  | 0 => fault .missingUnitDie
  | fuel + 1 => do
    if (← get).isEmpty then fault .missingUnitDie
    match ← readDie h abbrevs with
    | some d => pure d
    | none => firstDie h abbrevs fuel

/-- The null-terminated string at an offset of a string section. -/
def stringAt (data : ByteArray) (big : Bool) (o : Nat) : Except Fault ByteArray := do
  (← Cursor.at data big o).run cstring

/-- The string an attribute value names. -/
def Sections.string (s : Sections) (u : CompUnit) : Value → Except Fault ByteArray
  | .string b => .ok b
  | .strRef o => stringAt s.str s.big o
  | .lineStrRef o => stringAt s.lineStr s.big o
  | .strIndex i => do
    let c ← Cursor.at s.strOffsets s.big u.strOffsetsBase
    let o ← c.run (do skip (i * u.header.enc.wordSize); offset u.header.enc.is64)
    stringAt s.str s.big o
  | _ => .error .expectedStringAttributeValue

/-- The address at an index of the unit's address table. -/
def Sections.addressAt (s : Sections) (u : CompUnit) (i : Nat) : Except Fault Nat := do
  let size := u.header.enc.addressSize
  let c ← Cursor.at s.addr s.big u.addrBase
  c.run (do skip (i * size); Dwarf.address size)

/-- Open a unit: parse its abbreviations and read what its root entry says about it. -/
def CompUnit.load (s : Sections) (h : UnitHeader) : Except Fault CompUnit := do
  let abbrevs ← s.abbreviationsAt h.abbrevOffset
  let c := h.cursorAt s h.entries
  let (root, c) ← (firstDie h abbrevs (c.remaining + 1)).run c
  let mut u : CompUnit := { header := h, abbrevs }
  let mut name : Option Value := none
  let mut compDir : Option Value := none
  let mut lowPc : Option Value := none
  let mut stmtList : Option Nat := none
  let mut c := { c with pos := root.attrs }
  for spec in root.layout.specs do
    let ((n, raw), c') ← (readAttribute h.enc spec).run c
    c := c'
    match n, interpret n raw with
    | 0x03, v => name := some v
    | 0x1b, v => compDir := some v
    | 0x11, v => lowPc := some v
    | 0x10, .lineRef o => stmtList := some o
    | 0x72, .strOffsetsBase o => u := { u with strOffsetsBase := o }
    | 0x73, .addrBase o | 0x2133, .addrBase o => u := { u with addrBase := o }
    | 0x8c, .locListsBase o => u := { u with loclistsBase := o }
    | 0x74, .rngListsBase o | 0x2132, .rngListsBase o => u := { u with rnglistsBase := o }
    | _, _ => pure ()
  let resolve (v : Option Value) : Option ByteArray :=
    v.bind fun v => match s.string u v with
      | .ok b => some b
      | .error _ => none
  u := { u with name := resolve name, compDir := resolve compDir }
  if let some o := stmtList then
    let lc ← Cursor.at s.line s.big o
    let (lh, _) ← (LineHeader.parse h.enc.addressSize u.compDir).run lc
    u := { u with line := some lh }
  match lowPc with
  | some (.addr a) => u := { u with lowPc := a }
  | some (.addrIndex i) => u := { u with lowPc := ← s.addressAt u i }
  | _ => pure ()
  pure u

end RemoteDebugger.Dwarf
