import Std.Data.TreeSet
import RemoteDebugger.Object.Elf
import RemoteDebugger.Dwarf.Lists
import RemoteDebugger.Dwarf.Frame
import RemoteDebugger.Symbols.Builder
import RemoteDebugger.Text.Utf8
import RemoteDebugger.Text.Path

/-!
# Loading a module's debug information

`loadModule` reads an ELF file and feeds its DWARF entries, ranges, location lists, line tables
and call frame information into a `DatabaseBuilder`, reporting each failure as malformed DWARF.
-/

namespace RemoteDebugger.Loader

open Dwarf

/-- A fault of the debug information, prefixed with the step that met it. -/
def malformed (step : String) (f : Fault) : DebugError := .malformedDwarf (step ++ ": " ++ f.message)

/-- Name the step of a reading result. -/
def during {α : Type} (step : String) : Except Fault α → Except DebugError α
  | .ok a => .ok a
  | .error f => .error (malformed step f)

/-- The debug sections in the order they are read, so that the first unreadable one is the
one reported. -/
def sectionOrder : List String :=
  [".debug_abbrev", ".debug_addr", ".debug_aranges", ".debug_info", ".debug_line",
   ".debug_line_str", ".debug_macinfo", ".debug_macro", ".debug_str", ".debug_str_offsets",
   ".debug_types", ".debug_loc", ".debug_loclists", ".debug_ranges", ".debug_rnglists"]

/-- The contents of a named section, empty when the file has none. -/
def sectionBytes (f : Elf.File) (name : String) : Except DebugError ByteArray :=
  match f.section name with
  | none => .ok ByteArray.empty
  | some s => (f.sectionBytes s).mapError fun e => .malformedDwarf ("failed to read " ++ name ++ ": " ++ e)

/-- Read the debug sections. -/
def readSections (f : Elf.File) : Except DebugError Sections := do
  let mut read : List (String × ByteArray) := []
  for n in sectionOrder do
    read := (n, ← sectionBytes f n) :: read
  let get (n : String) : ByteArray := (read.lookup n).getD ByteArray.empty
  pure { big := f.big, abbreviations := get ".debug_abbrev", addr := get ".debug_addr",
         info := get ".debug_info", line := get ".debug_line", lineStr := get ".debug_line_str",
         str := get ".debug_str", strOffsets := get ".debug_str_offsets", loc := get ".debug_loc",
         loclists := get ".debug_loclists", ranges := get ".debug_ranges",
         rnglists := get ".debug_rnglists" }

/-- Loading stops at a reported error, or at an arithmetic fault that ends the program. -/
abbrev Load := ExceptT Overflow (Except DebugError)

/-- Ingestion: building up the database, or stopping. -/
abbrev LoadM := StateT DatabaseBuilder Load

/-- Fail with a result's error, or go on with its value. -/
def lift {α : Type} (r : Except DebugError α) : LoadM α := monadLift r

/-- Stop at a result's arithmetic fault, or go on with its value. -/
def checked {α : Type} : Checked α → LoadM α
  | .ok a => pure a
  | .error o => throwThe Overflow o

/-- A unit's index as the upper half of its keys; there are at most `2^32` units. -/
def unitId (unit : Nat) : Except DebugError UInt32 :=
  if unit < UInt32.size then .ok unit.toUInt32
  else .error (.malformedDwarf ("too many compilation units (" ++ toString unit ++ ")"))

/-- The key of the entry at a unit offset. -/
def entryKey (unit offset : Nat) : Except DebugError EntryKey :=
  if offset < UInt32.size then (unitId unit).map fun u => EntryKey.ofParts u offset.toUInt32
  else .error (.malformedDwarf ("unit offset 0x" ++ Hex.natDigits offset ++ " out of range"))

/-- What ingesting one unit needs: the sections, every opened unit, and which one this is. -/
structure UnitContext where
  sections : Sections
  units : Array CompUnit
  index : Nat
  unit : CompUnit

/-- The text of a string attribute, with invalid UTF-8 replaced. -/
def UnitContext.string (cx : UnitContext) (v : Value) : Except DebugError String :=
  (during "resolving DWARF string" (cx.sections.string cx.unit v)).map fun b => Utf8.toText b.toList

/-- A scope owns `[low, high)`: it starts at `low`, and at `high` the outer scope resumes
unless a transition is already recorded there. -/
def scopeRange (key : EntryKey) (outer : Option EntryKey) (low high : UInt64) : LoadM Unit :=
  modify fun b =>
    let b := b.addTransition low (some key)
    if (b.transition high).isNone then b.addTransition high outer else b

/-- Add the location list at an offset, unless it was added before. -/
def UnitContext.locList (cx : UnitContext) (o : Nat) : LoadM Unit := do
  let key := o.toUInt64
  if (← get).hasLocList key then return
  let c ← lift (during "reading location list" (cx.sections.listAt cx.unit .locations o))
  let entries ← lift (during "reading location list entry" (cx.sections.listEntries cx.unit .locations c))
  for e in entries do
    modify (·.addLocListEntry key ⟨e.start.toUInt64, e.stop.toUInt64, e.data.toList⟩)

/-- Add the ranges of a `DW_AT_ranges` list of an entry, with their scope transitions. -/
def UnitContext.ranges (cx : UnitContext) (owner : EntryKey) (outer : Option EntryKey)
    (v : Value) : LoadM Unit := do
  let o ← match v with
    | .rangeListsRef o => pure o
    | .rngListsIndex i => lift (during "reading DW_AT_ranges" (cx.sections.listOffset cx.unit .ranges i))
    | _ => return
  let base := cx.unit.lowPc
  let c ← lift (during "reading range list" (cx.sections.listAt cx.unit .ranges o))
  let entries ← lift (during "reading range list entry" (cx.sections.listEntries cx.unit .ranges c))
  for r in entries do
    if r.start < r.stop then
      let base := if r.start ≥ base then base else 0
      modify (·.addRange ⟨owner, base.toUInt64, (r.start - base).toUInt64, (r.stop - base).toUInt64⟩)
      scopeRange owner outer r.start.toUInt64 r.stop.toUInt64

/-- The entry at a `.debug_info` offset: the first unit whose entries contain it. -/
def UnitContext.infoTarget (cx : UnitContext) (o : Nat) : Option (Nat × Nat) :=
  (cx.units.toList.zipIdx.find? fun (u, _) =>
      u.header.offset ≤ o && u.header.isValidOffset (o - u.header.offset)).map
    fun (u, i) => (i, o - u.header.offset)

/-- The stored value of an attribute, or `none` when its form is not kept. -/
def UnitContext.attributeValue (cx : UnitContext) (name : Nat) (v : Value) :
    LoadM (Option AttributeValue) := do
  let unsigned (n : Nat) : Option AttributeValue := some (.unsigned n.toUInt64)
  match v with
  | .addr a => pure (unsigned a)
  | .addrIndex i => return unsigned (← lift (during "resolving address index" (cx.sections.addressAt cx.unit i)))
  | .udata x | .data _ x => pure (unsigned x)
  | .sdata x => pure (some (.signed x))
  | .flag b => pure (some (.flag b))
  | .exprloc b | .block b => pure (some (.bytes b.toList))
  | .unitRef o => return some (.reference (← lift (entryKey cx.index o)))
  | .infoRef o =>
    match cx.infoTarget o with
    | some (i, off) => return some (.reference (← lift (entryKey i off)))
    | none => pure none
  | .string _ | .strRef _ | .strRefSup _ | .lineStrRef _ | .strIndex _ =>
    return some (.string (← lift (cx.string v)))
  | .locListsRef o =>
    if name = atLocation ∨ name = atFrameBase then
      cx.locList o
      pure (some (.locationList o.toUInt64))
    else pure none
  | .locListsIndex i =>
    if name = atLocation ∨ name = atFrameBase then
      let o ← lift (during "reading location list offset"
        (cx.sections.listOffset cx.unit .locations i))
      cx.locList o
      pure (some (.locationList o.toUInt64))
    else pure none
  | other => pure (other.udata?.bind unsigned)

/-- Read one attribute of an entry and keep what it says. `DW_AT_high_pc` given as an address is
stored, and given as an offset it is set aside; a `DW_AT_ranges` list adds its ranges with their
scope transitions; any other value is stored when its form is kept. -/
def UnitContext.attribute (cx : UnitContext) (key : EntryKey) (outer : Option EntryKey)
    (st : Entry × Option Nat × Cursor) (spec : AttrSpec) : LoadM (Entry × Option Nat × Cursor) := do
  let (entry, highPcOffset, c) := st
  let ((name, raw), c) ← lift (during "reading DIE attributes" ((readAttribute cx.unit.header.enc spec).run c))
  if name = atHighPc then
    match interpret name raw with
    | .addr a => pure (entry.setAttribute atHighPc (.unsigned a.toUInt64), highPcOffset, c)
    | .addrIndex i =>
      let a ← lift (during "resolving DW_AT_high_pc" (cx.sections.addressAt cx.unit i))
      pure (entry.setAttribute atHighPc (.unsigned a.toUInt64), highPcOffset, c)
    | _ => pure (entry, raw.udata?, c)
  else if name = atRanges then
    cx.ranges key outer (interpret name raw)
    pure (entry, highPcOffset, c)
  else
    match ← cx.attributeValue name (interpret name raw) with
    | some v => pure (entry.setAttribute name v, highPcOffset, c)
    | none => pure (entry, highPcOffset, c)

/-- A `DW_AT_high_pc` that came as an offset becomes the address that far past `DW_AT_low_pc`. -/
def withHighPcOffset (entry : Entry) : Option Nat → Entry
  | some off =>
    match entry.lowPc with
    | some low => entry.setAttribute atHighPc (.unsigned (low + off.toUInt64))
    | none => entry
  | none => entry

/-- A scope's own `[low_pc, high_pc)`, when it is not empty, as scope transitions. -/
def ownRange (key : EntryKey) (outer : Option EntryKey) (entry : Entry) : LoadM Unit :=
  if entry.isScope then
    match entry.lowPc, entry.highPc with
    | some low, some high => if low < high then scopeRange key outer low high else pure ()
    | _, _ => pure ()
  else pure ()

mutual

/-- Ingest an entry and, through `UnitContext.children`, the entries below it; the cursor
after them comes back. -/
def UnitContext.entry (cx : UnitContext) : Nat → Cursor → Die → Option EntryKey →
    Option EntryKey → LoadM Cursor
  | 0, c, _, _, _ => pure c
  | fuel + 1, c, die, parent, outer => do
    let key ← lift (entryKey cx.index die.offset)
    let first : Entry := { key, parent, tag := die.layout.tag, outerScope := outer }
    let (entry, highPcOffset, c) ←
      die.layout.specs.foldlM (cx.attribute key outer) (first, none, { c with pos := die.attrs })
    let entry := withHighPcOffset entry highPcOffset
    ownRange key outer entry
    modify (·.addEntry entry)
    let inner := if entry.isScope then some key else outer
    if die.layout.hasChildren then cx.children fuel c (some key) inner else pure c

/-- Ingest the children of an entry, up to the null entry that closes them or the end of the
unit. -/
def UnitContext.children (cx : UnitContext) : Nat → Cursor → Option EntryKey →
    Option EntryKey → LoadM Cursor
  | 0, c, _, _ => pure c
  | fuel + 1, c, parent, outer => do
    if c.isEmpty then return c
    let h := cx.unit.header
    let (d, c) ← lift (during "reading DIE children" ((readDie h cx.unit.abbrevs).run c))
    match d with
    | none => pure c
    | some child =>
      let c ← cx.entry fuel c child parent outer
      cx.children fuel c parent outer

end

/-- Ingest a unit's entries, from its root. -/
def UnitContext.entries (cx : UnitContext) : LoadM Unit := do
  let h := cx.unit.header
  let c := h.cursorAt cx.sections h.entries
  let (root, c) ← lift (during "reading DIE tree root" ((readDie h cx.unit.abbrevs).run c))
  match root with
  | none => lift (.error (malformed "reading DIE tree root" .unexpectedNull))
  | some root => discard (cx.entry (c.remaining + 2) c root none none)

/-- Line rows become locations one row late, once the next row's address gives them a length;
a row at the address of the pending one is ignored, so the first row at an address wins. -/
def spanStep (pending : Option SourceLocation) (address : UInt64) (next : Option SourceLocation)
    (endSequence : Bool) : Option SourceLocation × Option SourceLocation :=
  match pending with
  | some l =>
    if address = l.start ∧ !endSequence then (some l, none)
    else (next, if address > l.start then some { l with length := address - l.start } else none)
  | none => (next, none)

/-- The largest 32-bit value a number may take here. -/
def clamp32 (n : Nat) : UInt32 := if n < UInt32.size then n.toUInt32 else UInt32.ofNat (UInt32.size - 1)

/-- Ingest a unit's line table: its files, then its rows. -/
def UnitContext.lineTable (cx : UnitContext) : LoadM Unit := do
  let some h := cx.unit.line | return
  let uid ← lift (unitId cx.index)
  let compDir := (cx.unit.compDir.map fun b => Utf8.toText b.toList).getD ""
  let first := if h.enc.version ≥ 5 then 0 else 1
  let mut known : Std.TreeSet FileKey compare := ∅
  for (file, position) in h.files.toList.zipIdx do
    let name ← lift (cx.string file.path)
    let directory ← match h.directory file.directory with
      | some d => do
        let d ← lift (cx.string d)
        pure (if Path.isAbsolute d || compDir.isEmpty then d else Path.join compDir d)
      | none => pure compDir
    let key := FileKey.ofParts uid (position + first).toUInt32
    modify (·.addFile key name directory)
    known := known.insert key
  let rows ← checked (← lift (during "running line program" h.rows))
  let mut pending : Option SourceLocation := none
  for row in rows do
    let line := clamp32 row.line
    let file := if row.file < UInt32.size then some (FileKey.ofParts uid row.file.toUInt32) else none
    let file := file.filter known.contains
    let next := match file with
      | some f =>
        if !row.endSequence && line ≠ 0 then
          some { start := row.address.toUInt64, length := 0, file := f, line,
                 column := clamp32 row.column }
        else none
      | none => none
    let (p, done) := spanStep pending row.address.toUInt64 next row.endSequence
    pending := p
    if let some l := done then
      modify fun b => (b.addLocation l).1

/-- The rule kind of a CFA rule. -/
def cfaKind : CfaRule → RuleKind
  | .regOffset r o => .valOffset (.dwarf r.toUInt16) o
  | .expression => .valExpression

/-- The rule kind of a register rule. -/
def registerKind : RegRule → RuleKind
  | .undefined => .undefined
  | .sameValue => .sameValue
  | .offset o => .offset .cfa o
  | .valOffset o => .valOffset .cfa o
  | .register r => .register (.dwarf r.toUInt16)
  | .expression => .expression
  | .valExpression => .valExpression

/-- The words for where reading call frame information failed. -/
def stepOf : FrameStage → String
  | .entry => "reading unwind entry"
  | .description => "parsing frame description entry"
  | .initialRules => "evaluating call frame instructions"
  | .row => "evaluating unwind row"

/-- Add the rows of one FDE: each row's CFA rule, its register rules in the order they are
stored, and `SameValue` for each register the row no longer has a rule for. -/
def addFrame (b : DatabaseBuilder) (start : Nat) (rows : Array UnwindRow) : DatabaseBuilder := Id.run do
  let frame := start.toUInt64
  let mut b := b.addCallFrame frame
  let mut previous : List Nat := []
  for row in rows do
    let address := row.start.toUInt64
    b := b.addRule frame ⟨address, .cfa, cfaKind row.cfa⟩
    let current := row.rules.toList.map (·.1)
    for (reg, rule) in row.rules do
      b := b.addRule frame ⟨address, .dwarf reg.toUInt16, registerKind rule⟩
    for reg in (previous.filter fun r => !current.contains r).mergeSort do
      b := b.addRule frame ⟨address, .dwarf reg.toUInt16, .sameValue⟩
    previous := current
  pure b

/-- Where the call frame information comes from: `.debug_frame`, else `.eh_frame` with the
addresses its pointers may be relative to. -/
def frameSource (f : Elf.File) : Except DebugError (Option FrameSource) := do
  let size := if f.is64 then 8 else 4
  if let some s := f.section ".debug_frame" then
    let data ← sectionBytes f ".debug_frame"
    let _ := s
    return some { kind := .debugFrame, data, big := f.big, addressSize := size, bases := {} }
  if let some s := f.section ".eh_frame" then
    let data ← sectionBytes f ".eh_frame"
    let bases : Bases :=
      { frameSection := some s.address, text := (f.section ".text").map (·.address),
        data := (f.section ".got").map (·.address) }
    return some { kind := .ehFrame, data, big := f.big, addressSize := size, bases }
  pure none

/-- Parse an ELF file's debug information into an indexed database. -/
def load (bytes : ByteArray) : Load SymbolDatabase := do
  let file ← monadLift ((Elf.parse bytes).mapError fun e => DebugError.malformedDwarf ("parsing object file: " ++ e))
  let s ← monadLift (readSections file)
  let (headers, trailing) := unitHeaders s.info s.big
  let mut units : Array CompUnit := #[]
  for h in headers do
    units := units.push (← monadLift (during "parsing compilation unit" (CompUnit.load s h)))
  if let some f := trailing then throwThe DebugError (malformed "reading .debug_info unit header" f)
  let mut b : DatabaseBuilder := {}
  for (u, index) in units.toList.zipIdx do
    let cx : UnitContext := ⟨s, units, index, u⟩
    b := (← (do cx.entries; cx.lineTable).run b).2
  if let some src ← monadLift (frameSource file) then
    match src.frames with
    | .ok frames => b := frames.foldl (fun b (start, rows) => addFrame b start rows) b
    | .error (stage, f) => throwThe DebugError (malformed (stepOf stage) f)
  monadLift b.build

/-- Parse an ELF file's debug information into an indexed database: the database, a reported
error, or, inside, the arithmetic fault that ends the program. -/
def loadModule (bytes : ByteArray) : Except DebugError (Checked SymbolDatabase) :=
  (load bytes).run

end RemoteDebugger.Loader
