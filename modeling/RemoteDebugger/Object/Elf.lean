import RemoteDebugger.Object.Bytes
import RemoteDebugger.Object.Inflate
import RemoteDebugger.Object.Zstandard.Frame

/-!
# ELF object files

Enough of an ELF reader to find a module's sections by name and read them, inflating compressed
ones, with an object reader's checks in its order and with its messages.
-/

namespace RemoteDebugger.Elf

/-- One section header. -/
structure Section where
  nameOffset : Nat
  kind : Nat
  flags : Nat
  address : Nat
  offset : Nat
  size : Nat
  link : Nat
  info : Nat
  deriving Repr

/-- A parsed ELF file: its bytes, class and byte order, sections, and the range of the section
name table. -/
structure File where
  data : ByteArray
  is64 : Bool
  big : Bool
  sections : Array Section
  names : Nat × Nat

/-- Section types the reader looks at. -/
def typeSymtab : Nat := 2
def typeStrtab : Nat := 3
def typeRela : Nat := 4
def typeNobits : Nat := 8
def typeRel : Nat := 9
def typeDynsym : Nat := 11
def typeSymtabShndx : Nat := 18
def typeCrel : Nat := 20
/-- The section flag of compressed contents. -/
def flagCompressed : Nat := 0x800

/-- Fail with a message unless a value is there. -/
def need {α : Type} (message : String) : Option α → Except String α
  | some a => .ok a
  | none => .error message

/-- Read one section header at an offset. -/
def readSection (data : ByteArray) (is64 big : Bool) (at_ : Nat) : Option Section := do
  let u (o n : Nat) := Bytes.uint data big (at_ + o) n
  if is64 then
    pure ⟨← u 0 4, ← u 4 4, ← u 8 8, ← u 16 8, ← u 24 8, ← u 32 8, ← u 40 4, ← u 44 4⟩
  else
    pure ⟨← u 0 4, ← u 4 4, ← u 8 4, ← u 12 4, ← u 16 4, ← u 20 4, ← u 24 4, ← u 28 4⟩

/-- The file range of a section's contents; sections without file contents have none. -/
def Section.fileRange (s : Section) : Option (Nat × Nat) :=
  if s.kind = typeNobits then none else some (s.offset, s.size)

/-- The raw contents of a section. -/
def sectionData (data : ByteArray) (s : Section) : Except String ByteArray :=
  match s.fileRange with
  | none => .ok ByteArray.empty
  | some (o, n) => need "Invalid ELF section size or offset" (Bytes.slice data o n)

/-- Check the leading bytes for a known kind of file; the ELF class comes back. -/
def fileKind (data : ByteArray) : Except String Bool := do
  if data.size < 16 then throw "Could not read file magic"
  let b (i : Nat) := (data[i]?.getD 0).toNat
  if b 0 = 0x7f ∧ b 1 = 0x45 ∧ b 2 = 0x4c ∧ b 3 = 0x46 ∧ (b 4 = 1 ∨ b 4 = 2) then
    return b 4 = 2
  if b 0 = 0x4d ∧ b 1 = 0x5a then throw "Unknown MS-DOS file"
  let archive := [0x21, 0x3c, 0x61, 0x72, 0x63, 0x68, 0x3e, 0x0a]
  let thin := [0x21, 0x3c, 0x74, 0x68, 0x69, 0x6e, 0x3e, 0x0a]
  let head := (List.range 8).map b
  if head = archive ∨ head = thin then throw "Unsupported file format"
  throw "Unknown file magic"

/-- Section 0, which holds overflowing counts, when there are section headers. -/
def sectionZero (data : ByteArray) (is64 big : Bool) (shoff shentsize : Nat) :
    Except String (Option Section) := do
  if shoff = 0 then return none
  if shentsize ≠ (if is64 then 64 else 40) then throw "Invalid ELF section header entry size"
  some <$> need "Invalid ELF section header offset or size" (readSection data is64 big shoff)

/-- The first section of a type, with its index. -/
def firstOfType (sections : Array Section) (kind : Nat) : Option (Nat × Section) :=
  (sections.toList.zipIdx.find? (·.1.kind = kind)).map fun (s, i) => (i, s)

/-- Check a symbol table of a type, if there is one; its index comes back (zero if none). -/
def checkSymbols (data : ByteArray) (is64 : Bool) (sections : Array Section) (kind : Nat) :
    Except String Nat := do
  let some (index, s) := firstOfType sections kind | return 0
  let entry := if is64 then 24 else 16
  let bytes ← match sectionData data s with
    | .ok b => pure b
    | .error _ => throw "Invalid ELF symbol table data"
  if bytes.size % entry ≠ 0 then throw "Invalid ELF symbol table data"
  let strings ← need "Invalid ELF section index" sections[s.link]?
  if strings.kind ≠ typeStrtab then throw "Invalid ELF string section type"
  for t in sections do
    if t.kind = typeSymtabShndx ∧ t.link = index then
      match sectionData data t with
      | .ok b => if b.size % 4 ≠ 0 then throw "Invalid ELF symtab_shndx data"
      | .error _ => throw "Invalid ELF symtab_shndx data"
  pure index

/-- Check that relocation sections for the symbol table apply to sections that exist and are not
relocations themselves; sections are visited from the last. -/
def checkRelocations (sections : Array Section) (symbols : Nat) : Except String Unit := do
  let isRel (k : Nat) := k = typeRel ∨ k = typeRela ∨ k = typeCrel
  for s in sections.toList.reverse do
    if isRel s.kind ∧ s.link = symbols ∧ s.info ≠ 0 then
      match sections[s.info]? with
      | none => throw "Invalid ELF sh_info for relocation section"
      | some target => if isRel target.kind then throw "Unsupported ELF sh_info for relocation section"

/-- Parse an ELF file, checking what an object reader checks. -/
def parse (data : ByteArray) : Except String File := do
  let is64 ← fileKind data
  let headerSize := if is64 then 64 else 52
  if data.size < headerSize then throw "Invalid ELF header size or alignment"
  let b (i : Nat) := (data[i]?.getD 0).toNat
  if ¬(b 5 = 1 ∨ b 5 = 2) ∨ b 6 ≠ 1 then throw "Unsupported ELF header"
  let big := b 5 = 2
  let u (o n : Nat) := (Bytes.uint data big o n).getD 0
  let (phoff, shoff) := if is64 then (u 32 8, u 40 8) else (u 28 4, u 32 4)
  let base := if is64 then 54 else 42
  let phentsize := u base 2
  let phnumRaw := u (base + 2) 2
  let shentsize := u (base + 4) 2
  let shnumRaw := u (base + 6) 2
  let shstrndxRaw := u (base + 8) 2
  -- program headers
  if phoff ≠ 0 then
    let phnum ← if phnumRaw < 0xffff then pure phnumRaw else do
      match ← sectionZero data is64 big shoff shentsize with
      | some s0 => pure s0.info
      | none => throw "Missing ELF section headers for e_phnum overflow"
    if phnum ≠ 0 then
      if phentsize ≠ (if is64 then 56 else 32) then throw "Invalid ELF program header entry size"
      if phoff + phnum * phentsize > data.size then throw "Invalid ELF program header size or alignment"
  -- section headers
  let shnum ← if shoff = 0 then pure 0 else if shnumRaw > 0 then pure shnumRaw else do
    match ← sectionZero data is64 big shoff shentsize with
    | some s0 => pure s0.size
    | none => pure 0
  let sections ← if shoff = 0 ∨ shnum = 0 then pure #[] else do
    if shentsize ≠ (if is64 then 64 else 40) then throw "Invalid ELF section header entry size"
    if shoff + shnum * shentsize > data.size then throw "Invalid ELF section header offset/size/alignment"
    pure ((List.range shnum).filterMap fun i => readSection data is64 big (shoff + i * shentsize)).toArray
  let names ← if sections.isEmpty then pure (0, 0) else do
    let index ← if shstrndxRaw ≠ 0xffff then pure shstrndxRaw else do
      match ← sectionZero data is64 big shoff shentsize with
      | some s0 => pure s0.link
      | none => throw "Missing ELF section headers for e_shstrndx overflow"
    let shstrtab ← need "Invalid ELF e_shstrndx" sections[index]?
    match shstrtab.fileRange with
    | some (o, n) =>
      if o + n ≥ UInt64.size then throw "Invalid ELF shstrtab size"
      pure (o, o + n)
    | none => pure (0, 0)
  let symtab ← checkSymbols data is64 sections typeSymtab
  discard <| checkSymbols data is64 sections typeDynsym
  checkRelocations sections symtab
  pure ⟨data, is64, big, sections, names⟩

/-- The name of a section: the text up to a NUL inside the section name table. -/
def File.sectionName (f : File) (s : Section) : Option String := do
  let start := f.names.1 + s.nameOffset
  let stop := f.names.2
  if start > stop ∨ stop > f.data.size then none
  let bytes := (f.data.extract start stop).toList
  let n ← bytes.idxOf? 0
  String.fromUTF8? (ByteArray.mk (bytes.take n).toArray)

/-- The first section with a name. -/
def File.rawSection (f : File) (name : String) : Option Section :=
  f.sections.toList.find? fun s => f.sectionName s = some name

/-- The section with a name, or its GNU-compressed `.zdebug_` twin. -/
def File.section (f : File) (name : String) : Option Section :=
  match f.rawSection name with
  | some s => some s
  | none =>
    if name.startsWith ".debug_" then f.rawSection (".zdebug_" ++ (name.drop 7).toString) else none

/-- Sizes from which room for the inflated contents cannot be found. -/
def allocationLimit : Nat := Nat.pow 2 36

/-- The compression formats of sections. -/
inductive Compression where
  | zlib
  | zstd
  deriving DecidableEq, Repr

/-- Decompress contents that should come to the promised size. -/
def decompress (format : Compression) (compressed : ByteArray) (size : Nat) : Except String ByteArray :=
  if size ≥ allocationLimit then .error "Uncompressed data allocation failed" else
  let (decoded, name) := match format with
    | .zlib => (Inflate.inflate compressed size, "zlib")
    | .zstd => (Zstandard.decompress compressed size, "zstd")
  match decoded with
  | none => .error ("Invalid " ++ name ++ " compressed data")
  | some out =>
    if out.size ≠ size then .error "Uncompressed data size does not match compression header"
    else .ok out

/-- The contents of a section, inflated when compressed. Whatever the section holds, contents
that do not lie within the file are refused with the same words. -/
def File.sectionBytes (f : File) (s : Section) : Except String ByteArray := do
  if s.flags % (2 * flagCompressed) ≥ flagCompressed then
    let (offset, size) ← need "Invalid ELF compressed section type" s.fileRange
    let headerSize := if f.is64 then 24 else 12
    let some kind := Bytes.uint f.data f.big offset 4 | throw "Invalid ELF compressed section offset"
    let some full := Bytes.uint f.data f.big (offset + (if f.is64 then 8 else 4)) (if f.is64 then 8 else 4)
      | throw "Invalid ELF compressed section offset"
    if offset + headerSize > f.data.size then throw "Invalid ELF compressed section offset"
    if size < headerSize then throw "Invalid ELF compressed section size"
    let format ← match kind with
      | 1 => pure Compression.zlib
      | 2 => pure Compression.zstd
      | _ => throw "Unsupported ELF compression type"
    let some compressed := Bytes.slice f.data (offset + headerSize) (size - headerSize)
      | throw "Invalid compressed data size or offset"
    decompress format compressed full
  else if (f.sectionName s).any (·.startsWith ".zdebug_") then
    let (offset, size) ← need "Invalid ELF GNU compressed section type" s.fileRange
    let some magic := Bytes.slice f.data offset 8 | throw "GNU compressed section is too short"
    if magic.toList ≠ [0x5a, 0x4c, 0x49, 0x42, 0, 0, 0, 0] then throw "Invalid GNU compressed section header"
    let some full := Bytes.uint f.data true (offset + 8) 4 | throw "GNU compressed section is too short"
    if size < 12 then throw "GNU compressed section is too short"
    let some compressed := Bytes.slice f.data (offset + 12) (size - 12)
      | throw "Invalid compressed data size or offset"
    decompress .zlib compressed full
  else
    match s.fileRange with
    | none => pure ByteArray.empty
    | some (o, n) => need "Invalid compressed data size or offset" (Bytes.slice f.data o n)

end RemoteDebugger.Elf
