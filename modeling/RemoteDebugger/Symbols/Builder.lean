import Std.Data.TreeMap
import Std.Data.TreeSet
import RemoteDebugger.Error
import RemoteDebugger.Symbols.Database

/-!
# Building a symbol database

A `DatabaseBuilder` collects debug information in any order, and `build` checks its cross
references in a fixed order and builds the indices of a `SymbolDatabase`.
-/

namespace RemoteDebugger

/-- Debug information collected before indexing. -/
structure DatabaseBuilder where
  entries : Array Entry := #[]
  slots : Std.TreeMap EntryKey Nat compare := ∅
  files : Array SourceFile := #[]
  fileSlots : Std.TreeMap FileKey Nat compare := ∅
  locations : Std.TreeMap UInt64 SourceLocation compare := ∅
  ranges : Array RangeListEntry := #[]
  locLists : Std.TreeMap UInt64 (Array LocListEntry) compare := ∅
  transitions : Std.TreeMap UInt64 (Option EntryKey) compare := ∅
  /-- The rules of each started call frame, in the order they were added. -/
  callFrames : Std.TreeMap UInt64 (Array Rule) compare := ∅
  /-- Rules added to frames that had not been started, with their frame address. -/
  orphans : Array (UInt64 × Rule) := #[]

namespace DatabaseBuilder

/-- Add an entry, replacing one with the same key in its slot. -/
def addEntry (b : DatabaseBuilder) (e : Entry) : DatabaseBuilder :=
  match b.slots[e.key]? with
  | some i => { b with entries := b.entries.set! i e }
  | none => { b with slots := b.slots.insert e.key b.entries.size, entries := b.entries.push e }

/-- Whether an entry with a key was added. -/
def hasEntry (b : DatabaseBuilder) (k : EntryKey) : Bool := b.slots.contains k

/-- Add a source file; the first registration of a key wins. -/
def addFile (b : DatabaseBuilder) (k : FileKey) (name directory : String) : DatabaseBuilder :=
  if b.fileSlots.contains k then b
  else { b with fileSlots := b.fileSlots.insert k b.files.size,
                files := b.files.push (SourceFile.make k name directory) }

/-- Add a line row. An empty row, or one starting where an earlier row starts, is dropped;
the flag says whether the row was kept. -/
def addLocation (b : DatabaseBuilder) (l : SourceLocation) : DatabaseBuilder × Bool :=
  if l.length = 0 ∨ b.locations.contains l.start then (b, false)
  else ({ b with locations := b.locations.insert l.start l }, true)

/-- Add one range of an entry's range list. -/
def addRange (b : DatabaseBuilder) (r : RangeListEntry) : DatabaseBuilder :=
  { b with ranges := b.ranges.push r }

/-- Append an entry to the location list at an offset. -/
def addLocListEntry (b : DatabaseBuilder) (offset : UInt64) (e : LocListEntry) :
    DatabaseBuilder :=
  { b with locLists := b.locLists.insert offset ((b.locLists.getD offset #[]).push e) }

/-- Whether a location list at an offset was added. -/
def hasLocList (b : DatabaseBuilder) (offset : UInt64) : Bool := b.locLists.contains offset

/-- Record the scope that begins at an address, replacing an earlier record there. -/
def addTransition (b : DatabaseBuilder) (a : UInt64) (k : Option EntryKey) : DatabaseBuilder :=
  { b with transitions := b.transitions.insert a k }

/-- The scope transition recorded at an address, if any. -/
def transition (b : DatabaseBuilder) (a : UInt64) : Option (Option EntryKey) := b.transitions[a]?

/-- Start the call frame at an address; starting it again changes nothing. -/
def addCallFrame (b : DatabaseBuilder) (a : UInt64) : DatabaseBuilder :=
  if b.callFrames.contains a then b else { b with callFrames := b.callFrames.insert a #[] }

/-- Add a rule to the call frame at an address. A rule for a frame not yet started is set
aside, and building refuses it. -/
def addRule (b : DatabaseBuilder) (frame : UInt64) (r : Rule) : DatabaseBuilder :=
  match b.callFrames[frame]? with
  | some rules => { b with callFrames := b.callFrames.insert frame (rules.push r) }
  | none => { b with orphans := b.orphans.push (frame, r) }

/-- The refusal of a database. -/
def corrupt (detail : String) : DebugError := .corruptDatabase detail

/-- Check that parents and outer scopes of every entry exist, in entry order. -/
def checkLinks (slots : Std.TreeMap EntryKey Nat compare) : List Entry → Except DebugError Unit
  | [] => .ok ()
  | e :: es => do
    if let some p := e.parent then
      if !slots.contains p then
        throw (corrupt ("entry " ++ e.key.render ++ " has unknown parent " ++ p.render))
    if let some o := e.outerScope then
      if !slots.contains o then
        throw (corrupt ("entry " ++ e.key.render ++ " has unknown outer scope " ++ o.render))
    checkLinks slots es

/-- Follow the outer scope links from one entry until they reach an entry already known to be
on an acyclic chain, or the top; `none` when they come back to the entry or to a link seen on
the way. The links seen are returned. -/
def walkOuter (entries : Array Entry) (slots : Std.TreeMap EntryKey Nat compare)
    (known : Std.TreeSet EntryKey compare) (start : EntryKey) :
    Nat → List EntryKey → Option EntryKey → Option (List EntryKey)
  | 0, path, _ => some path
  | _, path, none => some path
  | n + 1, path, some k =>
    if known.contains k then some path
    else if k = start ∨ k ∈ path then none
    else walkOuter entries slots known start n (path ++ [k])
      ((slots[k]?.bind fun i => entries[i]?).bind (·.outerScope))

/-- Check that no chain of outer scope links comes back on itself. Every entry whose chain was
walked, and every link on it, is remembered as acyclic, so each chain is walked once. -/
def checkCycles (entries : Array Entry) (slots : Std.TreeMap EntryKey Nat compare) :
    Except DebugError Unit :=
  go ∅ entries.toList
where
  go (known : Std.TreeSet EntryKey compare) : List Entry → Except DebugError Unit
    | [] => .ok ()
    | e :: es =>
      match walkOuter entries slots known e.key (entries.size + 1) [] e.outerScope with
      | none => .error (corrupt ("outer scope links of entry " ++ e.key.render ++ " form a cycle"))
      | some path => go ((known.insert e.key).insertMany path) es

/-- The first rule by frame address, then rule address; among equals, the first added. -/
def firstOrphan : List (UInt64 × Rule) → Option (UInt64 × Rule)
  | [] => none
  | o :: os =>
    match firstOrphan os with
    | none => some o
    | some p =>
      if p.1 < o.1 ∨ (p.1 = o.1 ∧ p.2.address < o.2.address) then some p else some o

/-- Stable sort of rules by address. -/
def sortRules (rules : List Rule) : List Rule :=
  rules.mergeSort fun r s => r.address ≤ s.address

/-- Append a value to the array stored under a key. -/
def push {κ α : Type} {cmp : κ → κ → Ordering} (m : Std.TreeMap κ (Array α) cmp) (k : κ) (v : α) :
    Std.TreeMap κ (Array α) cmp :=
  m.insert k ((m.getD k #[]).push v)

/-- Validate the collected data and build the indexed database. -/
def build (b : DatabaseBuilder) : Except DebugError SymbolDatabase := do
  checkLinks b.slots b.entries.toList
  checkCycles b.entries b.slots
  for (a, k) in b.transitions.toList do
    if let some e := k then
      if !b.slots.contains e then
        throw (corrupt ("scope transition at 0x" ++ Hex.natDigits a.toNat ++
          " references unknown entry " ++ e.render))
  if let some (frame, r) := firstOrphan b.orphans.toList then
    throw (corrupt ("rule at 0x" ++ Hex.natDigits r.address.toNat ++ " belongs to call frame 0x" ++
      Hex.natDigits frame.toNat ++ " that was never added"))
  let ranges ← b.ranges.foldlM
    (fun m r =>
      if b.slots.contains r.owner then pure (push m r.owner r)
      else throw (corrupt ("range list entry owned by unknown entry " ++ r.owner.render)))
    (∅ : Std.TreeMap EntryKey (Array RangeListEntry) compare)
  for (a, l) in b.locations.toList do
    if !b.fileSlots.contains l.file then
      throw (corrupt ("line row at 0x" ++ Hex.natDigits a.toNat ++ " references unknown file " ++
        Hex.natDigits l.file.raw.toNat))
  let children := b.entries.foldl (fun m e =>
    match e.parent with
    | some p => push m p e.key
    | none => m) ∅
  let filesByName := b.files.zipIdx.foldl (fun m (f, i) => push m f.basename i) ∅
  let locationsByFile := b.locations.foldl (fun m _ l => push m l.file l) ∅
  let callFrames := b.callFrames.foldl
    (fun m a rules => m.insert a ⟨a, sortRules rules.toList⟩) ∅
  let db : SymbolDatabase :=
    { entries := b.entries, slots := b.slots, children, files := b.files,
      fileSlots := b.fileSlots, filesByName, locations := b.locations, locationsByFile,
      transitions := b.transitions, ranges, locLists := b.locLists, callFrames }
  let byScope := b.locations.foldl (fun m _ l =>
    match db.scopeForAddress l.start with
    | some s => push m s.key l
    | none => m) ∅
  pure { db with locationsByScope := byScope.map fun _ ls =>
    (ls.toList.mergeSort fun x y => x.line < y.line ∨ (x.line = y.line ∧ x.start ≤ y.start)).toArray }

end DatabaseBuilder

end RemoteDebugger
