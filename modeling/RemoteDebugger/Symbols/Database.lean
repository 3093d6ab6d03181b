import Std.Data.TreeMap
import RemoteDebugger.Symbols.Entry
import RemoteDebugger.Symbols.Records

/-!
# The symbol database

The indexed debug information of one module: entries and files found by key, and line rows,
scope transitions and call frames in ordered maps read by floor lookup.
-/

namespace RemoteDebugger

/-- Indexed, queryable debug information of one module. -/
structure SymbolDatabase where
  /-- Entries in the order they were first added. -/
  entries : Array Entry := #[]
  /-- The position of each entry in `entries`. -/
  slots : Std.TreeMap EntryKey Nat compare := ∅
  /-- The children of each entry, in entry order. -/
  children : Std.TreeMap EntryKey (Array EntryKey) compare := ∅
  /-- Files in the order they were first added. -/
  files : Array SourceFile := #[]
  /-- The position of each file in `files`. -/
  fileSlots : Std.TreeMap FileKey Nat compare := ∅
  /-- The positions of the files with each base name, in file order. -/
  filesByName : Std.TreeMap String (Array Nat) compare := ∅
  /-- Line rows by start address. -/
  locations : Std.TreeMap UInt64 SourceLocation compare := ∅
  /-- Line rows of each file, in address order. -/
  locationsByFile : Std.TreeMap FileKey (Array SourceLocation) compare := ∅
  /-- Line rows by the scope in force at their start, sorted by line, then address. -/
  locationsByScope : Std.TreeMap EntryKey (Array SourceLocation) compare := ∅
  /-- The scope that begins at each address; `none` ends every scope. -/
  transitions : Std.TreeMap UInt64 (Option EntryKey) compare := ∅
  /-- The range list of each owner, in the order the ranges were added. -/
  ranges : Std.TreeMap EntryKey (Array RangeListEntry) compare := ∅
  /-- Location lists by offset. -/
  locLists : Std.TreeMap UInt64 (Array LocListEntry) compare := ∅
  /-- Call frames by first address. -/
  callFrames : Std.TreeMap UInt64 CallFrame compare := ∅

namespace SymbolDatabase

/-- The database with no content. -/
def empty : SymbolDatabase := {}

/-- The entry with a key. -/
def entry (db : SymbolDatabase) (k : EntryKey) : Option Entry :=
  db.slots[k]?.bind fun i => db.entries[i]?

/-- The children of an entry, in entry order; none for an unknown key. -/
def childrenOf (db : SymbolDatabase) (k : EntryKey) : List Entry :=
  (db.children.getD k #[]).toList.filterMap db.entry

/-- From an entry outwards through its enclosing scopes, the first entry with a tag, the
entry itself included. Outer scope links are acyclic in an indexed database, so a walk of one
more step than there are entries reaches every scope on the way. -/
def nearestScopeWithTag (db : SymbolDatabase) (k : EntryKey) (tag : Nat) : Option Entry :=
  go (db.entries.size + 1) (db.entry k)
where
  go : Nat → Option Entry → Option Entry
    | 0, _ => none
    | _, none => none
    | n + 1, some e => if e.tag = tag then some e else go n (e.outerScope.bind db.entry)

/-- The scope in force at an address: the one of the last transition at or below it. -/
def scopeForAddress (db : SymbolDatabase) (a : UInt64) : Option Entry :=
  (db.transitions.getEntryLE? a).bind fun (_, k) => k.bind db.entry

/-- The line row with the greatest start at or below an address. It need not cover the
address; callers check `SourceLocation.contains`. -/
def locationForAddress (db : SymbolDatabase) (a : UInt64) : Option SourceLocation :=
  (db.locations.getEntryLE? a).map (·.2)

/-- The first line row that starts after an address. -/
def locationAfter (db : SymbolDatabase) (a : UInt64) : Option SourceLocation :=
  (db.locations.getEntryGT? a).map (·.2)

/-- The call frame with the greatest first address at or below an address. -/
def callFrameForAddress (db : SymbolDatabase) (a : UInt64) : Option CallFrame :=
  (db.callFrames.getEntryLE? a).map (·.2)

/-- The range list of an owner, in the order its ranges were added. -/
def rangeList (db : SymbolDatabase) (owner : EntryKey) : List RangeListEntry :=
  (db.ranges.getD owner #[]).toList

/-- The range of an owner's list that covers an address. -/
def rangeForAddress (db : SymbolDatabase) (a : UInt64) (owner : EntryKey) :
    Option RangeListEntry :=
  (db.rangeList owner).find? (·.contains a)

/-- The location list at an offset. -/
def locList (db : SymbolDatabase) (offset : UInt64) : Option (List LocListEntry) :=
  db.locLists[offset]?.map (·.toList)

/-- The file with a key. -/
def file (db : SymbolDatabase) (k : FileKey) : Option SourceFile :=
  db.fileSlots[k]?.bind fun i => db.files[i]?

/-- The files whose base name is exactly `name`, in file order. -/
def filesNamed (db : SymbolDatabase) (name : String) : List SourceFile :=
  (db.filesByName.getD name #[]).toList.filterMap fun i => db.files[i]?

/-- The line rows of a file, in address order. -/
def locationsForFile (db : SymbolDatabase) (k : FileKey) : List SourceLocation :=
  (db.locationsByFile.getD k #[]).toList

/-- The line rows whose first address a scope owns, by line, then address. -/
def locationsInScope (db : SymbolDatabase) (k : EntryKey) : List SourceLocation :=
  (db.locationsByScope.getD k #[]).toList

/-- The smallest line among the rows a scope owns. -/
def firstLineOfScope (db : SymbolDatabase) (k : EntryKey) : Option UInt32 :=
  (db.locationsInScope k).head?.map (·.line)

/-- Every line row, in address order. -/
def rows (db : SymbolDatabase) : List SourceLocation := db.locations.values

/-- Every call frame, in address order. -/
def frames (db : SymbolDatabase) : List CallFrame := db.callFrames.values

/-- The sizes of the database's parts. -/
def stats (db : SymbolDatabase) : DatabaseStats where
  entries := db.entries.size
  files := db.files.size
  locations := db.locations.size
  scopeTransitions := db.transitions.size
  callFrames := db.callFrames.size
  locLists := db.locLists.size
  rangeEntries := db.ranges.foldl (fun n _ rs => n + rs.size) 0

/-- Whether the database has neither entries nor line rows. -/
def isEmpty (db : SymbolDatabase) : Bool := db.entries.isEmpty && db.locations.isEmpty

/-- Record where a file lives now. A path with the same components as the current one leaves
it as it is. -/
def setCurrentPath (db : SymbolDatabase) (k : FileKey) (path : String) : SymbolDatabase :=
  match db.fileSlots[k]? with
  | none => db
  | some i =>
    { db with files := db.files.modify i fun f =>
        if Path.same f.current path then f else { f with current := path } }

end SymbolDatabase

end RemoteDebugger
