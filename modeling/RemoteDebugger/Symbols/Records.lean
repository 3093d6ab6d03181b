import Std.Data.TreeMap
import RemoteDebugger.Symbols.Key
import RemoteDebugger.Text.Path
import RemoteDebugger.Text.Quoted

/-!
# Records of the symbol database

Source files, line rows, ranges, location lists and call frame rules, at module-relative
addresses.
-/

namespace RemoteDebugger

/-- The last component of a file name, splitting at either kind of slash. -/
def baseName (name : String) : String :=
  ((Path.splitAt '/' name).flatMap (Path.splitAt '\\')).getLastD name

/-- A file named by a line table. -/
structure SourceFile where
  key : FileKey
  /-- The name as written in the line table; it may contain directories. -/
  name : String
  /-- The directory the line table associates with the file. -/
  directory : String
  /-- Where the file lives now: the declared path until a breakpoint request names it. -/
  current : String
  deriving DecidableEq, Repr

namespace SourceFile

/-- The path recorded at compile time: the name resolved against the directory. -/
def declared (f : SourceFile) : String := Path.join f.directory f.name

/-- A new file, whose current path is the declared one. -/
def make (key : FileKey) (name directory : String) : SourceFile :=
  { key, name, directory, current := Path.join directory name }

/-- The last component of the name; files are looked up by it. -/
def basename (f : SourceFile) : String := baseName f.name

end SourceFile

/-- One row of the line table: the code in `[start, start + length)` comes from `file:line`. -/
structure SourceLocation where
  start : UInt64
  length : UInt64
  file : FileKey
  /-- Lines count from one. -/
  line : UInt32
  column : UInt32
  deriving DecidableEq, Repr

namespace SourceLocation

/-- The first address after the row, saturating at the top of the address space. -/
def stop (l : SourceLocation) : UInt64 :=
  if l.start.toNat + l.length.toNat < UInt64.size then l.start + l.length else UInt64.ofNat (UInt64.size - 1)

/-- Whether the row covers an address. -/
def contains (l : SourceLocation) (a : UInt64) : Bool := l.start ≤ a && a < l.stop

end SourceLocation

/-- One `[low, high)` range of an entry's range list, relative to `base`. -/
structure RangeListEntry where
  /-- The entry owning the code. -/
  owner : EntryKey
  base : UInt64
  low : UInt64
  high : UInt64
  deriving DecidableEq, Repr

/-- Whether a range covers an address: the offset from the base lies in `[low, high)`. -/
def RangeListEntry.contains (r : RangeListEntry) (a : UInt64) : Bool :=
  r.base ≤ a && r.low ≤ a - r.base && a - r.base < r.high

/-- A location expression valid for the code in `[start, stop)`. -/
structure LocListEntry where
  start : UInt64
  stop : UInt64
  expression : List UInt8
  deriving DecidableEq, Repr

/-- Whether a location list entry applies at an address. -/
def LocListEntry.contains (e : LocListEntry) (a : UInt64) : Bool := e.start ≤ a && a < e.stop

/-- The register a call frame rule recovers. The canonical frame address comes before every
machine register, so it is always worked out first. -/
inductive RuleRegister where
  | cfa
  | dwarf (n : UInt16)
  deriving DecidableEq, Repr, Ord

/-- How the caller's value of a register is recovered. -/
inductive RuleKind where
  /-- The value is lost; the callee's stays. -/
  | undefined
  /-- The register is not changed by the callee. -/
  | sameValue
  /-- Saved in memory at `base + offset`. -/
  | offset (base : RuleRegister) (offset : Int)
  /-- Saved in another register. -/
  | register (base : RuleRegister)
  /-- The value is `base + offset`; the canonical frame address is described this way. -/
  | valOffset (base : RuleRegister) (offset : Int)
  /-- Saved at an address a DWARF expression computes. -/
  | expression
  /-- The value a DWARF expression computes. -/
  | valExpression
  deriving DecidableEq, Repr

/-- A register as it appears in diagnostics: `Cfa` or `Dwarf(n)`. -/
def RuleRegister.render : RuleRegister → String
  | .cfa => "Cfa"
  | .dwarf n => "Dwarf(" ++ toString n ++ ")"

/-- A rule kind as it appears in diagnostics, fields named. -/
def RuleKind.render : RuleKind → String
  | .undefined => "Undefined"
  | .sameValue => "SameValue"
  | .offset b o => "Offset \x7b base: " ++ b.render ++ ", offset: " ++ toString o ++ " \x7d"
  | .register b => "Register \x7b base: " ++ b.render ++ " \x7d"
  | .valOffset b o => "ValOffset \x7b base: " ++ b.render ++ ", offset: " ++ toString o ++ " \x7d"
  | .expression => "Expression"
  | .valExpression => "ValExpression"

/-- A rule taking effect at `address`. -/
structure Rule where
  address : UInt64
  register : RuleRegister
  kind : RuleKind
  deriving DecidableEq, Repr

/-- The rules in force, one per register, in register order. -/
abbrev RuleSet := Std.TreeMap RuleRegister Rule compare

/-- The call frame information of one function, keyed by its first address. -/
structure CallFrame where
  address : UInt64
  /-- Rules in address order; rules at one address keep the order they were added in. -/
  rules : List Rule
  deriving DecidableEq, Repr

/-- The rules in force at an address: among the leading rules that start at or before it, the
last one for each register wins. -/
def CallFrame.rulesAt (f : CallFrame) (a : UInt64) : RuleSet :=
  (f.rules.takeWhile (·.address ≤ a)).foldl (fun m r => m.insert r.register r) ∅

/-- How much a database holds. -/
structure DatabaseStats where
  entries : Nat
  files : Nat
  locations : Nat
  scopeTransitions : Nat
  callFrames : Nat
  locLists : Nat
  rangeEntries : Nat
  deriving DecidableEq, Repr

end RemoteDebugger
