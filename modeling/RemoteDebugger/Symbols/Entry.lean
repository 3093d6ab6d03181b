import RemoteDebugger.Symbols.Key
import RemoteDebugger.Dwarf.Constants

/-!
# Debug information entries

One node of the debug information tree: its key, its parent, its tag, the
nearest enclosing entry that opens a lexical scope, and its attributes in the
order they were first set. Setting an attribute that is already present
replaces its value in place.
-/

namespace RemoteDebugger

/-- The value of an attribute. -/
inductive AttributeValue where
  /-- Addresses, sizes, encodings, line numbers. -/
  | unsigned (v : UInt64)
  /-- Signed constants. -/
  | signed (v : Int)
  | string (s : String)
  /-- Location expressions and other blocks. -/
  | bytes (b : List UInt8)
  /-- A reference to another entry. -/
  | reference (k : EntryKey)
  /-- The offset of a location list. -/
  | locationList (offset : UInt64)
  | flag (b : Bool)
  deriving DecidableEq, Repr

namespace AttributeValue

/-- The unsigned view; a signed constant that is not negative converts too. -/
def asUnsigned : AttributeValue → Option UInt64
  | .unsigned v => some v
  | .signed v => if 0 ≤ v then some (UInt64.ofInt v) else none
  | _ => none

/-- The signed view; an unsigned value below `2^63` converts too. -/
def asSigned : AttributeValue → Option Int
  | .signed v => some v
  | .unsigned v => if v.toNat < Nat.pow 2 63 then some v.toNat else none
  | _ => none

/-- The text of a string value. -/
def asString : AttributeValue → Option String
  | .string s => some s
  | _ => none

/-- The entry a reference names. -/
def asReference : AttributeValue → Option EntryKey
  | .reference k => some k
  | _ => none

end AttributeValue

/-- One node of the debug information tree. -/
structure Entry where
  key : EntryKey
  /-- The parent entry; `none` for the root of a unit. -/
  parent : Option EntryKey
  tag : Nat
  /-- The nearest enclosing entry that opens a lexical scope. -/
  outerScope : Option EntryKey := none
  attributes : List (Nat × AttributeValue) := []
  deriving DecidableEq, Repr

/-- Tags whose entries open a lexical scope. -/
def isScopeTag (tag : Nat) : Bool :=
  [Dwarf.tagCompileUnit, Dwarf.tagSubprogram, Dwarf.tagInlinedSubroutine, Dwarf.tagLexicalBlock,
    Dwarf.tagTryBlock, Dwarf.tagCatchBlock].contains tag

namespace Entry

/-- Insert or replace an attribute. -/
def setAttribute (e : Entry) (name : Nat) (v : AttributeValue) : Entry :=
  if e.attributes.any (·.1 == name) then
    { e with attributes := e.attributes.map fun (n, old) => if n == name then (n, v) else (n, old) }
  else { e with attributes := e.attributes ++ [(name, v)] }

/-- The value of an attribute. -/
def attr (e : Entry) (name : Nat) : Option AttributeValue := e.attributes.lookup name

/-- `DW_AT_name` as text. -/
def name (e : Entry) : Option String := (e.attr Dwarf.atName).bind (·.asString)

/-- `DW_AT_low_pc`. -/
def lowPc (e : Entry) : Option UInt64 := (e.attr Dwarf.atLowPc).bind (·.asUnsigned)

/-- `DW_AT_high_pc`, already an address. -/
def highPc (e : Entry) : Option UInt64 := (e.attr Dwarf.atHighPc).bind (·.asUnsigned)

/-- `DW_AT_type`. -/
def typeRef (e : Entry) : Option EntryKey := (e.attr Dwarf.atType).bind (·.asReference)

/-- `DW_AT_byte_size`. -/
def byteSize (e : Entry) : Option UInt64 := (e.attr Dwarf.atByteSize).bind (·.asUnsigned)

/-- Whether the entry opens a lexical scope. -/
def isScope (e : Entry) : Bool := isScopeTag e.tag

/-- Whether the entry is a nested block: lexical, try or catch. -/
def isBlock (e : Entry) : Bool :=
  e.tag == Dwarf.tagLexicalBlock || e.tag == Dwarf.tagTryBlock || e.tag == Dwarf.tagCatchBlock

end Entry

end RemoteDebugger
