import RemoteDebugger.Symbols.Key
import RemoteDebugger.Decimal.Shortest
import RemoteDebugger.Target.Registers

/-!
# Resolved types and values

A flattened type chain, with its display name, size and kind, and `SymbolType.formatValue`, which
renders target bytes as a value of the type.
-/

namespace RemoteDebugger

/-- The coarse classification of a type. -/
inductive TypeKind where
  | pointer
  | bool
  | char
  | int
  | uint
  | float
  | struct
  | unknown
  deriving DecidableEq, Repr, Inhabited

/-- A type chain flattened into a name, a size and a kind. -/
structure SymbolType where
  /-- The first type entry the symbol refers to; `none` when unresolved. -/
  key : Option EntryKey
  name : String
  size : UInt64
  kind : TypeKind
  deriving DecidableEq, Repr

namespace SymbolType

/-- The unresolved type. -/
def unknown : SymbolType := ⟨none, "unknown", 0, .unknown⟩

/-- Whether the type chain resolved. -/
def isKnown (t : SymbolType) : Bool := t.key.isSome && t.kind != .unknown

/-- The unsigned value of one, two, four or eight little-endian bytes. -/
def unsignedOf (bytes : List UInt8) : Option Nat :=
  if [1, 2, 4, 8].contains bytes.length then some (Registers.leValue bytes) else none

/-- The two's complement value of one, two, four or eight little-endian bytes. -/
def signedOf (bytes : List UInt8) : Option Int :=
  (unsignedOf bytes).map fun v =>
    if v < Nat.pow 2 (8 * bytes.length - 1) then v else (v : Int) - (Nat.pow 2 (8 * bytes.length) : Nat)

/-- Render target bytes as a value of this type: `none` for an unknown kind, for fewer bytes
than the size, or for a size the kind does not have. -/
def formatValue (t : SymbolType) (bytes : List UInt8) : Option String :=
  if t.kind = .unknown ∨ bytes.length < t.size.toNat then none
  else
    let bs := bytes.take t.size.toNat
    match t.kind with
    | .struct => some ("\x7b" ++ t.name ++ "\x7d")
    | .char => bs.head?.map fun b => toString b.toNat
    | .bool => some (if bs.any (· ≠ 0) then "true" else "false")
    | .pointer => (unsignedOf bs).map fun v => "0x" ++ Hex.natDigits v
    | .uint => (unsignedOf bs).map toString
    | .int => (signedOf bs).map toString
    | .float =>
      if bs.length = 4 then
        some (Decimal.Binary.ofBits32 (Registers.leValue bs).toUInt32).render
      else if bs.length = 8 then
        some (Decimal.Binary.ofBits64 (Registers.leValue bs).toUInt64).render
      else none
    | .unknown => none

end SymbolType

end RemoteDebugger
