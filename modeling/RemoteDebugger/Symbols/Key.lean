import RemoteDebugger.Wire.Hex

/-!
# Entry and file keys

Offsets of debug information entries are unique only within a compilation
unit, so a key folds the unit's index into its upper half:
`(unit << 32) | offset`. Files of a unit's line table are keyed the same way
by their index.
-/

namespace RemoteDebugger

/-- The key of a debug information entry. -/
structure EntryKey where
  raw : UInt64
  deriving DecidableEq, Hashable, Repr, Ord

/-- The key of a source file of a line table. -/
structure FileKey where
  raw : UInt64
  deriving DecidableEq, Hashable, Repr, Ord

/-- The key of the entry at `offset` in unit `unit`. -/
def EntryKey.ofParts (unit offset : UInt32) : EntryKey :=
  ⟨(unit.toUInt64 <<< 32) ||| offset.toUInt64⟩

/-- The key of file `index` of unit `unit`'s line table. -/
def FileKey.ofParts (unit index : UInt32) : FileKey :=
  ⟨(unit.toUInt64 <<< 32) ||| index.toUInt64⟩

/-- An entry key as its raw value in hex between angle brackets. -/
def EntryKey.render (k : EntryKey) : String := "<" ++ Hex.natDigits k.raw.toNat ++ ">"

instance : LT EntryKey := ⟨fun a b => a.raw < b.raw⟩
instance : DecidableRel (α := EntryKey) (· < ·) := fun a b => inferInstanceAs (Decidable (a.raw < b.raw))

end RemoteDebugger
