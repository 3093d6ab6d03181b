import RemoteDebugger.Symbols.Type
import RemoteDebugger.Target.Address
import RemoteDebugger.Text.Path

/-!
# Source positions, functions and variables

What the resolver answers with. A `SourcePosition` is a file path and a line
counted from one, as debug information counts them; an `IdePosition` counts
lines from zero, as editors do. `dwarfLine` and `ideLine` convert between the
two, saturating at the ends of the 32-bit range, so converting a position out
and back gives it again whenever its line is at least one.
-/

namespace RemoteDebugger

/-- The debug information line of an editor line. -/
def dwarfLine (ide : UInt32) : UInt32 := if ide = UInt32.ofNat (UInt32.size - 1) then ide else ide + 1

/-- The editor line of a debug information line. -/
def ideLine (line : UInt32) : UInt32 := if line = 0 then 0 else line - 1

/-- A place in a source file; lines count from one. -/
structure SourcePosition where
  path : String
  line : UInt32
  column : UInt32
  deriving DecidableEq, Repr

namespace SourcePosition

/-- The last component of the path, or nothing when it has no name. -/
def fileName (p : SourcePosition) : String := (Path.fileName p.path).getD ""

/-- `path:line`. -/
def render (p : SourcePosition) : String := p.path ++ ":" ++ toString p.line

/-- Whether two positions are on the same line of the same file. -/
def sameLine (p q : SourcePosition) : Bool := p.line == q.line && Path.same p.path q.path

end SourcePosition

/-- A place in a source file as an editor numbers it; lines count from zero. -/
structure IdePosition where
  path : String
  line : UInt32
  column : UInt32 := 0
  deriving DecidableEq, Repr

namespace IdePosition

/-- The same place with lines counted from one. -/
def toSource (p : IdePosition) : SourcePosition := ⟨p.path, dwarfLine p.line, p.column⟩

/-- The editor's view of a source position. -/
def ofSource (p : SourcePosition) : IdePosition := ⟨p.path, ideLine p.line, p.column⟩

/-- `path:line`, with the editor's line. -/
def render (p : IdePosition) : String := p.path ++ ":" ++ toString p.line

end IdePosition

/-- Converting to editor lines and back restores a line of at least one. -/
theorem dwarfLine_ideLine (line : UInt32) (h : line ≠ 0) : dwarfLine (ideLine line) = line := by
  have h' : line.toNat ≠ 0 := fun e => h (UInt32.toNat_inj.mp (by simpa using e))
  have hl : line.toNat < 2 ^ 32 := line.toNat_lt
  unfold dwarfLine ideLine
  simp only [h, if_false]
  have h1 : (1 : UInt32) ≤ line := by rw [UInt32.le_iff_toNat_le]; simp; omega
  have hs : (line - 1).toNat = line.toNat - 1 := by rw [UInt32.toNat_sub_of_le _ _ h1]; simp
  split
  · rename_i h2
    have : (line - 1).toNat = 2 ^ 32 - 1 := by rw [h2]; rfl
    omega
  · apply UInt32.toNat_inj.mp
    rw [UInt32.toNat_add, hs]
    simp
    omega

/-- The function containing an address, by its subprogram entry. -/
structure Function where
  key : Option EntryKey
  name : String
  /-- The process addresses `[low, high)` of its code, when known. -/
  range : Option (UInt64 × UInt64)
  deriving DecidableEq, Repr

namespace Function

/-- The name given to code no subprogram owns. -/
def unknownName : String := "<unknown function>"

/-- The function of code no subprogram owns. -/
def unknown : Function := ⟨none, unknownName, none⟩

/-- Whether no subprogram owns the code. -/
def isUnknown (f : Function) : Bool := f.key.isNone

end Function

/-- Where a variable's value is. -/
inductive SymbolLocation where
  | memory (a : UInt64)
  | register (n : Nat)
  | value (v : UInt64)
  /-- The value cannot be found; the text says why. -/
  | unavailable (why : String)
  deriving DecidableEq, Repr

/-- A variable or parameter visible in a frame. -/
structure Symbol where
  key : EntryKey
  name : String
  location : SymbolLocation
  type : SymbolType
  deriving DecidableEq, Repr

end RemoteDebugger
