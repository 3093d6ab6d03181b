/-!
# Checked arithmetic

Sums and products of unsigned 64-bit values, and negations of signed ones,
that stop the computation when the exact result does not fit. Queries that can overflow return `Checked`, so
a caller sees either the value or the fault, never a silently wrapped number.
A fault names the operation and the place in the symbol queries where it
arose, so the program can report where it stopped.
-/

namespace RemoteDebugger

/-- An arithmetic operation whose exact result may not fit in 64 bits. -/
inductive Operation where
  | add
  | multiply
  | negate
  deriving DecidableEq, Repr

/-- The places in the symbol queries where arithmetic is checked. -/
inductive OverflowSite where
  /-- The start of a function's code: a range list entry's base plus its low bound. -/
  | rangeLow
  /-- The end of a function's code: a range list entry's base plus its high bound. -/
  | rangeHigh
  /-- An array's element count: its upper bound plus one. -/
  | arrayBound
  /-- An array's size: its element count times its element's size. -/
  | arraySize
  /-- A line program's backward line advance: the negation of the signed amount. -/
  | lineAdvance
  deriving DecidableEq, Repr

/-- An arithmetic fault: the operation that overflowed and where. -/
structure Overflow where
  operation : Operation
  site : OverflowSite
  deriving DecidableEq, Repr

/-- The words that report an overflow. -/
def Overflow.message (o : Overflow) : String :=
  match o.operation with
  | .add => "attempt to add with overflow"
  | .multiply => "attempt to multiply with overflow"
  | .negate => "attempt to negate with overflow"

/-- A value, or the arithmetic fault that stopped the computation. -/
abbrev Checked (α : Type) := Except Overflow α

namespace Checked

/-- The sum, unless it exceeds `2^64 - 1`. -/
def add (site : OverflowSite) (a b : UInt64) : Checked UInt64 :=
  if a.toNat + b.toNat < UInt64.size then .ok (a + b) else .error ⟨.add, site⟩

/-- The product, unless it exceeds `2^64 - 1`. -/
def mul (site : OverflowSite) (a b : UInt64) : Checked UInt64 :=
  if a.toNat * b.toNat < UInt64.size then .ok (a * b) else .error ⟨.multiply, site⟩

/-- The magnitude of a negative signed 64-bit value, unless it is the least one, whose
negation is `2^63` and does not fit. -/
def negate (site : OverflowSite) (d : Int) : Checked Nat :=
  if d.natAbs * 2 < UInt64.size then .ok d.natAbs else .error ⟨.negate, site⟩

/-- `add` is the exact sum whenever it succeeds. -/
theorem add_ok {site : OverflowSite} {a b c : UInt64} (h : add site a b = .ok c) :
    c.toNat = a.toNat + b.toNat := by
  unfold add at h
  split at h
  · cases h
    rw [UInt64.toNat_add]
    exact Nat.mod_eq_of_lt (by assumption)
  · cases h

end Checked

end RemoteDebugger
