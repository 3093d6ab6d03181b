import Std.Data.TreeMap
import RemoteDebugger.Target.Registers

/-!
# Sparse memory

Target memory as a partial map from addresses to bytes. Regions written later
overwrite bytes written earlier, and addresses wrap around the top of the
address space. Reading any byte that was never written fails with a memory
access error whose reason is `unmapped`.
-/

namespace RemoteDebugger

/-- Bytes at the addresses that hold one. -/
abbrev Memory := Std.TreeMap UInt64 UInt8 compare

namespace Memory

/-- Write bytes from an address on, wrapping past the top. -/
def write (m : Memory) (a : Address) (bytes : List UInt8) : Memory :=
  (bytes.zipIdx).foldl (fun m (b, i) => m.insert (a + i.toUInt64) b) m

/-- Memory holding the given regions, later ones winning. -/
def ofRegions (regions : List (Address × List UInt8)) : Memory :=
  regions.foldl (fun m (a, bs) => m.write a bs) ∅

/-- The byte at an address, if mapped. -/
def byte? (m : Memory) (a : Address) : Option UInt8 := m[a]?

/-- The `n` bytes from an address on, if all are mapped. -/
def read? (m : Memory) (a : Address) (n : Nat) : Option (List UInt8) :=
  (List.range n).mapM fun i => m.byte? (a + i.toUInt64)

/-- The `n` bytes from an address on, or an error naming the whole access. -/
def read (m : Memory) (a : Address) (n : Nat) : Except DebugError (List UInt8) :=
  match m.read? a n with
  | some bs => .ok bs
  | none => .error (.memoryAccess a n "unmapped")

/-- A little-endian value of `n` bytes, zero-extended to 64 bits. -/
def readValue (m : Memory) (a : Address) (n : Nat) : Except DebugError UInt64 :=
  (m.read a n).map fun bs => (Registers.leValue bs).toUInt64

end Memory

end RemoteDebugger
