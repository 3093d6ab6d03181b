import RemoteDebugger.Wire.Hex

/-!
# Addresses

An absolute address in the debuggee's address space is a 64-bit word. Debug
information describes a module as if it were loaded at zero; the sandbox maps
it at a base chosen at run time, so converting between module-relative offsets
and addresses always goes through that base. Plain `+` and `-` wrap around;
`checkedAdd`, `checkedSub` and `relativeTo` refuse to.
-/

namespace RemoteDebugger

/-- An absolute address in the target. -/
abbrev Address := UInt64

namespace Address

/-- An address as `0x` and sixteen lowercase hex digits. -/
def render (a : Address) : String := "0x" ++ Hex.padded 16 a.toNat

/-- An address as hex digits without padding. -/
def lowerHex (a : Address) : String := Hex.natDigits a.toNat

/-- The offset of `a` from `base`, or `none` for an address below the base. -/
def relativeTo (a base : Address) : Option UInt64 :=
  if base ≤ a then some (a - base) else none

/-- Add an offset, or `none` when the sum passes the top of the address space. -/
def checkedAdd (a : Address) (n : UInt64) : Option Address :=
  if a.toNat + n.toNat < UInt64.size then some (a + n) else none

/-- Subtract an offset, or `none` when the difference falls below zero. -/
def checkedSub (a : Address) (n : UInt64) : Option Address :=
  if n ≤ a then some (a - n) else none

/-- Add a signed displacement, wrapping around. -/
def offset (a : Address) (d : Int) : Address := a + UInt64.ofInt d

end Address

end RemoteDebugger
