/-!
# Reading numbers from bytes

Fixed-width unsigned numbers at an offset of a byte array, in either byte
order. A read that would pass the end of the array gives nothing.
-/

namespace RemoteDebugger.Bytes

/-- The bytes `[offset, offset + n)`, if they are all there. -/
def slice (data : ByteArray) (offset n : Nat) : Option ByteArray :=
  if offset + n ≤ data.size then some (data.extract offset (offset + n)) else none

/-- The unsigned number in `n` bytes at an offset, big-endian when `big`. -/
def uint (data : ByteArray) (big : Bool) (offset n : Nat) : Option Nat :=
  if offset + n ≤ data.size then
    let bytes := (List.range n).map fun i => (data[offset + i]?.getD 0).toNat
    let ordered := if big then bytes else bytes.reverse
    some (ordered.foldl (fun acc b => acc * 256 + b) 0)
  else none

end RemoteDebugger.Bytes
