import RemoteDebugger.Wire.Error
import RemoteDebugger.Text.Utf8
import RemoteDebugger.Text.Quoted

/-!
# Hex text

Numbers in packets (`m1000,4`) are big-endian hex text; binary blobs (memory,
register files) are two hex digits per byte in memory order, high half first.
Writing always uses lowercase digits; reading accepts either case.
-/

namespace RemoteDebugger.Hex

/-- The value of one hex digit of either case. -/
def nibble (d : UInt8) : Option UInt8 :=
  if 0x30 ≤ d ∧ d ≤ 0x39 then some (d - 0x30)
  else if 0x61 ≤ d ∧ d ≤ 0x66 then some (d - 0x61 + 10)
  else if 0x41 ≤ d ∧ d ≤ 0x46 then some (d - 0x41 + 10)
  else none

/-- The lowercase digit for a value below sixteen. -/
def digit (n : UInt8) : UInt8 :=
  if n < 10 then 0x30 + n else 0x61 + (n - 10)

/-- The two digits of one byte, high half first. -/
def pair (b : UInt8) : List UInt8 := [digit (b >>> 4), digit (b &&& 0x0F)]

/-- The digits of a byte string. -/
def digits (bytes : List UInt8) : List UInt8 := bytes.flatMap pair

/-- The hex text of a byte string. -/
def encode (bytes : List UInt8) : String :=
  String.ofList ((digits bytes).map fun d => Char.ofNat d.toNat)

/-- Decoding pairs of digits; the first pair that is not two digits is returned as the fault. -/
def decodePairs : List UInt8 → Except (List UInt8) (List UInt8)
  | hi :: lo :: rest =>
    match nibble hi, nibble lo with
    | some h, some l => (decodePairs rest).map (((h <<< 4) ||| l) :: ·)
    | _, _ => .error [hi, lo]
  | _ => .ok []

/-- Read hex text into bytes. An odd number of digits is refused before any digit is looked
at; otherwise the first pair that is not two hex digits is named. -/
def decode (text : List UInt8) : Except WireError (List UInt8) :=
  if text.length % 2 ≠ 0 then
    .error (.malformed ("odd number of hex digits (" ++ toString text.length ++ ")"))
  else
    match decodePairs text with
    | .ok bytes => .ok bytes
    | .error bad => .error (.malformed ("invalid hex digits " ++ Quoted.quote (Utf8.toText bad)))

/-- The big-endian value of hex digits, or `none` at the first non-digit. -/
def value (text : List UInt8) : Option UInt64 :=
  text.foldlM (fun acc d => (nibble d).map fun n => (acc <<< 4) ||| n.toUInt64) 0

/-- Read a big-endian hex number of one to sixteen digits. -/
def parseU64 (text : List UInt8) : Except WireError UInt64 :=
  let bad := WireError.malformed ("invalid hex number " ++ Quoted.quote (Utf8.toText text))
  if text.isEmpty ∨ text.length > 16 then .error bad
  else match value text with
    | some v => .ok v
    | none => .error bad

/-- Lowercase hex digits of a number without leading zeros (`0` for zero). -/
def natDigits (n : Nat) : String := String.ofList (Quoted.hexDigits n)

/-- A number as hex digits, left-padded with zeros to `width`. -/
def padded (width : Nat) (n : Nat) : String :=
  let s := Quoted.hexDigits n
  String.ofList (List.replicate (width - s.length) '0' ++ s)

end RemoteDebugger.Hex
