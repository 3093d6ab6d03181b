import RemoteDebugger.Wire.Hex

/-!
# Packet framing

Packets `$body#hh` with escapes and run-length encoding, and the decoder that reads them a byte
or a chunk at a time (`feed_append`).
-/

namespace RemoteDebugger.Packet

/-- Start of a packet. -/
def start : UInt8 := 0x24
/-- End of a packet body; two checksum digits follow. -/
def stop : UInt8 := 0x23
/-- Escape prefix inside a body. -/
def escape : UInt8 := 0x7D
/-- Run-length marker inside a body. -/
def repeatMark : UInt8 := 0x2A
/-- Positive acknowledgement. -/
def ack : UInt8 := 0x2B
/-- Negative acknowledgement: asks the peer to send again. -/
def nack : UInt8 := 0x2D
/-- Out-of-band break request. -/
def interrupt : UInt8 := 0x03

/-- The sum of bytes modulo 256. -/
def checksum (body : List UInt8) : UInt8 := body.foldl (· + ·) 0

/-- Whether a byte must be escaped inside a body. -/
def isReserved (b : UInt8) : Bool := b == start || b == stop || b == escape || b == repeatMark

/-- The body bytes one payload byte is sent as. -/
def escapeByte (b : UInt8) : List UInt8 := if isReserved b then [escape, b ^^^ 0x20] else [b]

/-- The escaped body of a payload. -/
def body (payload : List UInt8) : List UInt8 := payload.flatMap escapeByte

/-- The complete wire form of a payload. -/
def encode (payload : List UInt8) : List UInt8 :=
  start :: body payload ++ stop :: Hex.pair (checksum (body payload))

/-- One unit of traffic on the wire. -/
inductive Frame where
  | ack
  | nack
  | interrupt
  /-- A complete packet with a valid checksum; the payload is unescaped. -/
  | packet (payload : List UInt8)
  /-- A complete packet whose checksum does not match; unreadable digits count as zero. -/
  | corrupt (expected actual : UInt8)
  deriving DecidableEq, Repr

/-- Where the decoder is within the stream. -/
inductive Phase where
  | idle
  | body
  | escape
  | runLength
  | checksumHigh
  | checksumLow (high : UInt8)
  deriving DecidableEq, Repr

/-- A decoder between two bytes: its phase, the running sum of the raw body, and the
payload read so far. -/
structure Decoder where
  phase : Phase := .idle
  sum : UInt8 := 0
  payload : Array UInt8 := #[]
  deriving Repr

/-- Whether the decoder is in the middle of a packet. -/
def Decoder.inPacket (d : Decoder) : Bool := d.phase != .idle

/-- Read one byte; a frame comes out when one completes. Bytes outside a packet that are
not acknowledgements or interrupts are dropped, and a `$` inside a body starts the packet
again. -/
def Decoder.push (d : Decoder) (b : UInt8) : Decoder × Option Frame :=
  match d.phase with
  | .idle =>
    if b == ack then (d, some .ack)
    else if b == nack then (d, some .nack)
    else if b == interrupt then (d, some .interrupt)
    else if b == start then ({ phase := .body }, none)
    else (d, none)
  | .body =>
    if b == stop then ({ d with phase := .checksumHigh }, none)
    else if b == escape then ({ d with phase := .escape, sum := d.sum + b }, none)
    else if b == repeatMark then ({ d with phase := .runLength, sum := d.sum + b }, none)
    else if b == start then ({ phase := .body }, none)
    else ({ d with sum := d.sum + b, payload := d.payload.push b }, none)
  | .escape => ({ phase := .body, sum := d.sum + b, payload := d.payload.push (b ^^^ 0x20) }, none)
  | .runLength =>
    let payload := match d.payload.back? with
      | some last => d.payload ++ Array.replicate (b.toNat - 29) last
      | none => d.payload
    ({ phase := .body, sum := d.sum + b, payload := payload }, none)
  | .checksumHigh => ({ d with phase := .checksumLow ((Hex.nibble b).getD 0) }, none)
  | .checksumLow high =>
    let expected := (high <<< 4) ||| (Hex.nibble b).getD 0
    if expected == d.sum then ({}, some (.packet d.payload.toList))
    else ({}, some (.corrupt expected d.sum))

/-- Read a chunk of bytes, collecting every frame it completes. -/
def Decoder.feed (d : Decoder) : List UInt8 → Decoder × List Frame
  | [] => (d, [])
  | b :: bs =>
    let (d', f) := d.push b
    let (d'', fs) := d'.feed bs
    (d'', f.toList ++ fs)

/-- Feeding two pieces one after the other is feeding their concatenation. -/
theorem Decoder.feed_append (d : Decoder) (xs ys : List UInt8) :
    d.feed (xs ++ ys) =
      (((d.feed xs).1.feed ys).1, (d.feed xs).2 ++ ((d.feed xs).1.feed ys).2) := by
  induction xs generalizing d with
  | nil => simp [Decoder.feed]
  | cons b bs ih => simp [Decoder.feed, ih]

end RemoteDebugger.Packet
