/-!
# Transports

The byte stream a packet connection runs over, with reads bounded by the transport's `backlog`,
and `ByteStream`, whose incoming bytes are given in advance.
-/

namespace RemoteDebugger

/-- What one read from a transport gives. -/
inductive Arrival where
  /-- Bytes that arrived; never empty. -/
  | bytes (data : List UInt8)
  /-- The far end closed the stream. -/
  | closed
  /-- Nothing arrived before the read's deadline. -/
  | timedOut
  /-- The read failed; the system's description of why. -/
  | failed (detail : String)
  deriving DecidableEq, Repr

/-- A byte stream that can carry packets. -/
class Transport (τ : Type) where
  /-- Wait for bytes until the read's deadline. -/
  read : τ → Arrival × τ
  /-- Write bytes, or the system's description of why that failed. -/
  write : τ → List UInt8 → Except String τ
  /-- Close both directions of the stream. -/
  shutdown : τ → τ
  /-- An upper bound on the bytes reads can return before the next write. -/
  backlog : τ → Nat

/-- What it means when a read finds no bytes. -/
inductive EmptyRead where
  /-- The stream has ended: the stub hung up. -/
  | endOfStream
  /-- No data arrived in time. -/
  | noData
  deriving DecidableEq, Repr

/-- A byte stream with its incoming bytes given in advance. A read takes every waiting byte;
when none wait, the read sees the end of the stream or a timeout, as `onEmpty` says. Writes
always succeed and are kept in `written`. -/
structure ByteStream where
  incoming : List UInt8 := []
  onEmpty : EmptyRead := .endOfStream
  written : Array UInt8 := #[]
  deriving Repr

namespace ByteStream

/-- Take every waiting byte. -/
def read (s : ByteStream) : Arrival × ByteStream :=
  match s.incoming with
  | [] =>
    match s.onEmpty with
    | .endOfStream => (.closed, s)
    | .noData => (.timedOut, s)
  | bytes => (.bytes bytes, { s with incoming := [] })

/-- Add bytes to those waiting to be read. -/
def deliver (s : ByteStream) (bytes : List UInt8) : ByteStream :=
  { s with incoming := s.incoming ++ bytes }

/-- Take the bytes written so far, leaving none. -/
def takeWritten (s : ByteStream) : List UInt8 × ByteStream :=
  (s.written.toList, { s with written := #[] })

end ByteStream

instance : Transport ByteStream where
  read := ByteStream.read
  write s bytes := .ok { s with written := s.written ++ bytes.toArray }
  shutdown s := s
  backlog s := s.incoming.length

end RemoteDebugger
