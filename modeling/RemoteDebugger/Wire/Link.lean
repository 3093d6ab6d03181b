import RemoteDebugger.Wire.Packet
import RemoteDebugger.Wire.Error
import RemoteDebugger.Wire.Transport

/-!
# Acknowledged packet exchange

A `Link` sends packets until the stub answers `+`, at most `maxRetries` more times, and
acknowledges every packet it receives.
-/

namespace RemoteDebugger

/-- A packet connection: the transport, the decoder's state, decoded frames not yet used,
packets received while waiting for an acknowledgement, and the retry budget. -/
structure Link (τ : Type) where
  transport : τ
  decoder : Packet.Decoder := {}
  frames : List Packet.Frame := []
  pending : List (List UInt8) := []
  maxRetries : Nat := 3

/-- Link operations; the link's state survives a failure. -/
abbrev LinkM (τ : Type) := EStateM WireError (Link τ)

namespace Link

variable {τ : Type} [Transport τ]

/-- Write bytes to the transport. -/
def write (bytes : List UInt8) : LinkM τ Unit := do
  let l ← get
  match Transport.write l.transport bytes with
  | .ok t => set { l with transport := t }
  | .error detail => throw (.io detail)

/-- An upper bound on the frames the link can still produce before it writes: each needs at
least one byte. -/
def supply (l : Link τ) : Nat := l.frames.length + Transport.backlog l.transport + 1

/-- The next frame, reading the transport while none is decoded. `expired` says the time to
wait is already up, so nothing is read; `none` means nothing came in time. -/
def nextFrame (expired : Bool) : LinkM τ (Option Packet.Frame) := do
  go ((← get).supply + 1)
where
  go : Nat → LinkM τ (Option Packet.Frame)
    | 0 => pure none
    | fuel + 1 => do
      let l ← get
      match l.frames with
      | f :: fs =>
        set { l with frames := fs }
        pure (some f)
      | [] =>
        if expired then return none
        let (arrival, t) := Transport.read l.transport
        set { l with transport := t }
        match arrival with
        | .closed => throw .disconnected
        | .timedOut => pure none
        | .failed detail => throw (.io detail)
        | .bytes data =>
          let (decoder, frames) := l.decoder.feed data
          set { l with transport := t, decoder, frames }
          go fuel

/-- Wait for the stub's verdict on a packet: `true` for `+`, `false` for `-`. Packets that
arrive meanwhile are acknowledged and kept; corrupt ones are refused. -/
def awaitAck (expired : Bool) : Nat → LinkM τ Bool
  | 0 => throw (.timeout "acknowledgement")
  | fuel + 1 => do
    match ← nextFrame expired with
    | none => throw (.timeout "acknowledgement")
    | some .ack => pure true
    | some .nack => pure false
    | some (.packet p) =>
      write [Packet.ack]
      modify fun l => { l with pending := l.pending ++ [p] }
      awaitAck expired fuel
    | some (.corrupt _ _) =>
      write [Packet.nack]
      awaitAck expired fuel
    | some .interrupt => awaitAck expired fuel

/-- Send a packet until the stub accepts it. -/
def send (payload : List UInt8) : LinkM τ Unit := do
  let packet := Packet.encode payload
  let retries := (← get).maxRetries
  let rec attempt : Nat → LinkM τ Unit
    | 0 => throw (.nack (retries + 1))
    | n + 1 => do
      write packet
      if ← awaitAck false (← get).supply then pure () else attempt n
  attempt (retries + 1)

/-- The next packet: a kept one first, else one read from the transport, acknowledged.
Corrupt packets are refused and stray acknowledgements skipped; `none` when nothing came in
time. -/
def receive (expired : Bool) : LinkM τ (Option (List UInt8)) := do
  let l ← get
  match l.pending with
  | p :: ps =>
    set { l with pending := ps }
    pure (some p)
  | [] => go l.supply
where
  go : Nat → LinkM τ (Option (List UInt8))
    | 0 => pure none
    | fuel + 1 => do
      match ← nextFrame expired with
      | none => pure none
      | some (.packet p) =>
        write [Packet.ack]
        pure (some p)
      | some (.corrupt _ _) =>
        write [Packet.nack]
        go fuel
      | some _ => go fuel

/-- Send a request and wait for its reply. -/
def transact (payload : List UInt8) : LinkM τ (List UInt8) := do
  send payload
  match ← receive false with
  | some reply => pure reply
  | none => throw (.timeout "reply")

/-- Send the out-of-band interrupt byte. -/
def interrupt : LinkM τ Unit := write [Packet.interrupt]

/-- Close the transport. -/
def shutdown : LinkM τ Unit := modify fun l => { l with transport := Transport.shutdown l.transport }

end Link

end RemoteDebugger
