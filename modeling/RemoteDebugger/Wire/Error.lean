/-!
# Wire errors

What can go wrong below the level of debugger semantics: the transport broke,
the stub did not answer in time, or a packet arrived damaged. Each failure is
a constructor carrying its cause; `WireError.message` is the one place that
words them.
-/

namespace RemoteDebugger

/-- A failure of the packet transport, by cause. -/
inductive WireError where
  /-- The transport itself failed; the text is the system's description. -/
  | io (detail : String)
  /-- Nothing complete arrived before the deadline; names what was awaited. -/
  | timeout (what : String)
  /-- A packet whose trailing checksum does not match its body. -/
  | checksum (expected actual : UInt8)
  /-- A reply that could not be parsed. -/
  | malformed (detail : String)
  /-- The stub closed the connection. -/
  | disconnected
  /-- The stub answered with an error reply `Exx`. -/
  | remote (code : UInt8)
  /-- The stub rejected a packet this many times. -/
  | nack (count : Nat)
  deriving DecidableEq, Repr

/-- Two lowercase hex digits of a byte. -/
def byteHex (b : UInt8) : String :=
  let digit (n : Nat) : Char := if n < 10 then Char.ofNat (48 + n) else Char.ofNat (87 + n)
  String.ofList [digit (b.toNat / 16), digit (b.toNat % 16)]

/-- The human-readable text of a wire error. -/
def WireError.message : WireError → String
  | .io detail => "Transport I/O error: " ++ detail
  | .timeout what => "Timed out waiting for " ++ what
  | .checksum expected actual =>
    "Packet checksum mismatch: expected 0x" ++ byteHex expected ++ ", computed 0x" ++ byteHex actual
  | .malformed detail => "Malformed packet: " ++ detail
  | .disconnected => "Connection closed by remote stub"
  | .remote code => "Remote stub reported error E" ++ byteHex code
  | .nack count => "Packet rejected " ++ toString count ++ " times by remote stub"

/-- The name of a wire error's kind. -/
def WireError.kind : WireError → String
  | .io _ => "Io"
  | .timeout _ => "Timeout"
  | .checksum _ _ => "Checksum"
  | .malformed _ => "Malformed"
  | .disconnected => "Disconnected"
  | .remote _ => "Remote"
  | .nack _ => "Nack"

end RemoteDebugger
