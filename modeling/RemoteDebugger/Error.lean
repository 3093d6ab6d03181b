import RemoteDebugger.Target.Address

/-!
# Debugger errors

Every failure of a debugger operation, by cause: malformed or inconsistent
debug information, an expression that cannot be evaluated, a broken or silent
stub, a session in the wrong state, refused target access, and features that
are not implemented. `DebugError.message` words each one.
-/

namespace RemoteDebugger

/-- A failed debugger operation, by cause. -/
inductive DebugError where
  /-- The module's debug information could not be parsed; names the step and the fault. -/
  | malformedDwarf (detail : String)
  /-- The symbol database refers to data that does not exist. -/
  | corruptDatabase (detail : String)
  /-- A location expression could not be evaluated. -/
  | malformedExpression (detail : String)
  /-- The connection to the stub failed at the packet level. -/
  | wire (cause : WireError)
  /-- The stub did not answer in time. -/
  | timeout (what : String)
  /-- The session is not in the state the operation needs. -/
  | invalidState (expected actual : String)
  /-- The operation needs an open connection. -/
  | notConnected
  /-- Target memory could not be read or written. -/
  | memoryAccess (address : Address) (length : Nat) (reason : String)
  /-- Target registers could not be read or written. -/
  | registerAccess (detail : String)
  /-- No breakpoint is installed at the address. -/
  | noBreakpoint (address : Address)
  /-- The debug information uses a feature that is not implemented. -/
  | unsupported (detail : String)
  /-- An argument is out of its domain. -/
  | invalidArgument (detail : String)
  /-- Reading a file failed; the text is the system's description. -/
  | io (detail : String)
  /-- A loop with no bound of its own used up the fuel its caller gave it; the debugger would
  still be running it. -/
  | outOfFuel (what : String)
  deriving DecidableEq, Repr

/-- The human-readable text of a debugger error. -/
def DebugError.message : DebugError → String
  | .malformedDwarf d => "Malformed DWARF: " ++ d
  | .corruptDatabase d => "Corrupt symbol database: " ++ d
  | .malformedExpression d => "Malformed location expression: " ++ d
  | .wire e => "Remote protocol error: " ++ e.message
  | .timeout what => "Timed out waiting for " ++ what
  | .invalidState e a => "Invalid session state: expected " ++ e ++ ", found " ++ a
  | .notConnected => "Not connected to a remote stub"
  | .memoryAccess a n r =>
    "Memory access failed at " ++ a.render ++ " (" ++ toString n ++ " bytes): " ++ r
  | .registerAccess d => "Register access failed: " ++ d
  | .noBreakpoint a => "No breakpoint at address 0x" ++ a.lowerHex
  | .unsupported d => "Unsupported: " ++ d
  | .invalidArgument d => "Invalid argument: " ++ d
  | .io d => "I/O error: " ++ d
  | .outOfFuel what => "Out of fuel: " ++ what

/-- The name of a debugger error's kind; a wire error's is qualified by its own kind. -/
def DebugError.kind : DebugError → String
  | .malformedDwarf _ => "MalformedDwarf"
  | .corruptDatabase _ => "CorruptDatabase"
  | .malformedExpression _ => "MalformedExpression"
  | .wire e => "Protocol." ++ e.kind
  | .timeout _ => "Timeout"
  | .invalidState _ _ => "InvalidState"
  | .notConnected => "NotConnected"
  | .memoryAccess _ _ _ => "MemoryAccess"
  | .registerAccess _ => "RegisterAccess"
  | .noBreakpoint _ => "NoBreakpoint"
  | .unsupported _ => "Unsupported"
  | .invalidArgument _ => "InvalidArgument"
  | .io _ => "Io"
  | .outOfFuel _ => "OutOfFuel"

end RemoteDebugger
