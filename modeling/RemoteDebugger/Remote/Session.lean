import RemoteDebugger.Remote.Client
import RemoteDebugger.Remote.Network
import RemoteDebugger.Breakpoint.Store
import RemoteDebugger.Session.Config
import RemoteDebugger.Session.Event
import RemoteDebugger.Symbols.Position

/-!
# Remote sessions

A `RemoteSession` drives one debuggee through a stub: its connection, breakpoint store, running
flag and published events. Operations hold the session whole, except `open` and `close`, which
are two locked sections each.
-/

namespace RemoteDebugger

/-- Where a session is in its lifecycle. -/
inductive SessionState where
  | closed
  | opening
  | opened
  | closing
  deriving DecidableEq, Repr

/-- The state's name. -/
def SessionState.render : SessionState → String
  | .closed => "closed"
  | .opening => "opening"
  | .opened => "open"
  | .closing => "closing"

/-- What the stub told the session while it opened. -/
structure Handshake where
  architecture : Architecture
  /-- The module path the stub reported. -/
  execPath : Option String
  /-- The registers of the current thread. -/
  registers : Registers
  deriving DecidableEq, Repr

/-- A session with one debuggee behind a stub, over transport `τ`. -/
structure RemoteSession (τ : Type) where
  config : SessionConfig
  state : SessionState := .closed
  host : Option (Client τ) := none
  breakpoints : BreakpointStore := {}
  running : Bool := false
  architecture : Option Architecture := none
  lastStop : Option StopEvent := none
  /-- Whether stops of a running target are being collected. -/
  polling : Bool := false
  /-- The events published so far, oldest first. -/
  events : Array SessionEvent := #[]

/-- Session operations; the session's state survives a failure. -/
abbrev SessionM (τ : Type) := EStateM DebugError (RemoteSession τ)

namespace RemoteSession

variable {τ : Type} [Transport τ]

/-- A closed session. -/
def new (config : SessionConfig) : RemoteSession τ := { config }

/-- Announce an event. -/
def publish (e : SessionEvent) : SessionM τ Unit :=
  modify fun s => { s with events := s.events.push e }

/-- Take the events published so far, leaving none. -/
def takeEvents : SessionM τ (List SessionEvent) := do
  let s ← get
  set { s with events := #[] }
  pure s.events.toList

/-- Run a client operation on the connection; without one the session is not connected. -/
def onHost {α : Type} (m : ClientM τ α) : SessionM τ α := fun s =>
  match s.host with
  | none => .error .notConnected s
  | some c =>
    match m.run c with
    | .ok a c => .ok a { s with host := some c }
    | .error e c => .error e { s with host := some c }

/-- Change the breakpoint store, returning what the change reports. -/
def onStore {β : Type} (f : BreakpointStore → BreakpointStore × β) : SessionM τ β := do
  let s ← get
  let (store, b) := f s.breakpoints
  set { s with breakpoints := store }
  pure b

/-- Fail unless the session is open with a connection. -/
def ensureOpen : SessionM τ Unit := do
  let s ← get
  match s.state, s.host with
  | .opened, some _ => pure ()
  | .opened, none => throw .notConnected
  | st, _ => throw (.invalidState "open" st.render)

/-- Fail unless the session is open and the target is not running. -/
def ensureStopped : SessionM τ Unit := do
  ensureOpen
  if (← get).running then throw (.invalidState "stopped" "running")

/-- Whether a stop is the trap signal. -/
def isTrap (s : RemoteSession τ) (stop : StopEvent) : Bool :=
  stop.reason == .signal s.config.trapSignal

/-- The result of an operation as a value, so that a failure can be acted on later. -/
def attempt {α : Type} (m : SessionM τ α) : SessionM τ (Except DebugError α) :=
  tryCatch (.ok <$> m) fun e => pure (.error e)

/-- Restore the saved byte of the breakpoint at an address. -/
def disarm (a : Address) : SessionM τ Unit := do
  match (← get).breakpoints.find? a with
  | none => throw (.noBreakpoint a)
  | some b =>
    if b.state = .armed then
      onHost (Client.writeMemory a [b.savedByte])
      discard <| onStore (·.setState a .suspended)

/-- Write the trap back over a suspended breakpoint at an address. -/
def arm (a : Address) : SessionM τ Unit := do
  if ((← get).breakpoints.find? a).any (·.state == .suspended) then
    onHost (Client.writeMemory a [trapInstruction])
    discard <| onStore (·.setState a .armed)

/-- After a stop, move the program counter back onto the breakpoint whose trap the target just
executed, and count the hit. Only the stop of a continue can have run a trap. Returns the
program counter and the user breakpoint hit. -/
def rewindTrap (stop : StopEvent) (resumed : Bool) : SessionM τ (Address × Option UInt64) := do
  let regs ← onHost (Client.readRegisters none)
  if !resumed || !(← get).isTrap stop then return (regs.pc, none)
  let trap := regs.pc - 1
  if !(← get).breakpoints.isArmedAt trap then return (regs.pc, none)
  onHost (Client.writeRegisters (regs.setPc trap))
  let hit ← onStore (·.recordHit trap)
  pure (trap, (hit.filter (!·.isTemporary)).map (·.id))

/-- Lift and forget every temporary breakpoint; a byte that cannot be restored is left. -/
def removeTemporaries : SessionM τ Unit := do
  for a in (← get).breakpoints.temporaries do
    discard <| attempt (disarm a)
    discard <| onStore (·.removeAt a)

/-- Take in a stop: rewind over a breakpoint trap, count the hit, drop temporary breakpoints,
pass on program output and publish exactly one `stopped` event. -/
def handleStop (stop : StopEvent) (resumed : Bool) : SessionM τ Unit := do
  modify fun s => { s with running := false, lastStop := some stop }
  let (pc, hit) ← if stop.reason.isAlive then do
      let rewound ← attempt (rewindTrap stop resumed)
      removeTemporaries
      match rewound with
      | .ok (pc, hit) => pure (some pc, hit)
      | .error _ => pure (none, none)
    else do
      for a in (← get).breakpoints.temporaries do
        discard <| onStore (·.removeAt a)
      pure (none, none)
  let output ← if (← get).host.isSome then onHost Client.takeOutput else pure []
  for text in output do publish (.output text)
  publish (.stopped stop.reason stop.thread pc hit)

/-- Run the instruction under the armed breakpoint at `pc` once. -/
def stepOverBreakpoint (pc : Address) : SessionM τ StopEvent := do
  disarm pc
  let stepped ← attempt (onHost Client.singleStep)
  let alive := match stepped with
    | .ok stop => stop.reason.isAlive
    | .error _ => true
  if alive then arm pc
  match stepped with
  | .ok stop => pure stop
  | .error e => throw e

/-- Execute one instruction, stepping over a breakpoint at the program counter. -/
def stepInstruction (pc : Address) : SessionM τ StopEvent := do
  if (← get).breakpoints.isArmedAt pc then stepOverBreakpoint pc
  else onHost Client.singleStep

/-- The handshake with the stub at `address`, which `open` runs without holding the session:
connect, then ask for the architecture, the module path and the registers. A timeout of the
connection names the address. -/
def handshake (config : SessionConfig) (net : Network τ) (address : String) :
    Except DebugError (Client τ × Handshake) :=
  match net.dial address with
  | .error .timedOut => .error (.timeout ("connecting to " ++ address))
  | .error e => .error (.wire (.io e.message))
  | .ok t =>
    let client : Client τ := { link := { transport := t }, timeout := config.handshakeTimeoutMs }
    let exchange : ClientM τ Handshake := do
      let architecture ← Client.architecture
      let execPath ← Client.execPath
      let registers ← Client.readRegisters none
      pure { architecture, execPath, registers }
    match exchange.run client with
    | .ok h c => .ok (c, h)
    | .error e _ => .error e

/-- The first locked section of `open`: only a closed session is opened, and it is marked
opening. -/
def beginOpen : SessionM τ Unit := do
  let s ← get
  if s.state ≠ .closed then throw (.invalidState "closed" s.state.render)
  set { s with state := .opening }

/-- The second locked section of `open`: take in the handshake's outcome. The session is then
open over the new connection; a failure closes it, and a timeout of the handshake names the
address. -/
def finishOpen (address : String) :
    Except DebugError (Client τ × Handshake) → SessionM τ Handshake
  | .ok (c, h) => do
    modify fun s =>
      { s with host := some c, architecture := some h.architecture, state := .opened,
               running := false }
    pure h
  | .error e => do
    modify fun s => { s with state := .closed }
    match e with
    | .wire (.timeout what) => throw (.timeout (what ++ " during open handshake with " ++ address))
    | e => throw e

/-- Connect to a stub and run the handshake: architecture, module path, registers. The session
is open afterwards but not yet polling. A failure closes it again. The handshake runs between
two locked sections, without holding the session. -/
def «open» (net : Network τ) (address : String) : SessionM τ Handshake := do
  beginOpen
  finishOpen address (handshake (← get).config net address)

/-- Start collecting the stops of a running target. -/
def startPolling : SessionM τ Unit := do
  ensureOpen
  modify fun s => { s with polling := true }

/-- Ask the stub why the target is stopped and take that in as a stop. -/
def reportCurrentStop : SessionM τ StopEvent := do
  ensureStopped
  let stop ← onHost Client.lastSignal
  handleStop stop false
  pure stop

/-- Install a breakpoint. Where one exists its id comes back, and a user request makes a
temporary one a user one. -/
def addBreakpoint (a : Address) (kind : BreakpointKind) : SessionM τ UInt64 := do
  ensureStopped
  if ((← get).breakpoints.find? a).isSome then
    return ← onStore (·.insert a kind trapInstruction)
  match ← onHost (Client.readMemory a 1) with
  | [] => throw (.memoryAccess a 1 "empty read")
  | saved :: _ =>
    onHost (Client.writeMemory a [trapInstruction])
    onStore (·.insert a kind saved)

/-- Remove the breakpoint at an address, restoring the saved byte. -/
def removeBreakpoint (a : Address) : SessionM τ Unit := do
  ensureStopped
  disarm a
  discard <| onStore (·.removeAt a)

/-- Every breakpoint, in id order. -/
def breakpointList (s : RemoteSession τ) : List Breakpoint := s.breakpoints.list

/-- Whether a source-level step from `start` goes on after its `executed`-th single step, which
stopped with the trap and left the program counter at `pc`: only from a position on the starting
line (columns aside), and only while fewer than the configured number of steps have run. -/
def stepGoesOn (cfg : SessionConfig) (start : Option SourcePosition)
    (position : Address → Option SourcePosition) (executed : Nat) (pc : Address) : Bool :=
  match start with
  | none => false
  | some origin =>
    (position pc).any (·.sameLine origin) && !cfg.maxStepInstructions.any (executed ≥ ·.toNat)

/-- How one round of a source-level step ends: the step ends with a stop, or goes on from a new
program counter. -/
inductive StepRound where
  | ends (stop : StopEvent)
  | goesOn (pc : Address)

/-- One round of a source-level step: the single step from `pc`, the `executed + 1`-th, and, after
the trap, a read of the program counter it left. -/
def stepRound (start : Option SourcePosition) (position : Address → Option SourcePosition)
    (pc : Address) (executed : Nat) : SessionM τ StepRound := do
  let stop ← stepInstruction pc
  let s ← get
  if !s.isTrap stop then return .ends stop
  let pc := (← onHost (Client.readRegisters none)).pc
  if stepGoesOn s.config start position (executed + 1) pc then return .goesOn pc
  else return .ends stop

/-- The rounds of one source-level step, from `pc` with `executed` single steps done. The loop has
no bound of its own: `fuel` is how many rounds it may take after this one, and `none` says it
would go on but has no fuel left. -/
def stepLoop (start : Option SourcePosition) (position : Address → Option SourcePosition)
    (fuel : Nat) (pc : Address) (executed : Nat) : SessionM τ (Option StopEvent) := do
  match ← stepRound start position pc executed with
  | .ends stop => return some stop
  | .goesOn pc =>
    match fuel with
    | 0 => return none
    | fuel + 1 => stepLoop start position fuel pc (executed + 1)

/-- Step one source line: single steps until `position` gives another line than at the start,
or the target stops for anything but the trap. Without a starting position one instruction
runs. Publishes one `stopped` and one `stepFinished` at the end. At most `fuel + 1` single steps
run; a step that needs more fails with `outOfFuel`. -/
def step (thread : Option ThreadId) (position : Address → Option SourcePosition) (fuel : Nat) :
    SessionM τ StopEvent := do
  ensureStopped
  let pc := (← onHost (Client.readRegisters thread)).pc
  let some stop ← stepLoop (position pc) position fuel pc 0
    | throw (.outOfFuel "stepping one source line")
  let stop := { stop with thread := stop.thread <|> thread }
  handleStop stop false
  publish (.stepFinished stop.thread)
  pure stop

/-- Resume the target, first stepping over a breakpoint at the program counter. The stop comes
later, through `poll`. -/
def continueExecution : SessionM τ Unit := do
  ensureStopped
  let pc := (← onHost (Client.readRegisters none)).pc
  if (← get).breakpoints.isArmedAt pc then
    let stop ← stepOverBreakpoint pc
    if !(← get).isTrap stop then
      handleStop stop false
      return
  onHost Client.resume
  modify fun s => { s with running := true }
  publish .continuing

/-- Interrupt a running target; its stop comes through `poll`. -/
def requestBreak : SessionM τ Unit := do
  ensureOpen
  if (← get).running then onHost Client.interrupt

/-- The registers of a thread, or of the current one. -/
def registers (thread : Option ThreadId) : SessionM τ Registers := do
  ensureStopped
  onHost (Client.readRegisters thread)

/-- Put back the saved bytes of armed breakpoints among bytes read at `address`. -/
def unpatch (store : BreakpointStore) (address : Address) (data : List UInt8) : List UInt8 :=
  store.list.foldl (fun data b =>
    match Address.relativeTo b.address address with
    | some off => if b.isArmed ∧ off.toNat < data.length then data.set off.toNat b.savedByte else data
    | none => data) data

/-- Read target memory; bytes under armed breakpoints read as the instructions they replaced. -/
def readMemory (address : Address) (length : Nat) : SessionM τ (List UInt8) := do
  ensureStopped
  let data ← onHost (Client.readMemory address length)
  pure (unpatch (← get).breakpoints address data)

/-- Write target memory. Armed breakpoints in the range stay armed and remember the newly
written byte as their saved byte. -/
def writeMemory (address : Address) (data : List UInt8) : SessionM τ Unit := do
  ensureStopped
  let mut patched := data
  for b in (← get).breakpoints.list do
    if let some off := Address.relativeTo b.address address then
      if off.toNat < data.length ∧ b.isArmed then
        discard <| onStore (·.setSavedByte b.address (data.getD off.toNat 0))
        patched := patched.set off.toNat trapInstruction
  onHost (Client.writeMemory address patched)

/-- The target's threads. -/
def threads : SessionM τ (List ThreadId) := do
  ensureStopped
  onHost Client.threads

/-- Why the target last stopped, straight from the stub. -/
def lastSignal : SessionM τ StopEvent := do
  ensureStopped
  onHost Client.lastSignal

/-- The first locked section of `close`: a session that is closed or closing is left as it is,
and `close` is done; any other is marked closing and stops polling. Returns whether `close`
goes on. -/
def beginClose : SessionM τ Bool := do
  let s ← get
  if s.state = .closed ∨ s.state = .closing then return false
  set { s with state := .closing, polling := false }
  return true

/-- The second locked section of `close`: restore breakpoint bytes as far as possible, forget the
breakpoints and the connection, and publish `closed`. -/
def finishClose : SessionM τ Unit := do
  if !(← get).running then
    for b in (← get).breakpoints.list do
      discard <| attempt (disarm b.address)
  discard <| onStore (·.drain)
  if (← get).host.isSome then
    discard <| attempt (onHost Client.shutdown)
  modify fun s => { s with host := none, running := false, state := .closed }
  publish .closed

/-- Close the session: stop polling, restore breakpoint bytes as far as possible, forget the
breakpoints and the connection, and publish `closed`. Closing a closed session does nothing.
The poller is stopped between two locked sections, without holding the session. -/
def close : SessionM τ Unit := do
  if ← beginClose then finishClose

/-- One round of polling: while the session is open and the target runs, wait up to the reply
timeout for its stop. Program output is passed on; a stub that hung up leaves the session
without a connection. -/
def poll : SessionM τ Unit := do
  let s ← get
  if s.state ≠ .opened ∨ !s.polling ∨ !s.running ∨ s.host.isNone then return
  let polled ← attempt (onHost (Client.pollStop s.config.replyTimeoutMs))
  let output ← onHost Client.takeOutput
  for text in output do publish (.output text)
  match polled with
  | .ok (some stop) => handleStop stop true
  | .ok none => pure ()
  | .error (.wire .disconnected) => modify fun s => { s with running := false, host := none }
  | .error _ => pure ()

end RemoteSession

end RemoteDebugger
