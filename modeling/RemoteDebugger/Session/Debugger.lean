import RemoteDebugger.Remote.Session
import RemoteDebugger.Symbols.Module
import RemoteDebugger.Breakpoint.Locator
import RemoteDebugger.Unwind.Frames

/-!
# Debugging sessions

A `DebugSession` holds the symbols of one module and one remote session, and translates between
source lines, counted from zero, and addresses.
-/

namespace RemoteDebugger

/-- What a session uses of the machine it runs on: its network and its files. -/
structure Machine (τ : Type) where
  network : Network τ
  files : FileContents

/-- How a session operation can fail. -/
inductive SessionFailure where
  /-- An error the operation reports. -/
  | error (e : DebugError)
  /-- An arithmetic fault, which stops the program. -/
  | fault (o : Overflow)
  deriving DecidableEq, Repr

/-- A breakpoint request after placement and installation: one id per installed address. -/
structure Binding where
  resolution : Resolution
  ids : List UInt64
  deriving DecidableEq, Repr

/-- One frame of a call stack, innermost first. -/
structure StackFrame where
  /-- Zero for the frame that is executing. -/
  index : Nat
  pc : Address
  sp : Address
  /-- The canonical frame address, when call frame information covers the program counter. -/
  cfa : Option Address
  function : Function
  position : Option SourcePosition
  registers : Registers
  deriving DecidableEq, Repr

/-- Whether a frame is the one executing. -/
def StackFrame.isInnermost (f : StackFrame) : Bool := f.index == 0

/-- A debugging session over one module and one remote target, over transport `τ`. -/
structure DebugSession (τ : Type) where
  config : SessionConfig
  resolver : Resolver
  remote : RemoteSession τ

/-- Debugging session operations; the session's state survives a failure. -/
abbrev DebugM (τ : Type) := EStateM SessionFailure (DebugSession τ)

namespace DebugSession

variable {τ : Type} [Transport τ]

/-- A closed session without symbols. -/
def new (config : SessionConfig) : DebugSession τ :=
  { config, resolver := {}, remote := RemoteSession.new config }

/-- A closed session with symbols already loaded at base zero. They are kept when opening
unless a module path is configured or reported by the stub; only their base changes. -/
def withSymbols (config : SessionConfig) (db : SymbolDatabase) : DebugSession τ :=
  { new config with resolver := Resolver.ofDatabase db 0 }

/-- Run a remote session operation. -/
def onRemote {α : Type} (m : SessionM τ α) : DebugM τ α := fun d =>
  match m.run d.remote with
  | .ok a r => .ok a { d with remote := r }
  | .error e r => .error (.error e) { d with remote := r }

/-- Run an effect on the remote session that cannot fail. -/
def onRemoteState {α : Type} (m : StateM (RemoteSession τ) α) : DebugM τ α := fun d =>
  let (a, r) := m.run d.remote
  .ok a { d with remote := r }

/-- A result that may have stopped on an arithmetic fault. -/
def checked {α : Type} : Checked α → DebugM τ α
  | .ok a => pure a
  | .error o => throw (.fault o)

/-- Target memory as the session reads it. -/
def sessionMemory : ReadBytes (StateM (RemoteSession τ)) := fun a n =>
  ExceptT.mk fun r =>
    match (RemoteSession.readMemory a n).run r with
    | .ok v r => (.ok v, r)
    | .error e r => (.error e, r)

/-- The unwinder over the session's symbols and the target's memory. -/
def unwinder (d : DebugSession τ) : Unwinder (StateM (RemoteSession τ)) :=
  ⟨d.resolver.db, d.resolver.base, sessionMemory⟩

/-- Announce an event. -/
def publish (e : SessionEvent) : DebugM τ Unit := onRemote (RemoteSession.publish e)

/-- The session's lifecycle state. -/
def state (d : DebugSession τ) : SessionState := d.remote.state

/-- Connect to the stub at an address: handshake, module base, symbols, the `moduleLoaded`
and `opened` events, polling, and the target's current stop. A module whose symbols fail to
load does not fail the opening; its event says why. -/
def «open» (machine : Machine τ) (address : String) : DebugM τ Unit := do
  let h ← onRemote (RemoteSession.open machine.network address)
  let base : Address := match h.architecture with
    | .x86_64 => (h.registers.get dwarfR15).getD 0
    | _ => 0
  let d ← get
  let module := d.config.modulePath <|> h.execPath
  match module with
  | some path =>
    let (resolver, status) ← checked (d.resolver.loadModule machine.files path base)
    set { d with resolver }
    publish (.moduleLoaded path status)
  | none =>
    if d.resolver.isLoaded then set { d with resolver := { d.resolver with base } }
    else set { d with resolver := Resolver.ofDatabase .empty base }
  publish (.opened h.architecture module)
  let started ← onRemote (RemoteSession.attempt do
    RemoteSession.startPolling
    discard RemoteSession.reportCurrentStop)
  match started with
  | .ok () => pure ()
  | .error e =>
    onRemote RemoteSession.close
    throw (.error e)

/-- Close the session; closing a closed session does nothing. -/
def close : DebugM τ Unit := onRemote RemoteSession.close

/-- Replace the symbols with those of a module file, keeping the current base. -/
def loadModule (read : FileContents) (path : String) : DebugM τ LoadStatus := do
  let d ← get
  let (resolver, status) ← checked (d.resolver.loadModule read path d.resolver.base)
  set { d with resolver }
  publish (.moduleLoaded path status)
  pure status

/-- Place a breakpoint for a line counted from zero, without touching the target. -/
def resolveBreakpoint (path : String) (line : UInt32) : DebugM τ Resolution := do
  let d ← get
  let (resolver, resolution) := resolveIdeLine d.resolver path line
  set { d with resolver }
  pure resolution

/-- Place and install a breakpoint for a line counted from zero. A request that places nowhere
is not an error: the binding carries the diagnostics and no ids. -/
def setBreakpoint (path : String) (line : UInt32) : DebugM τ Binding := do
  let resolution ← resolveBreakpoint path line
  let ids ← resolution.addresses.mapM fun a => onRemote (RemoteSession.addBreakpoint a .user)
  pure { resolution, ids }

/-- Remove the breakpoints a request for a line counted from zero installed; how many. -/
def clearBreakpoint (path : String) (line : UInt32) : DebugM τ Nat := do
  let installed := (← get).remote.breakpointList.map (·.address)
  let resolution ← resolveBreakpoint path line
  let mut removed := 0
  for a in resolution.addresses do
    if installed.contains a then
      onRemote (RemoteSession.removeBreakpoint a)
      removed := removed + 1
  pure removed

/-- Every breakpoint, in id order. -/
def breakpoints (d : DebugSession τ) : List Breakpoint := d.remote.breakpointList

/-- Step one source line, in at most `fuel + 1` single steps. -/
def step (thread : Option ThreadId) (fuel : Nat) : DebugM τ StopEvent := do
  let r := (← get).resolver
  onRemote (RemoteSession.step thread r.position fuel)

/-- The return address of the frame the registers describe, unless it is zero or cannot be
unwound. -/
def returnAddress (regs : Registers) : DebugM τ (Option Address) := do
  let uw := (← get).unwinder
  match ← onRemoteState (uw.previousFrame regs).run with
  | .ok caller => pure ((caller.map (·.pc)).filter (· ≠ 0))
  | .error _ => pure none

/-- Insert an address into an ascending list without duplicates. -/
def insertAddress (a : Address) : List Address → List Address
  | [] => [a]
  | b :: bs => if a < b then a :: b :: bs else if a = b then b :: bs else b :: insertAddress a bs

/-- Set temporary breakpoints on the targets, in ascending order, skipping those that cannot be
set, and resume. -/
def runTo (targets : List Address) : DebugM τ Unit := do
  for a in targets do
    discard <| onRemote (RemoteSession.attempt (RemoteSession.addBreakpoint a .temporary))
  onRemote RemoteSession.continueExecution

/-- Run to the next line of the current function, or to the caller: temporary breakpoints go on
every line start of the function except those of the current line, and on the return address.
Without any target this is a step, in at most `fuel + 1` single steps. -/
def stepOver (thread : Option ThreadId) (fuel : Nat) : DebugM τ Unit := do
  let regs ← onRemote (RemoteSession.registers thread)
  let pc := regs.pc
  let r := (← get).resolver
  let current := r.position pc
  let inScope ← checked (r.addressesInScope pc)
  let targets := (inScope.filter fun a => a ≠ pc && match current, r.position a with
      | some c, some p => !c.sameLine p
      | _, _ => true).foldl (fun s a => insertAddress a s) []
  let targets := match ← returnAddress regs with
    | some ra => insertAddress ra targets
    | none => targets
  if targets.isEmpty then
    discard (step thread fuel)
  else runTo targets

/-- Run until the current function returns. -/
def stepOut (thread : Option ThreadId) : DebugM τ Unit := do
  let regs ← onRemote (RemoteSession.registers thread)
  match ← returnAddress regs with
  | none => throw (.error (.unsupported ("cannot find the return address of the frame at " ++
      regs.pc.render)))
  | some ra => runTo [ra]

/-- Resume the target. -/
def continueExecution : DebugM τ Unit := onRemote RemoteSession.continueExecution

/-- Interrupt a running target. -/
def requestBreak : DebugM τ Unit := onRemote RemoteSession.requestBreak

/-- The frames of the unwound registers, described: return addresses point after the call, so
outer frames are looked up one byte earlier. -/
def describeFrames (r : Resolver) (uw : Unwinder (StateM (RemoteSession τ))) :
    Nat → List Registers → Checked (List StackFrame)
  | _, [] => pure []
  | index, regs :: rest => do
    let pc := regs.pc
    let lookup := if index = 0 then pc else pc - 1
    let cfa := match uw.cfa regs with
      | .ok c => c
      | .error _ => none
    let function ← r.functionAt lookup
    let frame : StackFrame :=
      { index, pc, sp := regs.sp, cfa, function, position := r.position lookup, registers := regs }
    pure (frame :: (← describeFrames r uw (index + 1) rest))

/-- The call stack of a thread, innermost frame first. Only the innermost frame's registers
must be readable; problems further out end the walk. -/
def callStack (thread : Option ThreadId) : DebugM τ (List StackFrame) := do
  let regs ← onRemote (RemoteSession.registers thread)
  let d ← get
  let uw := d.unwinder
  let frames ← onRemoteState (uw.unwind regs d.config.maxFrames)
  checked (describeFrames d.resolver uw 0 frames)

/-- The variables visible in a frame. -/
def symbolsForFrame (frame : StackFrame) : DebugM τ (List Symbol) := do
  let r := (← get).resolver
  checked (← onRemoteState (r.symbols sessionMemory frame.registers).run)

/-- The current value of a variable for display, when it is in memory and its type is known. -/
def formatSymbol (symbol : Symbol) : DebugM τ (Option String) := do
  let .memory a := symbol.location | pure none
  if symbol.type.size = 0 then return none
  match ← onRemote (RemoteSession.attempt (RemoteSession.readMemory a symbol.type.size.toNat)) with
  | .ok bytes => pure (symbol.type.formatValue bytes)
  | .error _ => pure none

/-- The source position of an address, with its line counted from zero. -/
def positionFromAddress (d : DebugSession τ) (a : Address) : Option IdePosition :=
  (d.resolver.position a).map IdePosition.ofSource

/-- The registers of a thread. -/
def registers (thread : Option ThreadId) : DebugM τ Registers :=
  onRemote (RemoteSession.registers thread)

/-- Read target memory. -/
def readMemory (a : Address) (length : Nat) : DebugM τ (List UInt8) :=
  onRemote (RemoteSession.readMemory a length)

/-- Write target memory. -/
def writeMemory (a : Address) (data : List UInt8) : DebugM τ Unit :=
  onRemote (RemoteSession.writeMemory a data)

/-- The target's threads. -/
def threads : DebugM τ (List ThreadId) := onRemote RemoteSession.threads

/-- Let the background poller run for at most `rounds` rounds, stopping early once `done`
holds; a failed round still counts. -/
def pollUntil (d : DebugSession τ) (done : DebugSession τ → Bool) : Nat → DebugSession τ
  | 0 => d
  | n + 1 =>
    if done d then d
    else
      match (RemoteSession.poll (τ := τ)).run d.remote with
      | .ok _ r | .error _ r => pollUntil { d with remote := r } done n

end DebugSession

end RemoteDebugger
