import RemoteDebugger.Target.Address

/-!
# Breakpoint store

The bookkeeping behind software breakpoints: ids handed out from 1, states, hit counts and the
saved instruction byte, at most one breakpoint per address, kept in id order. Memory is patched
by the session, not here.
-/

namespace RemoteDebugger

/-- The x86 `int3` instruction byte. -/
def trapInstruction : UInt8 := 0xCC

/-- Who owns a breakpoint. -/
inductive BreakpointKind where
  /-- Set by the user; stays until cleared. -/
  | user
  /-- Set for one stepping operation; removed at the next stop. -/
  | temporary
  deriving DecidableEq, Repr

/-- Whether the trap is in memory. -/
inductive BreakpointState where
  | armed
  | suspended
  deriving DecidableEq, Repr

/-- What the store knows about one breakpoint. -/
structure Breakpoint where
  id : UInt64
  address : Address
  kind : BreakpointKind
  state : BreakpointState := .armed
  /-- How many times the target stopped on it. -/
  hitCount : UInt64 := 0
  /-- The instruction byte the trap replaced. -/
  savedByte : UInt8
  deriving DecidableEq, Repr

/-- Whether the trap is written. -/
def Breakpoint.isArmed (b : Breakpoint) : Bool := b.state == .armed

/-- Whether the breakpoint is temporary. -/
def Breakpoint.isTemporary (b : Breakpoint) : Bool := b.kind == .temporary

/-- The breakpoints of a session, in id order. -/
structure BreakpointStore where
  /-- The last id handed out. -/
  lastId : UInt64 := 0
  entries : List Breakpoint := []
  deriving DecidableEq, Repr

namespace BreakpointStore

/-- The breakpoint with an id. -/
def get (s : BreakpointStore) (id : UInt64) : Option Breakpoint := s.entries.find? (·.id == id)

/-- The breakpoint at an address. -/
def find? (s : BreakpointStore) (a : Address) : Option Breakpoint := s.entries.find? (·.address == a)

/-- Whether an armed trap sits at an address. -/
def isArmedAt (s : BreakpointStore) (a : Address) : Bool := (s.find? a).any (·.isArmed)

/-- Change the breakpoint at an address; the changed breakpoint comes back. -/
def modifyAt (s : BreakpointStore) (a : Address) (f : Breakpoint → Breakpoint) :
    BreakpointStore × Option Breakpoint :=
  match s.find? a with
  | none => (s, none)
  | some b => ({ s with entries := s.entries.map fun e => if e.address == a then f e else e },
      some (f b))

/-- Track a newly armed breakpoint and return its id. If one already exists at the address
its id is returned and nothing changes, except that a user request makes a temporary one a
user one. -/
def insert (s : BreakpointStore) (a : Address) (kind : BreakpointKind) (saved : UInt8) :
    BreakpointStore × UInt64 :=
  match s.find? a with
  | some b =>
    if kind = .user then ((s.modifyAt a fun e => { e with kind := .user }).1, b.id) else (s, b.id)
  | none =>
    let id := s.lastId + 1
    ({ lastId := id, entries := s.entries ++ [{ id, address := a, kind, savedByte := saved }] },
      id)

/-- Set the state of the breakpoint at an address. -/
def setState (s : BreakpointStore) (a : Address) (st : BreakpointState) :
    BreakpointStore × Option Breakpoint :=
  s.modifyAt a fun e => { e with state := st }

/-- Replace the byte restored when the breakpoint at an address is lifted. -/
def setSavedByte (s : BreakpointStore) (a : Address) (byte : UInt8) :
    BreakpointStore × Option Breakpoint :=
  s.modifyAt a fun e => { e with savedByte := byte }

/-- Remove the breakpoint with an id, returning it. -/
def remove (s : BreakpointStore) (id : UInt64) : BreakpointStore × Option Breakpoint :=
  match s.get id with
  | none => (s, none)
  | some b => ({ s with entries := s.entries.filter (·.id != id) }, some b)

/-- Remove the breakpoint at an address, returning it. -/
def removeAt (s : BreakpointStore) (a : Address) : BreakpointStore × Option Breakpoint :=
  match s.find? a with
  | none => (s, none)
  | some b => s.remove b.id

/-- Every breakpoint, in id order. -/
def list (s : BreakpointStore) : List Breakpoint := s.entries

/-- Addresses of the temporary breakpoints, in id order. -/
def temporaries (s : BreakpointStore) : List Address :=
  (s.entries.filter (·.isTemporary)).map (·.address)

/-- Record that the target stopped on the trap at an address. Only an armed breakpoint
counts; its count saturates at the top of the word. -/
def recordHit (s : BreakpointStore) (a : Address) : BreakpointStore × Option Breakpoint :=
  match s.find? a with
  | some b =>
    if b.isArmed then
      s.modifyAt a fun e => { e with hitCount := if e.hitCount = UInt64.ofNat (UInt64.size - 1) then e.hitCount else e.hitCount + 1 }
    else (s, none)
  | none => (s, none)

/-- Remove everything, returning what was tracked. -/
def drain (s : BreakpointStore) : BreakpointStore × List Breakpoint :=
  ({ s with entries := [] }, s.entries)

/-- How many breakpoints are tracked. -/
def size (s : BreakpointStore) : Nat := s.entries.length

end BreakpointStore

end RemoteDebugger
