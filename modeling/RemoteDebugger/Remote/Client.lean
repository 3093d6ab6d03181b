import RemoteDebugger.Wire.Link
import RemoteDebugger.Target.Stop
import RemoteDebugger.Target.Registers
import RemoteDebugger.Target.Architecture
import RemoteDebugger.Text.Quoted

/-!
# The remote protocol client

A `Client` turns requests for registers, memory, steps and threads into remote protocol packets
over a `Link`, decodes the replies, and keeps program output until `takeOutput`.
-/

namespace RemoteDebugger

/-- The client side of a stub connection. -/
structure Client (τ : Type) where
  link : Link τ
  /-- How long each request may wait, in milliseconds. -/
  timeout : Nat
  /-- Program output received and not yet taken. -/
  output : Array String := #[]

/-- Client operations; the client's state survives a failure. -/
abbrev ClientM (τ : Type) := EStateM DebugError (Client τ)

/-- The largest memory transfer one packet carries. -/
def maxMemoryChunk : Nat := 0x800

/-- The most requests one exchange of several requests makes. A stub that keeps answering
that there is more to come is cut off there. -/
def requestLimit : Nat := 0x10000

namespace Client

variable {τ : Type} [Transport τ]

/-- Run a link operation; its faults are protocol errors. -/
def onLink {α : Type} (m : LinkM τ α) : ClientM τ α := fun c =>
  match m c.link with
  | .ok a l => .ok a { c with link := l }
  | .error e l => .error (.wire e) { c with link := l }

/-- The stub's error code of an `Exx` reply. -/
def errorCode : List UInt8 → Option UInt8
  | [0x45, h, l] => do
    let h ← Hex.nibble h
    let l ← Hex.nibble l
    pure (h * 16 + l)
  | _ => none

/-- The complaint about a reply that does not fit its request. -/
def unexpected (request reply : List UInt8) : DebugError :=
  .wire (.malformed ("unexpected reply " ++ Quoted.quote (Utf8.toText reply) ++ " to " ++
    Quoted.quote (Utf8.toText request)))

/-- Send a request and return its reply; `Exx` is the stub's error. -/
def transact (request : List UInt8) : ClientM τ (List UInt8) := do
  let reply ← onLink (Link.transact request)
  match errorCode reply with
  | some code => throw (.wire (.remote code))
  | none => pure reply

/-- Send a request that must be answered `OK`. -/
def expectOk (request : List UInt8) : ClientM τ Unit := do
  let reply ← transact request
  if reply ≠ [0x4f, 0x4b] then throw (unexpected request reply)

/-- The bytes of a request written as text. -/
def text (s : String) : List UInt8 := s.toUTF8.toList

/-- An upper bound on the replies still to come: each needs at least one byte. -/
def supply (c : Client τ) : Nat := c.link.pending.length + c.link.supply

/-- The target description document, read in pieces with `qXfer:features:read`; empty when
the stub does not support it. -/
def targetDescription : ClientM τ String := do
  go requestLimit #[]
where
  go : Nat → Array UInt8 → ClientM τ String
    | 0, doc => pure (Utf8.toText doc.toList)
    | fuel + 1, doc => do
      let request := text ("qXfer:features:read:target.xml:" ++ Hex.natDigits doc.size ++ ",fff")
      let reply ← transact request
      match reply with
      | [] => pure ""
      | 0x6d :: chunk@(_ :: _) => go fuel (doc ++ chunk.toArray)
      | 0x6c :: chunk | 0x6d :: chunk => pure (Utf8.toText (doc ++ chunk.toArray).toList)
      | _ => throw (unexpected request reply)

/-- The target's architecture, from its description. -/
def architecture : ClientM τ Architecture := Architecture.ofDescription <$> targetDescription

/-- The path of the module the stub runs; none when the stub has no answer. -/
def execPath : ClientM τ (Option String) := do
  let reply ← tryCatch (some <$> transact (text "qExecPath")) fun e =>
    match e with
    | .wire (.remote _) => pure none
    | e => throw e
  match reply with
  | none | some [] => pure none
  | some r =>
    match Hex.decode r with
    | .ok bytes => pure (some (Utf8.toText bytes))
    | .error e => throw (.wire e)

/-- The registers of a thread, or of the current one. -/
def readRegisters (thread : Option ThreadId) : ClientM τ Registers := do
  if let some t := thread then expectOk (text ("Hg" ++ Hex.natDigits t.toNat))
  let reply ← transact (text "g")
  match Hex.decode reply with
  | .error e => throw (.registerAccess ("undecodable register reply: " ++ e.message))
  | .ok bytes =>
    match Registers.ofGdbBytes bytes with
    | .ok r => pure r
    | .error e => throw e

/-- Write the registers of the current thread. -/
def writeRegisters (r : Registers) : ClientM τ Unit := do
  let request := text "G" ++ Hex.digits r.toGdbBytes
  tryCatch (expectOk request) fun e =>
    throw (.registerAccess ("register write rejected: " ++ e.message))

/-- A refused memory transfer, reported for the whole request. -/
def memoryError (address : Address) (length : Nat) : DebugError → DebugError
  | .wire (.remote code) => .memoryAccess address length ("stub error E" ++ byteHex code)
  | .wire (.malformed reason) => .memoryAccess address length reason
  | e => e

/-- Read memory, in pieces. A piece the stub answers with nothing is a short read. -/
def readMemory (address : Address) (length : Nat) : ClientM τ (List UInt8) := do
  go (length + 1) #[]
where
  go : Nat → Array UInt8 → ClientM τ (List UInt8)
    | 0, data => pure (data.toList.take length)
    | fuel + 1, data => do
      if data.size ≥ length then return data.toList.take length
      let at_ := address + data.size.toUInt64
      let n := min (length - data.size) maxMemoryChunk
      let request := text ("m" ++ Hex.natDigits at_.toNat ++ "," ++ Hex.natDigits n)
      let reply ← tryCatch (transact request) fun e => throw (memoryError address length e)
      match Hex.decode reply with
      | .error e => throw (.memoryAccess address length e.message)
      | .ok [] => throw (.memoryAccess address length ("short read at " ++ at_.render))
      | .ok bytes => go fuel (data ++ bytes.toArray)

/-- Split bytes into pieces of `n + 1` bytes, the last one shorter. -/
def pieces (n : Nat) (bytes : List UInt8) : List (List UInt8) :=
  match bytes with
  | [] => []
  | b :: bs => (b :: bs).take (n + 1) :: pieces n ((b :: bs).drop (n + 1))
termination_by bytes.length
decreasing_by simp only [List.length_drop, List.length_cons]; omega

/-- Write memory, in pieces. -/
def writeMemory (address : Address) (data : List UInt8) : ClientM τ Unit := do
  for (piece, i) in (pieces (maxMemoryChunk - 1) data).zipIdx do
    let at_ := address + (i * maxMemoryChunk).toUInt64
    let request := text ("M" ++ Hex.natDigits at_.toNat ++ "," ++ Hex.natDigits piece.length ++ ":") ++
      Hex.digits piece
    tryCatch (expectOk request) fun e => throw (memoryError address data.length e)

/-- The text of an `O` packet: program output in hex. -/
def consoleOutput : List UInt8 → Option String
  | 0x4f :: rest =>
    if rest = [0x4b] then none
    else match Hex.decode rest with
      | .ok bytes => some (Utf8.toText bytes)
      | .error _ => none
  | _ => none

/-- Wait for a stop reply, keeping program output that comes first; `none` when none came in
time. A wait of zero milliseconds uses only what was already received. -/
def pollStop (timeoutMs : Nat) : ClientM τ (Option StopEvent) := do
  go (← get).supply
where
  go : Nat → ClientM τ (Option StopEvent)
    | 0 => pure none
    | fuel + 1 => do
      match ← onLink (Link.receive (timeoutMs = 0)) with
      | none => pure none
      | some packet =>
        match consoleOutput packet with
        | some out =>
          modify fun c => { c with output := c.output.push out }
          go fuel
        | none =>
          match StopEvent.parse packet with
          | .ok e => pure (some e)
          | .error e => throw e

/-- Execute one instruction and wait for the stop it causes. -/
def singleStep : ClientM τ StopEvent := do
  onLink (Link.send (text "s"))
  match ← pollStop (← get).timeout with
  | some e => pure e
  | none => throw (.timeout "single-step stop reply")

/-- Let the target run; its stop comes later through `pollStop`. -/
def resume : ClientM τ Unit := onLink (Link.send (text "c"))

/-- Ask a running target to stop. -/
def interrupt : ClientM τ Unit := onLink Link.interrupt

/-- Why the target last stopped. -/
def lastSignal : ClientM τ StopEvent := do
  let reply ← transact (text "?")
  match StopEvent.parse reply with
  | .ok e => pure e
  | .error e => throw e

/-- The thread ids listed in the body of a `qfThreadInfo` reply. -/
def threadIds (body : List UInt8) : Except WireError (List ThreadId) :=
  ((splitBytes 0x2c body).filter (· ≠ [])).mapM Hex.parseU64

/-- The thread list, in pieces: `qfThreadInfo`, then `qsThreadInfo` until a reply `l`. -/
def threads : ClientM τ (List ThreadId) := do
  go requestLimit (text "qfThreadInfo") []
where
  go : Nat → List UInt8 → List ThreadId → ClientM τ (List ThreadId)
    | 0, _, acc => pure acc
    | fuel + 1, request, acc => do
      let reply ← transact request
      match reply with
      | 0x6d :: list =>
        match threadIds list with
        | .ok ids => go fuel (text "qsThreadInfo") (acc ++ ids)
        | .error e => throw (.wire e)
      | 0x6c :: _ | [] => pure acc
      | _ => throw (unexpected request reply)

/-- The program output received since the last time, leaving none. -/
def takeOutput : ClientM τ (List String) := do
  let c ← get
  set { c with output := #[] }
  pure c.output.toList

/-- Close the connection. -/
def shutdown : ClientM τ Unit := onLink Link.shutdown

end Client

end RemoteDebugger
