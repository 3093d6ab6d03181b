import RemoteDebugger.Error

/-!
# Stops

Why the target stopped, as a stop reply reports it: a signal, an exit or a termination, maybe
with a thread.
-/

namespace RemoteDebugger

/-- A thread as the stub numbers it; shown in hex. -/
abbrev ThreadId := UInt64

/-- Why the target stopped. -/
inductive StopReason where
  | signal (n : UInt8)
  | exited (code : UInt8)
  | terminated (n : UInt8)
  deriving DecidableEq, Repr

/-- Whether the target can still be inspected after this stop. -/
def StopReason.isAlive : StopReason → Bool
  | .signal _ => true
  | _ => false

/-- The reason in words. -/
def StopReason.describe : StopReason → String
  | .signal n => "stopped by signal " ++ toString n.toNat
  | .exited c => "exited with code " ++ toString c.toNat
  | .terminated n => "terminated by signal " ++ toString n.toNat

/-- A decoded stop reply. -/
structure StopEvent where
  reason : StopReason
  thread : Option ThreadId := none
  deriving DecidableEq, Repr

/-- Split bytes at every occurrence of a separator; an empty input gives one empty piece. -/
def splitBytes (sep : UInt8) (bytes : List UInt8) : List (List UInt8) :=
  bytes.splitOn sep

/-- Split bytes at the first separator, if there is one. -/
def splitFirst (sep : UInt8) (bytes : List UInt8) : List UInt8 × Option (List UInt8) :=
  match bytes.idxOf? sep with
  | some i => (bytes.take i, some (bytes.drop (i + 1)))
  | none => (bytes, none)

/-- The bytes of the field name `thread`. -/
def threadField : List UInt8 := [0x74, 0x68, 0x72, 0x65, 0x61, 0x64]

/-- The thread named by the last `thread:` field, reading each such field's value as hex. -/
def threadOfFields : List (List UInt8) → Except WireError (Option ThreadId)
  | [] => .ok none
  | field :: rest => do
    let later ← match splitFirst 0x3A field with
      | (name, some value) =>
        if name = threadField then do
          let id ← Hex.parseU64 value
          pure (some id)
        else pure none
      | _ => pure none
    let last ← threadOfFields rest
    pure (last.or later)

/-- Read a stop reply: a kind letter, a two-digit hex code, and for `T` replies the fields
that follow. -/
def StopEvent.parse (payload : List UInt8) : Except DebugError StopEvent :=
  let malformed := DebugError.wire (.malformed ("not a stop reply: " ++ Utf8.toText payload))
  match payload with
  | [] => .error malformed
  | kind :: rest =>
    if rest.length < 2 then .error malformed
    else match Hex.parseU64 (rest.take 2) with
      | .error e => .error (.wire e)
      | .ok value =>
        let code := value.toUInt8
        let reason? :=
          if kind = 0x53 ∨ kind = 0x54 then some (StopReason.signal code)
          else if kind = 0x57 then some (.exited code)
          else if kind = 0x58 then some (.terminated code)
          else none
        match reason? with
        | none => .error malformed
        | some reason =>
          if kind = 0x54 then
            match threadOfFields (splitBytes 0x3B (rest.drop 2)) with
            | .ok thread => .ok { reason, thread }
            | .error e => .error (.wire e)
          else .ok { reason }

end RemoteDebugger
