import RemoteDebugger.Symbols.Database
import RemoteDebugger.Dwarf.Expression
import RemoteDebugger.Target.Registers

/-!
# Unwinding with call frame information

Recovering a caller's registers from the call frame rules in force at a frame's program counter,
and `unwind`, which repeats it outwards until the walk stops.
-/

namespace RemoteDebugger

/-- Reads a number of bytes of target memory, in a monad `m`. -/
abbrev ReadBytes (m : Type → Type) := Address → Nat → ExceptT DebugError m (List UInt8)

/-- Call frame information of a module loaded at `base`, and the target's memory. -/
structure Unwinder (m : Type → Type) where
  db : SymbolDatabase
  base : Address
  read : ReadBytes m

namespace Unwinder

variable {m : Type → Type} [Monad m]

/-- A register the unwinder needs, or an error when it is not tracked. -/
def registerValue (r : Registers) (n : UInt16) : Except DebugError UInt64 :=
  match r.get n.toNat with
  | some v => .ok v
  | none => .error (.registerAccess ("DWARF register " ++ toString n ++ " is not tracked"))

/-- A little-endian word of eight bytes. -/
def readWord (read : ReadBytes m) (a : Address) : ExceptT DebugError m UInt64 := do
  let bytes ← read a 8
  if bytes.length = 8 then pure (Registers.leValue bytes).toUInt64
  else throw (.memoryAccess a 8 ("short read of " ++ toString bytes.length ++ " bytes"))

/-- The rules in force at a frame's program counter, with the module-relative counter. -/
def rulesFor (u : Unwinder m) (r : Registers) : Option RuleSet := do
  let pc ← Address.relativeTo r.pc u.base
  let frame ← u.db.callFrameForAddress pc
  pure (frame.rulesAt pc)

/-- The canonical frame address of a frame, when its rules give one. Only a register plus
an offset is understood. -/
def cfa (u : Unwinder m) (r : Registers) : Except DebugError (Option Address) :=
  match (u.rulesFor r).bind (·[RuleRegister.cfa]?) with
  | none => .ok none
  | some rule =>
    match rule.kind with
    | .valOffset (.dwarf n) off => do
      let v ← registerValue r n
      pure (some (Address.offset v off))
    | other => .error (.unsupported ("CFA rule " ++ other.render))

/-- The value a rule gives a register of the caller; `none` leaves the register as it is. -/
def recover (u : Unwinder m) (r : Registers) (cfa : Address) (target : UInt16) :
    RuleKind → ExceptT DebugError m (Option UInt64)
  | .undefined | .sameValue => pure none
  | .offset b off => do
    let slot ← baseValue b
    some <$> readWord u.read (Address.offset slot off)
  | .register b => some <$> baseValue b
  | .valOffset b off => do
    let v ← baseValue b
    pure (some (Address.offset v off))
  | .expression | .valExpression =>
    throw (.unsupported ("expression rule for register " ++ toString target ++ " at " ++
      Address.render r.pc))
where
  baseValue : RuleRegister → Except DebugError UInt64
    | .cfa => .ok cfa
    | .dwarf n => registerValue r n

/-- The caller's registers, or `none` when the frame has no rules. -/
def previousFrame (u : Unwinder m) (r : Registers) : ExceptT DebugError m (Option Registers) := do
  let some cfa ← u.cfa r | pure none
  let some rules := u.rulesFor r | pure none
  let caller ← rules.toList.foldlM (fun caller (target, rule) =>
    match target with
    | .cfa => pure caller
    | .dwarf n => do
      match ← u.recover r cfa n rule.kind with
      | some v => pure (caller.set n.toNat v)
      | none => pure caller) r
  if rules.contains (.dwarf (UInt16.ofNat dwarfRsp)) then pure (some caller)
  else pure (some (caller.set dwarfRsp cfa))

/-- The frames from `r` outwards, innermost first, at most `max` of them. -/
def unwind (u : Unwinder m) (r : Registers) : (max : Nat) → m (List Registers)
  | 0 => pure []
  | n + 1 =>
    if r.pc = 0 then pure []
    else do
      let rest ← match ← (u.previousFrame r).run with
        | .ok (some caller) =>
          if caller.pc = r.pc ∧ caller.sp = r.sp then pure [] else u.unwind caller n
        | _ => pure []
      pure (r :: rest)

/-- The expression context of a frame: its registers, the target's memory, the module base
for relocation, and the frame base and canonical frame address when known. -/
def frameContext (read : ReadBytes m) (base : Address) (r : Registers)
    (frameBase cfa : Option UInt64) : Expression.Context m where
  register n := r.get n
  frameBase := frameBase
  cfa := cfa
  readMemory a n := do
    let bytes ← read a n
    pure (Registers.leValue (bytes.take 8)).toUInt64
  relocate a := a + base

end Unwinder

end RemoteDebugger
