import RemoteDebugger.Error
import RemoteDebugger.Dwarf.Constants
import RemoteDebugger.Dwarf.Leb128

/-!
# Location expressions

A stack machine over the DWARF operations of location attributes, frame bases and location
lists (DWARF 5, §2.5 and §2.6). A register operation, `stack_value` or `piece` ends evaluation
early, and at most `maxOperations` operations run.
-/

namespace RemoteDebugger.Expression

open Dwarf

/-- Where an object lives, as an expression says. -/
inductive Location where
  | address (a : UInt64)
  | register (n : Nat)
  | value (v : UInt64)
  deriving DecidableEq, Repr

/-- What the machine reads while evaluating. Memory is read in a monad `m`, so reading can
have effects of its own, such as requests to a stub. -/
structure Context (m : Type → Type) where
  /-- The value of a DWARF-numbered register, if known. -/
  register : Nat → Option UInt64
  /-- The frame base of the enclosing function, for `fbreg`. -/
  frameBase : Option UInt64 := none
  /-- The canonical frame address, for `call_frame_cfa`. -/
  cfa : Option UInt64 := none
  /-- Read `size` bytes of little-endian target memory. -/
  readMemory : UInt64 → Nat → ExceptT DebugError m UInt64
  /-- Map a module-relative `addr` operand to a process address. -/
  relocate : UInt64 → UInt64 := id
  /-- Size of `addr` operands and of `deref` reads. -/
  addressSize : Nat := 8

/-- The most operations one evaluation runs. -/
def maxOperations : Nat := 10000

/-- The machine between two operations: the bytes left to read and the stack, top first. -/
structure Machine where
  rest : List UInt8
  stack : List UInt64
  deriving DecidableEq, Repr

/-- An operation either goes on with a new machine or ends with a location. -/
inductive Outcome where
  | next (m : Machine)
  | done (loc : Location)
  deriving DecidableEq, Repr

/-- The error for a malformed expression. -/
def malformed (detail : String) : DebugError := .malformedExpression detail

/-- Read an operand, turning a read failure into a malformed expression. -/
def operand {α : Type} (r : Except OperandError α) : Except DebugError α :=
  match r with
  | .ok a => .ok a
  | .error e => .error (malformed ("truncated operand: " ++ e.message))

/-- The value of a register, or a register access error. -/
def readRegister {m : Type → Type} (ctx : Context m) (n : Nat) : Except DebugError UInt64 :=
  match ctx.register n with
  | some v => .ok v
  | none => .error (.registerAccess ("DWARF register " ++ toString n ++ " is not available"))

/-- A register number operand, which must fit in sixteen bits. -/
def registerOperand (bytes : List UInt8) : Except DebugError (Nat × List UInt8) := do
  let (n, rest) ← operand (uleb bytes)
  if n.toNat < 65536 then pure (n.toNat, rest)
  else .error (malformed ("register number " ++ toString n.toNat ++ " out of range"))

/-- Pop the top of the stack. -/
def pop (op : UInt8) : List UInt64 → Except DebugError (UInt64 × List UInt64)
  | v :: s => .ok (v, s)
  | [] => .error (malformed ("stack underflow at " ++ opName op))

/-- The entry `depth` places below the top. -/
def peek (op : UInt8) (depth : Nat) (s : List UInt64) : Except DebugError UInt64 :=
  match s[depth]? with
  | some v => .ok v
  | none => .error (malformed ("stack underflow at " ++ opName op))

/-- Signed reading of a word. -/
def signed (v : UInt64) : Int := v.toInt64.toInt

/-- A shift amount, saturated to 32 bits. -/
def shiftAmount (v : UInt64) : Nat := min v.toNat (UInt32.size - 1)

/-- The binary operators: the right operand was on top of the stack. -/
def binary (op : UInt8) (left right : UInt64) : Except DebugError UInt64 :=
  let b (p : Bool) : UInt64 := if p then 1 else 0
  match op.toNat with
  | 0x1a => .ok (left &&& right)
  | 0x21 => .ok (left ||| right)
  | 0x27 => .ok (left ^^^ right)
  | 0x22 => .ok (left + right)
  | 0x1c => .ok (left - right)
  | 0x1e => .ok (left * right)
  | 0x1b =>
    if right = 0 then .error (malformed "division by zero")
    else .ok (left.toInt64 / right.toInt64).toUInt64
  | 0x1d =>
    if right = 0 then .error (malformed "modulo by zero")
    else .ok (left % right)
  | 0x24 => .ok (if shiftAmount right < 64 then left <<< right else 0)
  | 0x25 => .ok (if shiftAmount right < 64 then left >>> right else 0)
  | 0x26 => .ok (left.toInt64 >>> (min (shiftAmount right) 63).toInt64).toUInt64
  | 0x29 => .ok (b (signed left = signed right))
  | 0x2e => .ok (b (signed left ≠ signed right))
  | 0x2a => .ok (b (signed left ≥ signed right))
  | 0x2b => .ok (b (signed left > signed right))
  | 0x2c => .ok (b (signed left ≤ signed right))
  | 0x2d => .ok (b (signed left < signed right))
  | _ => .error (.unsupported ("binary operator " ++ opName op))

/-- Whether an operation is one of the binary operators. -/
def isBinary (op : UInt8) : Bool :=
  [0x1a, 0x1b, 0x1c, 0x1d, 0x1e, 0x21, 0x22, 0x24, 0x25, 0x26, 0x27, 0x29, 0x2a, 0x2b, 0x2c,
    0x2d, 0x2e].contains op.toNat

/-- The signed operand of a branch, written with its sign. -/
def showDisplacement (d : Int) : String := (if d ≥ 0 then "+" else "") ++ toString d

/-- Move to `displacement` bytes after the end of the current operation. -/
def jump (code : List UInt8) (rest : List UInt8) (displacement : Int) :
    Except DebugError (List UInt8) :=
  let target : Int := (code.length - rest.length : Nat) + displacement
  if 0 ≤ target ∧ target ≤ code.length then .ok (code.drop target.toNat)
  else .error (malformed ("branch to " ++ showDisplacement displacement ++ " leaves the expression"))

/-- Run one operation, whose code has been read, on the remaining bytes and the stack. -/
def step {m : Type → Type} [Monad m] (ctx : Context m) (code : List UInt8) (op : UInt8)
    (rest : List UInt8) (stack : List UInt64) : ExceptT DebugError m Outcome := do
  let n := op.toNat
  let push (v : UInt64) (r : List UInt8) : ExceptT DebugError m Outcome :=
    pure (.next ⟨r, v :: stack⟩)
  if 0x30 ≤ n ∧ n ≤ 0x4f then push (n - 0x30).toUInt64 rest
  else if 0x50 ≤ n ∧ n ≤ 0x6f then pure (.done (.register (n - 0x50)))
  else if 0x70 ≤ n ∧ n ≤ 0x8f then
    let (offset, rest) ← operand (sleb rest)
    let v ← readRegister ctx (n - 0x70)
    push (v + offset) rest
  else if isBinary op then
    let (right, s) ← pop op stack
    let (left, s) ← pop op s
    let v ← binary op left right
    pure (.next ⟨rest, v :: s⟩)
  else match n with
  | 0x03 =>
    let (a, rest) ← operand (readFixed (if ctx.addressSize = 4 then 4 else 8) rest)
    push (ctx.relocate a.toUInt64) rest
  | 0x08 => let (v, rest) ← operand (readFixed 1 rest); push v.toUInt64 rest
  | 0x09 => let (v, rest) ← operand (readFixed 1 rest); push (UInt64.ofInt (signedOf 1 v)) rest
  | 0x0a => let (v, rest) ← operand (readFixed 2 rest); push v.toUInt64 rest
  | 0x0b => let (v, rest) ← operand (readFixed 2 rest); push (UInt64.ofInt (signedOf 2 v)) rest
  | 0x0c => let (v, rest) ← operand (readFixed 4 rest); push v.toUInt64 rest
  | 0x0d => let (v, rest) ← operand (readFixed 4 rest); push (UInt64.ofInt (signedOf 4 v)) rest
  | 0x0e | 0x0f => let (v, rest) ← operand (readFixed 8 rest); push v.toUInt64 rest
  | 0x10 => let (v, rest) ← operand (uleb rest); push v rest
  | 0x11 => let (v, rest) ← operand (sleb rest); push v rest
  | 0x91 =>
    let (offset, rest) ← operand (sleb rest)
    match ctx.frameBase with
    | some base => push (base + offset) rest
    | none => throw (malformed "DW_OP_fbreg without a frame base")
  | 0x92 =>
    let (r, rest) ← registerOperand rest
    let (offset, rest) ← operand (sleb rest)
    let v ← readRegister ctx r
    push (v + offset) rest
  | 0x90 =>
    let (r, _) ← registerOperand rest
    pure (.done (.register r))
  | 0x9c =>
    match ctx.cfa with
    | some cfa => push cfa rest
    | none => throw (.unsupported "DW_OP_call_frame_cfa outside call frame information")
  | 0x9f =>
    let (v, _) ← pop op stack
    pure (.done (.value v))
  | 0x12 => let v ← peek op 0 stack; push v rest
  | 0x13 => let (_, s) ← pop op stack; pure (.next ⟨rest, s⟩)
  | 0x14 => let v ← peek op 1 stack; push v rest
  | 0x15 =>
    let (i, rest) ← operand (readFixed 1 rest)
    let v ← peek op i stack
    push v rest
  | 0x16 =>
    let (top, s) ← pop op stack
    let (second, s) ← pop op s
    pure (.next ⟨rest, second :: top :: s⟩)
  | 0x17 =>
    let (top, s) ← pop op stack
    let (second, s) ← pop op s
    let (third, s) ← pop op s
    pure (.next ⟨rest, second :: third :: top :: s⟩)
  | 0x06 =>
    let (a, s) ← pop op stack
    let v ← ctx.readMemory a ctx.addressSize
    pure (.next ⟨rest, v :: s⟩)
  | 0x94 =>
    let (size, rest) ← operand (readFixed 1 rest)
    if size = 0 ∨ size > 8 then throw (malformed ("DW_OP_deref_size with size " ++ toString size))
    else
      let (a, s) ← pop op stack
      let v ← ctx.readMemory a size
      pure (.next ⟨rest, v :: s⟩)
  | 0x19 =>
    let (v, s) ← pop op stack
    pure (.next ⟨rest, (if signed v < 0 then 0 - v else v) :: s⟩)
  | 0x1f => let (v, s) ← pop op stack; pure (.next ⟨rest, (0 - v) :: s⟩)
  | 0x20 => let (v, s) ← pop op stack; pure (.next ⟨rest, (~~~ v) :: s⟩)
  | 0x23 =>
    let (addend, rest) ← operand (uleb rest)
    let (v, s) ← pop op stack
    pure (.next ⟨rest, (v + addend) :: s⟩)
  | 0x2f =>
    let (d, rest) ← operand (readFixed 2 rest)
    let rest ← jump code rest (signedOf 2 d)
    pure (.next ⟨rest, stack⟩)
  | 0x28 =>
    let (d, rest) ← operand (readFixed 2 rest)
    let (c, s) ← pop op stack
    if c ≠ 0 then
      let rest ← jump code rest (signedOf 2 d)
      pure (.next ⟨rest, s⟩)
    else pure (.next ⟨rest, s⟩)
  | 0x93 =>
    let (_, _) ← operand (uleb rest)
    match stack with
    | a :: _ => pure (.done (.address a))
    | [] => throw (.unsupported "optimized-out first piece of a composite location")
  | 0x96 => pure (.next ⟨rest, stack⟩)
  | _ => throw (.unsupported ("location expression opcode " ++ opName op))

/-- Run operations until the bytes are used up, an operation ends evaluation, or the
operation budget `fuel` is spent. -/
def run {m : Type → Type} [Monad m] (ctx : Context m) (code : List UInt8) :
    Nat → Machine → ExceptT DebugError m Location
  | _, ⟨[], stack⟩ =>
    match stack with
    | v :: _ => pure (.address v)
    | [] => throw (malformed "expression left an empty stack")
  | 0, ⟨_ :: _, _⟩ => throw (malformed "expression did not terminate")
  | fuel + 1, ⟨op :: rest, stack⟩ => do
    match ← step ctx code op rest stack with
    | .done loc => pure loc
    | .next m => run ctx code fuel m

/-- Evaluate an expression: where the object it describes lives. -/
def evaluate {m : Type → Type} [Monad m] (code : List UInt8) (ctx : Context m) :
    ExceptT DebugError m Location :=
  run ctx code maxOperations ⟨code, []⟩

end RemoteDebugger.Expression
