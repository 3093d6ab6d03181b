import RemoteDebugger.Dwarf.Expression

/-!
# The DWARF stack machine

A second reading of location expressions, written from DWARF 5 §2.5: operations decoded into an
`Op` tree, words as integers modulo `2^64`, and control flow as a position in the bytes.
-/

namespace RemoteDebugger.StackMachine

open Dwarf
open Expression (Context Location malformed operand readRegister registerOperand
  showDisplacement maxOperations)

/-! ## Words -/

/-- The signed value of a word, in two's complement. -/
def wordValue (v : UInt64) : Int := Int.bmod v.toNat UInt64.size

/-- The binary operators of DWARF 5 §2.5.1.4. -/
inductive BinOp where
  | and | div | minus | mod | mul | or | plus | shl | shr | shra | xor
  | eq | ge | gt | le | lt | ne
  deriving DecidableEq, Repr

/-- The operation code of a binary operator. -/
def BinOp.code : BinOp → Nat
  | .and => 0x1a | .div => 0x1b | .minus => 0x1c | .mod => 0x1d | .mul => 0x1e
  | .or => 0x21 | .plus => 0x22 | .shl => 0x24 | .shr => 0x25 | .shra => 0x26
  | .xor => 0x27 | .eq => 0x29 | .ge => 0x2a | .gt => 0x2b | .le => 0x2c
  | .lt => 0x2d | .ne => 0x2e

/-- The binary operator with an operation code, if there is one. -/
def BinOp.ofCode : Nat → Option BinOp
  | 0x1a => some .and | 0x1b => some .div | 0x1c => some .minus | 0x1d => some .mod
  | 0x1e => some .mul | 0x21 => some .or | 0x22 => some .plus | 0x24 => some .shl
  | 0x25 => some .shr | 0x26 => some .shra | 0x27 => some .xor | 0x29 => some .eq
  | 0x2a => some .ge | 0x2b => some .gt | 0x2c => some .le | 0x2d => some .lt
  | 0x2e => some .ne | _ => none

theorem BinOp.code_of_ofCode {n : Nat} {b : BinOp} (h : BinOp.ofCode n = some b) : n = b.code := by
  unfold BinOp.ofCode at h
  split at h <;> cases h <;> rfl

/-- A truth value as a word. -/
def truth (p : Prop) [Decidable p] : UInt64 := if p then 1 else 0

/-- A binary operator applied to the left and the right operand. Arithmetic is on the
naturals or, for the signed operators, on the integers, and the result is taken modulo
`2^64`. A left shift by 64 or more leaves no bit of the word; the right shifts are by the
full amount. -/
def BinOp.eval (l r : UInt64) : BinOp → Except DebugError UInt64
  | .and => .ok (UInt64.ofNat (l.toNat &&& r.toNat))
  | .or => .ok (UInt64.ofNat (l.toNat ||| r.toNat))
  | .xor => .ok (UInt64.ofNat (l.toNat ^^^ r.toNat))
  | .plus => .ok (UInt64.ofNat (l.toNat + r.toNat))
  | .minus => .ok (UInt64.ofInt ((l.toNat : Int) - r.toNat))
  | .mul => .ok (UInt64.ofNat (l.toNat * r.toNat))
  | .div =>
    if r = 0 then .error (malformed "division by zero")
    else .ok (UInt64.ofInt ((wordValue l).tdiv (wordValue r)))
  | .mod =>
    if r = 0 then .error (malformed "modulo by zero")
    else .ok (UInt64.ofNat (l.toNat % r.toNat))
  | .shl => .ok (if r.toNat < 64 then UInt64.ofNat (l.toNat <<< r.toNat) else 0)
  | .shr => .ok (UInt64.ofNat (l.toNat >>> r.toNat))
  | .shra => .ok (UInt64.ofInt (wordValue l >>> r.toNat))
  | .eq => .ok (truth (wordValue l = wordValue r))
  | .ne => .ok (truth (wordValue l ≠ wordValue r))
  | .ge => .ok (truth (wordValue l ≥ wordValue r))
  | .gt => .ok (truth (wordValue l > wordValue r))
  | .le => .ok (truth (wordValue l ≤ wordValue r))
  | .lt => .ok (truth (wordValue l < wordValue r))

-- `-2^63 / -1` wraps back to `-2^63`; an arithmetic shift by 100 leaves only the sign.
example : (BinOp.eval 0x8000000000000000 0xffffffffffffffff .div).toOption =
    some 0x8000000000000000 := by decide +kernel
example : (BinOp.eval 0x8000000000000000 100 .shra).toOption = some 0xffffffffffffffff := by
  decide +kernel

/-! ## Operations -/

/-- A decoded operation, with its operands. -/
inductive Op where
  /-- Push a constant: `lit`, `const`, `constu` and `consts`. -/
  | const (v : UInt64)
  /-- Push a module-relative address, relocated. -/
  | addr (a : UInt64)
  /-- The object lives in a register: `reg0`..`reg31` and `regx`. -/
  | reg (n : Nat)
  /-- Push a register plus an offset: `breg0`..`breg31` and `bregx`. -/
  | breg (n : Nat) (offset : Int)
  /-- Push the frame base plus an offset. -/
  | fbreg (offset : Int)
  | callFrameCfa
  /-- The object has no location; its value is on top of the stack. -/
  | stackValue
  | dup | drop | over
  | pick (i : Nat)
  | swap | rot
  /-- Replace the address on top by `size` bytes read there. -/
  | deref (size : Nat)
  | abs | neg | not
  | plusUconst (k : UInt64)
  | binary (b : BinOp)
  | skip (d : Int)
  | bra (d : Int)
  /-- The first piece of a composite location. -/
  | piece
  | nop
  deriving DecidableEq, Repr

/-! ## Operands and their lengths -/

/-- The length of a LEB128 number: its bytes up to the first without the continuation bit. -/
def lebLength (bytes : List UInt8) : Nat := (bytes.takeWhile fun b => b &&& 0x80 ≠ 0).length + 1

theorem lebLength_cons (b : UInt8) (bytes : List UInt8) :
    lebLength (b :: bytes) = if b &&& 0x80 ≠ 0 then lebLength bytes + 1 else 1 := by
  unfold lebLength
  split <;> simp_all

/-- An operand of `n` little-endian bytes, and its length. -/
def fixedOperand (n : Nat) (bytes : List UInt8) : Except DebugError (Nat × Nat) := do
  let (v, _) ← operand (readFixed n bytes)
  pure (v, n)

/-- An unsigned LEB128 operand, and its length. -/
def unsignedOperand (bytes : List UInt8) : Except DebugError (UInt64 × Nat) := do
  let (v, _) ← operand (uleb bytes)
  pure (v, lebLength bytes)

/-- A signed LEB128 operand, and its length. -/
def signedOperand (bytes : List UInt8) : Except DebugError (Int × Nat) := do
  let (v, _) ← operand (sleb bytes)
  pure (wordValue v, lebLength bytes)

/-- A register number operand, and its length. -/
def registerNumber (bytes : List UInt8) : Except DebugError (Nat × Nat) := do
  let (n, _) ← registerOperand bytes
  pure (n, lebLength bytes)

/-- Decode the operation with code `op` whose operands start `bytes`: the operation and the
length of its operands. -/
def decode (addressSize : Nat) (op : UInt8) (bytes : List UInt8) : Except DebugError (Op × Nat) :=
  let n := op.toNat
  if 0x30 ≤ n ∧ n ≤ 0x4f then pure (.const (n - 0x30).toUInt64, 0)
  else if 0x50 ≤ n ∧ n ≤ 0x6f then pure (.reg (n - 0x50), 0)
  else if 0x70 ≤ n ∧ n ≤ 0x8f then do
    let (offset, w) ← signedOperand bytes
    pure (.breg (n - 0x70) offset, w)
  else match BinOp.ofCode n with
  | some b => pure (.binary b, 0)
  | none =>
    match n with
    | 0x03 => do
      let (a, w) ← fixedOperand (if addressSize = 4 then 4 else 8) bytes
      pure (.addr a.toUInt64, w)
    | 0x06 => pure (.deref addressSize, 0)
    | 0x08 => do let (v, w) ← fixedOperand 1 bytes; pure (.const v.toUInt64, w)
    | 0x09 => do let (v, w) ← fixedOperand 1 bytes; pure (.const (UInt64.ofInt (signedOf 1 v)), w)
    | 0x0a => do let (v, w) ← fixedOperand 2 bytes; pure (.const v.toUInt64, w)
    | 0x0b => do let (v, w) ← fixedOperand 2 bytes; pure (.const (UInt64.ofInt (signedOf 2 v)), w)
    | 0x0c => do let (v, w) ← fixedOperand 4 bytes; pure (.const v.toUInt64, w)
    | 0x0d => do let (v, w) ← fixedOperand 4 bytes; pure (.const (UInt64.ofInt (signedOf 4 v)), w)
    | 0x0e | 0x0f => do let (v, w) ← fixedOperand 8 bytes; pure (.const v.toUInt64, w)
    | 0x10 => do let (v, w) ← unsignedOperand bytes; pure (.const v, w)
    | 0x11 => do let (v, w) ← signedOperand bytes; pure (.const (UInt64.ofInt v), w)
    | 0x12 => pure (.dup, 0)
    | 0x13 => pure (.drop, 0)
    | 0x14 => pure (.over, 0)
    | 0x15 => do let (i, w) ← fixedOperand 1 bytes; pure (.pick i, w)
    | 0x16 => pure (.swap, 0)
    | 0x17 => pure (.rot, 0)
    | 0x19 => pure (.abs, 0)
    | 0x1f => pure (.neg, 0)
    | 0x20 => pure (.not, 0)
    | 0x23 => do let (k, w) ← unsignedOperand bytes; pure (.plusUconst k, w)
    | 0x28 => do let (d, w) ← fixedOperand 2 bytes; pure (.bra (signedOf 2 d), w)
    | 0x2f => do let (d, w) ← fixedOperand 2 bytes; pure (.skip (signedOf 2 d), w)
    | 0x90 => do let (r, w) ← registerNumber bytes; pure (.reg r, w)
    | 0x91 => do let (offset, w) ← signedOperand bytes; pure (.fbreg offset, w)
    | 0x92 => do
      let (r, w₁) ← registerNumber bytes
      let (offset, w₂) ← signedOperand (bytes.drop w₁)
      pure (.breg r offset, w₁ + w₂)
    | 0x93 => do let (_, w) ← unsignedOperand bytes; pure (.piece, w)
    | 0x94 => do
      let (size, w) ← fixedOperand 1 bytes
      if size = 0 ∨ size > 8 then .error (malformed ("DW_OP_deref_size with size " ++ toString size))
      else pure (.deref size, w)
    | 0x96 => pure (.nop, 0)
    | 0x9c => pure (.callFrameCfa, 0)
    | 0x9f => pure (.stackValue, 0)
    | _ => .error (.unsupported ("location expression opcode " ++ opName op))

/-! ## Execution -/

/-- What one operation leaves: the position of the next operation and the stack, or the
location evaluation ends with. -/
inductive Result where
  | next (pc : Nat) (stack : List UInt64)
  | done (loc : Location)
  deriving DecidableEq, Repr

section Exec

variable {m : Type → Type} [Monad m]

/-- The error for an operation that needs more stack entries than there are. -/
def underflow (op : UInt8) : DebugError := malformed ("stack underflow at " ++ opName op)

/-- Continue at `target`, a position that must lie within the `size` bytes of the expression;
`d` is the displacement the branch was written with. -/
def branch (size : Nat) (target d : Int) (stack : List UInt64) : ExceptT DebugError m Result :=
  if 0 ≤ target ∧ target ≤ size then pure (.next target.toNat stack)
  else throw (malformed ("branch to " ++ showDisplacement d ++ " leaves the expression"))

/-- Execute a decoded operation on the stack (top first). `op` is the operation's code, for
error messages; `size` is the length of the expression and `next` the position right after
the operation and its operands. -/
def Op.exec (ctx : Context m) (op : UInt8) (size next : Nat) :
    Op → List UInt64 → ExceptT DebugError m Result
  | .const v, s => pure (.next next (v :: s))
  | .addr a, s => pure (.next next (ctx.relocate a :: s))
  | .reg r, _ => pure (.done (.register r))
  | .breg r offset, s => do
    let v ← readRegister ctx r
    pure (.next next (UInt64.ofInt (v.toNat + offset) :: s))
  | .fbreg offset, s =>
    match ctx.frameBase with
    | some base => pure (.next next (UInt64.ofInt (base.toNat + offset) :: s))
    | none => throw (malformed "DW_OP_fbreg without a frame base")
  | .callFrameCfa, s =>
    match ctx.cfa with
    | some cfa => pure (.next next (cfa :: s))
    | none => throw (.unsupported "DW_OP_call_frame_cfa outside call frame information")
  | .stackValue, v :: _ => pure (.done (.value v))
  | .dup, v :: s => pure (.next next (v :: v :: s))
  | .drop, _ :: s => pure (.next next s)
  | .over, v :: w :: s => pure (.next next (w :: v :: w :: s))
  | .pick i, s =>
    match s[i]? with
    | some v => pure (.next next (v :: s))
    | none => throw (underflow op)
  | .swap, v :: w :: s => pure (.next next (w :: v :: s))
  | .rot, v :: w :: x :: s => pure (.next next (w :: x :: v :: s))
  | .deref size, a :: s => do
    let v ← ctx.readMemory a size
    pure (.next next (v :: s))
  | .abs, v :: s => pure (.next next (UInt64.ofNat (wordValue v).natAbs :: s))
  | .neg, v :: s => pure (.next next (UInt64.ofInt (-wordValue v) :: s))
  | .not, v :: s => pure (.next next (UInt64.ofNat (UInt64.size - 1 - v.toNat) :: s))
  | .plusUconst k, v :: s => pure (.next next (UInt64.ofNat (v.toNat + k.toNat) :: s))
  | .binary b, r :: l :: s => do
    let v ← b.eval l r
    pure (.next next (v :: s))
  | .skip d, s => branch size (next + d) d s
  | .bra d, c :: s => if c ≠ 0 then branch size (next + d) d s else pure (.next next s)
  | .piece, s =>
    match s with
    | a :: _ => pure (.done (.address a))
    | [] => throw (.unsupported "optimized-out first piece of a composite location")
  | .nop, s => pure (.next next s)
  | .stackValue, [] | .dup, [] | .drop, [] | .over, [] | .over, [_] | .swap, [] | .swap, [_]
  | .rot, [] | .rot, [_] | .rot, [_, _] | .deref _, [] | .abs, [] | .neg, [] | .not, []
  | .plusUconst _, [] | .binary _, [] | .binary _, [_] | .bra _, [] => throw (underflow op)

/-- Decode and execute the operation at position `pc`, whose code is `op`. -/
def step (ctx : Context m) (code : List UInt8) (pc : Nat) (op : UInt8) (stack : List UInt64) :
    ExceptT DebugError m Result := do
  let (o, w) ← decode ctx.addressSize op (code.drop (pc + 1))
  o.exec ctx op code.length (pc + 1 + w) stack

/-- Run from position `pc` until the position leaves the expression or an operation ends
evaluation, running at most `fuel` operations. -/
def run (ctx : Context m) (code : List UInt8) : Nat → Nat → List UInt64 → ExceptT DebugError m Location
  | fuel, pc, stack =>
    match code[pc]?, fuel with
    | none, _ =>
      match stack with
      | v :: _ => pure (.address v)
      | [] => throw (malformed "expression left an empty stack")
    | some _, 0 => throw (malformed "expression did not terminate")
    | some op, fuel + 1 => do
      match ← step ctx code pc op stack with
      | .done loc => pure loc
      | .next pc stack => run ctx code fuel pc stack

/-- Where the object an expression describes lives, by the stack machine. -/
def evaluate (code : List UInt8) (ctx : Context m) : ExceptT DebugError m Location :=
  run ctx code maxOperations 0 []

end Exec

end RemoteDebugger.StackMachine
