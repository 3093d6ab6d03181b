import RemoteDebugger.Proofs.Dwarf.StackMachine
import RemoteDebugger.Proofs.Dwarf.Reading

/-!
# The evaluator is the DWARF stack machine

For every byte string and context, in any lawful monad, the location-expression evaluator
computes what `StackMachine.evaluate` computes, or fails with the same error
(`evaluate_eq_stackMachine`).
-/

namespace RemoteDebugger.StackMachine

open Dwarf
open Expression (Context Location Outcome malformed operand readRegister registerOperand
  maxOperations signed shiftAmount binary isBinary pop peek jump)

/-! ## Words as integers -/

theorem wordValue_bounds (v : UInt64) : -(2 ^ 63 : Int) ≤ wordValue v ∧ wordValue v < 2 ^ 63 := by
  have := v.toNat_lt
  unfold wordValue Int.bmod
  simp only [UInt64.size]
  split <;> omega

theorem wordValue_eq (v : UInt64) :
    wordValue v = if v.toNat < 2 ^ 63 then (v.toNat : Int) else v.toNat - 2 ^ 64 := by
  have := v.toNat_lt
  unfold wordValue Int.bmod
  simp only [UInt64.size]
  split <;> split <;> omega

theorem toNat_ofInt (i : Int) : (UInt64.ofInt i).toNat = (i % 2 ^ 64).toNat := by
  simp only [UInt64.ofInt, UInt64.toNat_ofNat']
  omega

theorem ofInt_natCast (n : Nat) : UInt64.ofInt n = UInt64.ofNat n := by
  apply UInt64.toNat_inj.1
  rw [toNat_ofInt, UInt64.toNat_ofNat']
  omega

@[simp] theorem ofInt_wordValue (v : UInt64) : UInt64.ofInt (wordValue v) = v := by
  apply UInt64.toNat_inj.1
  have := v.toNat_lt
  rw [toNat_ofInt, wordValue_eq]
  split <;> omega

theorem toBitVec_ofInt (i : Int) : (UInt64.ofInt i).toBitVec = BitVec.ofInt 64 i := by
  apply BitVec.eq_of_toNat_eq
  simp only [UInt64.toNat_toBitVec, toNat_ofInt, BitVec.toNat_ofInt]
  omega

/-- The evaluator's signed reading is the two's complement value. -/
theorem signed_eq_wordValue (v : UInt64) : signed v = wordValue v := by
  rw [signed, Int64.toInt, BitVec.toInt_eq_toNat_bmod]
  rfl

theorem sub_eq_ofInt (l r : UInt64) : l - r = UInt64.ofInt ((l.toNat : Int) - r.toNat) := by
  apply UInt64.toNat_inj.1
  have := l.toNat_lt
  have := r.toNat_lt
  rw [toNat_ofInt, UInt64.toNat_sub]
  omega

/-- Signed division of words truncates, as `Int.tdiv`; `-2^63 / -1` wraps to `-2^63`. -/
theorem toInt64_div (a b : UInt64) :
    (a.toInt64 / b.toInt64).toUInt64 = UInt64.ofInt ((wordValue a).tdiv (wordValue b)) := by
  rw [← signed_eq_wordValue, ← signed_eq_wordValue]
  apply UInt64.toBitVec_inj.1
  rw [toBitVec_ofInt]
  apply BitVec.eq_of_toInt_eq
  simp [signed, Int64.toInt, BitVec.toInt_sdiv, BitVec.toInt_ofInt]

theorem neg_one_shiftRight (n : Nat) : (-1 : Int) >>> n = -1 := by
  change Int.negSucc (0 >>> n) = _
  rw [Nat.zero_shiftRight]
  rfl

/-- Shifting the value of a word right by 63 or more leaves only its sign. -/
theorem wordValue_shiftRight_of_le (v : UInt64) {n : Nat} (hn : 63 ≤ n) :
    wordValue v >>> n = wordValue v >>> (63 : Nat) := by
  obtain ⟨k, rfl⟩ := Nat.exists_eq_add_of_le hn
  have hv := wordValue_bounds v
  have hsign : wordValue v >>> (63 : Nat) = 0 ∨ wordValue v >>> (63 : Nat) = -1 := by
    rw [Int.shiftRight_eq_div_pow]; omega
  rw [Int.shiftRight_add]
  rcases hsign with h | h <;> rw [h]
  · exact Int.zero_shiftRight k
  · exact neg_one_shiftRight k

theorem smod_toInt64 : ∀ k < 64, ((k.toInt64).toBitVec.smod 64).toNat = k := by decide

/-- The evaluator's arithmetic shift, capped at 63, is the arithmetic shift by the full
amount. -/
theorem toInt64_shiftRight (a r : UInt64) :
    (a.toInt64 >>> (min (shiftAmount r) 63).toInt64).toUInt64 =
      UInt64.ofInt (wordValue a >>> r.toNat) := by
  apply UInt64.toBitVec_inj.1
  rw [toBitVec_ofInt, ← BitVec.ofInt_toInt (x := (a.toInt64 >>> _).toUInt64.toBitVec)]
  refine congrArg (BitVec.ofInt 64) ?_
  simp only [Int64.toBitVec_toUInt64, Int64.toBitVec_shiftRight, BitVec.toInt_sshiftRight']
  have hmin : min (shiftAmount r) 63 = min r.toNat 63 := by
    simp only [shiftAmount, UInt32.size]; omega
  rw [smod_toInt64 _ (by omega), ← Int64.toInt, ← signed, signed_eq_wordValue, hmin]
  by_cases h : r.toNat < 63
  · rw [Nat.min_eq_left (by omega)]
  · rw [Nat.min_eq_right (by omega)]
    exact (wordValue_shiftRight_of_le a (by omega)).symm

theorem shiftLeft_eq (l r : UInt64) :
    (if shiftAmount r < 64 then l <<< r else 0) =
      if r.toNat < 64 then UInt64.ofNat (l.toNat <<< r.toNat) else 0 := by
  have hs : shiftAmount r < 64 ↔ r.toNat < 64 := by simp only [shiftAmount, UInt32.size]; omega
  by_cases h : r.toNat < 64
  · rw [if_pos (hs.2 h), if_pos h]
    apply UInt64.toNat_inj.1
    rw [UInt64.toNat_shiftLeft, UInt64.toNat_ofNat', Nat.mod_eq_of_lt (a := r.toNat) h]
  · rw [if_neg (mt hs.1 h), if_neg h]

theorem shiftRight_eq (l r : UInt64) :
    (if shiftAmount r < 64 then l >>> r else 0) = UInt64.ofNat (l.toNat >>> r.toNat) := by
  have hs : shiftAmount r < 64 ↔ r.toNat < 64 := by simp only [shiftAmount, UInt32.size]; omega
  have := l.toNat_lt
  apply UInt64.toNat_inj.1
  rw [UInt64.toNat_ofNat']
  by_cases h : r.toNat < 64
  · rw [if_pos (hs.2 h), UInt64.toNat_shiftRight, Nat.mod_eq_of_lt (a := r.toNat) h,
      Nat.mod_eq_of_lt (Nat.lt_of_le_of_lt (Nat.shiftRight_le _ _) l.toNat_lt)]
  · have hpow : 2 ^ 64 ≤ 2 ^ r.toNat := Nat.pow_le_pow_right (by decide) (by omega)
    rw [if_neg (mt hs.1 h), Nat.shiftRight_eq_div_pow, Nat.div_eq_of_lt (by omega)]
    rfl

theorem abs_eq (v : UInt64) :
    (if signed v < 0 then 0 - v else v) = UInt64.ofNat (wordValue v).natAbs := by
  have := v.toNat_lt
  have hw := wordValue_eq v
  rw [signed_eq_wordValue]
  apply UInt64.toNat_inj.1
  rw [UInt64.toNat_ofNat']
  split
  · rw [UInt64.toNat_sub, UInt64.toNat_zero]
    split at hw <;> omega
  · split at hw <;> omega

theorem neg_eq (v : UInt64) : 0 - v = UInt64.ofInt (-wordValue v) := by
  rw [UInt64.ofInt_neg, ofInt_wordValue, UInt64.zero_sub]

theorem not_eq (v : UInt64) : ~~~v = UInt64.ofNat (UInt64.size - 1 - v.toNat) := by
  rw [← UInt64.toNat_not, UInt64.ofNat_toNat]

/-! ## Binary operators -/

/-- The evaluator's test for a binary operator agrees with the operator table. -/
theorem isBinary_eq (op : UInt8) : isBinary op = (BinOp.ofCode op.toNat).isSome := by
  unfold isBinary BinOp.ofCode
  generalize op.toNat = n
  split <;> simp_all

/-- Each binary operator of the evaluator computes the integer operation of `BinOp.eval`. -/
theorem binary_eq_eval {op : UInt8} {b : BinOp} (h : BinOp.ofCode op.toNat = some b)
    (l r : UInt64) : binary op l r = b.eval l r := by
  have hn := BinOp.code_of_ofCode h
  cases b <;> simp only [binary, hn, BinOp.code, BinOp.eval]
  case and | or | xor | plus | mul =>
    simp only [UInt64.ofNat_and, UInt64.ofNat_or, UInt64.ofNat_xor, UInt64.ofNat_add,
      UInt64.ofNat_mul, UInt64.ofNat_toNat]
  case minus => rw [sub_eq_ofInt]
  case div => rw [toInt64_div]
  case mod => rw [UInt64.ofNat_mod l.toNat_lt r.toNat_lt, UInt64.ofNat_toNat, UInt64.ofNat_toNat]
  case shl => rw [shiftLeft_eq]
  case shr => rw [shiftRight_eq]
  case shra => rw [toInt64_shiftRight]
  case eq | ne | ge | gt | le | lt => simp only [truth, signed_eq_wordValue, decide_eq_true_eq]

/-! ## Operands -/

/-- An unsigned LEB128 number ends at the first byte without the continuation bit. -/
theorem readUleb_rest {shift : Nat} {acc v : UInt64} {bytes rest : List UInt8}
    (h : readUleb shift acc bytes = .ok (v, rest)) : rest = bytes.drop (lebLength bytes) := by
  induction bytes generalizing shift acc with
  | nil => simp [readUleb] at h
  | cons b bytes ih =>
    rw [readUleb] at h
    rw [lebLength_cons]
    split at h
    · cases h
    · split at h
      · cases h
        simp_all
      · simp_all [ih h]

/-- A signed LEB128 number ends at the first byte without the continuation bit. -/
theorem readSleb_rest {shift : Nat} {acc v : UInt64} {bytes rest : List UInt8}
    (h : readSleb shift acc bytes = .ok (v, rest)) : rest = bytes.drop (lebLength bytes) := by
  induction bytes generalizing shift acc with
  | nil => simp [readSleb] at h
  | cons b bytes ih =>
    rw [readSleb] at h
    rw [lebLength_cons]
    split at h
    · cases h
    · split at h
      · cases h
        simp_all
      · simp_all [ih h]

theorem readFixed_rest {n v : Nat} {bytes rest : List UInt8}
    (h : readFixed n bytes = .ok (v, rest)) : rest = bytes.drop n ∧ n ≤ bytes.length := by
  unfold readFixed at h
  split at h
  · cases h
  · cases h
    exact ⟨rfl, by omega⟩

theorem operand_eq_ok {α : Type} {r : Except OperandError α} {a : α} :
    operand r = .ok a ↔ r = .ok a := by
  cases r <;> simp [operand]

theorem registerOperand_rest {n : Nat} {bytes rest : List UInt8}
    (h : registerOperand bytes = .ok (n, rest)) : rest = bytes.drop (lebLength bytes) := by
  unfold registerOperand at h
  obtain ⟨⟨v, r⟩, hv, hk⟩ := except_bind_eq_ok.1 h
  dsimp only at hk
  split at hk
  · cases hk
    exact readUleb_rest (operand_eq_ok.1 hv)
  · cases hk

/-! ## Lifting reads into the evaluation monad -/

section Lift

variable {m : Type → Type} [Monad m] [LawfulMonad m] {ε α β γ : Type}

@[simp] theorem lift_ok_bind (a : α) (k : α → ExceptT ε m β) :
    (monadLift (Except.ok a : Except ε α) : ExceptT ε m α) >>= k = k a := by
  apply ExceptT.ext
  simp [ExceptT.run_bind, monadLift, MonadLift.monadLift, ExceptT.run_mk]

@[simp] theorem lift_error_bind (e : ε) (k : α → ExceptT ε m β) :
    (monadLift (Except.error e : Except ε α) : ExceptT ε m α) >>= k = throw e := by
  apply ExceptT.ext
  simp [ExceptT.run_bind, monadLift, MonadLift.monadLift, ExceptT.run_mk]

theorem lift_bind_congr {x : Except ε α} {k k' : α → ExceptT ε m β}
    (h : ∀ a, x = .ok a → k a = k' a) :
    (monadLift x : ExceptT ε m α) >>= k = monadLift x >>= k' := by
  cases x with
  | error e => simp
  | ok a => simp [h a rfl]

theorem lift_bind (x : Except ε α) (f : α → Except ε β) (k : β → ExceptT ε m γ) :
    (monadLift (x >>= f) : ExceptT ε m β) >>= k = monadLift x >>= fun a => monadLift (f a) >>= k := by
  cases x with
  | error e => exact (lift_error_bind (m := m) e k).trans (lift_error_bind e _).symm
  | ok a => exact (lift_ok_bind (m := m) a fun a => monadLift (f a) >>= k).symm

end Lift

/-! ## Agreement with the evaluator -/

section Agreement

variable {m : Type → Type} [Monad m] [LawfulMonad m] {β : Type}

theorem fixedOperand_eq_ok {n v w : Nat} {bytes : List UInt8} (h : fixedOperand n bytes = .ok (v, w)) :
    w = n ∧ n ≤ bytes.length := by
  obtain ⟨⟨v', rest⟩, hv, hk⟩ := except_bind_eq_ok.1 h
  cases hk
  exact ⟨rfl, (readFixed_rest (operand_eq_ok.1 hv)).2⟩

theorem lift_readFixed_bind (n : Nat) (bytes : List UInt8)
    (k : Nat × List UInt8 → ExceptT DebugError m β) :
    (monadLift (operand (readFixed n bytes)) : ExceptT DebugError m _) >>= k =
      monadLift (fixedOperand n bytes) >>= fun x => k (x.1, bytes.drop x.2) := by
  rw [fixedOperand, lift_bind]
  refine lift_bind_congr fun x h => ?_
  obtain ⟨v, rest⟩ := x
  rw [(readFixed_rest (operand_eq_ok.1 h)).1]
  simp

theorem lift_uleb_bind (bytes : List UInt8) (k : UInt64 × List UInt8 → ExceptT DebugError m β) :
    (monadLift (operand (uleb bytes)) : ExceptT DebugError m _) >>= k =
      monadLift (unsignedOperand bytes) >>= fun x => k (x.1, bytes.drop x.2) := by
  rw [unsignedOperand, lift_bind]
  refine lift_bind_congr fun x h => ?_
  obtain ⟨v, rest⟩ := x
  rw [readUleb_rest (operand_eq_ok.1 h)]
  simp

theorem lift_sleb_bind (bytes : List UInt8) (k : UInt64 × List UInt8 → ExceptT DebugError m β) :
    (monadLift (operand (sleb bytes)) : ExceptT DebugError m _) >>= k =
      monadLift (signedOperand bytes) >>= fun x => k (UInt64.ofInt x.1, bytes.drop x.2) := by
  rw [signedOperand, lift_bind]
  refine lift_bind_congr fun x h => ?_
  obtain ⟨v, rest⟩ := x
  rw [readSleb_rest (operand_eq_ok.1 h)]
  simp

theorem lift_registerOperand_bind (bytes : List UInt8) (k : Nat × List UInt8 → ExceptT DebugError m β) :
    (monadLift (registerOperand bytes) : ExceptT DebugError m _) >>= k =
      monadLift (registerNumber bytes) >>= fun x => k (x.1, bytes.drop x.2) := by
  rw [registerNumber, lift_bind]
  refine lift_bind_congr fun x h => ?_
  obtain ⟨v, rest⟩ := x
  rw [registerOperand_rest h]
  simp

theorem lift_pop_bind (op : UInt8) (stack : List UInt64)
    (k : UInt64 × List UInt64 → ExceptT DebugError m β) :
    (monadLift (pop op stack) : ExceptT DebugError m _) >>= k =
      match stack with
      | v :: s => k (v, s)
      | [] => throw (underflow op) := by
  cases stack <;> simp [pop, underflow]

theorem lift_peek_bind (op : UInt8) (i : Nat) (stack : List UInt64)
    (k : UInt64 → ExceptT DebugError m β) :
    (monadLift (peek op i stack) : ExceptT DebugError m _) >>= k =
      match stack[i]? with
      | some v => k v
      | none => throw (underflow op) := by
  unfold peek
  split <;> simp_all [underflow]

/-- A result with its position replaced by the bytes from that position on. -/
def Result.atBytes (code : List UInt8) : Result → Outcome
  | .next pc stack => .next ⟨code.drop pc, stack⟩
  | .done loc => .done loc

@[simp] theorem lift_pure_bind {ε α : Type} (a : α) (k : α → ExceptT ε m β) :
    (monadLift (pure a : Except ε α) : ExceptT ε m α) >>= k = k a :=
  lift_ok_bind a k

@[simp] theorem map_throw {ε α : Type} (f : α → β) (e : ε) :
    f <$> (throw e : ExceptT ε m α) = throw e := by
  apply ExceptT.ext
  simp

/-- A branch measured back from the remaining bytes lands where the branch measured from the
start of the expression does. -/
theorem lift_jump_bind (code : List UInt8) {p : Nat} (hp : p ≤ code.length) (d : Int)
    (s : List UInt64) :
    ((monadLift (jump code (code.drop p) d) : ExceptT DebugError m _) >>=
        fun rest => pure (Outcome.next ⟨rest, s⟩)) =
      Result.atBytes code <$> branch code.length (p + d) d s := by
  have hpos : code.length - (code.drop p).length = p := by rw [List.length_drop]; omega
  unfold jump branch
  simp only [hpos]
  split
  · simp only [lift_ok_bind, map_pure, Result.atBytes]
  · simp only [lift_error_bind, map_throw]

theorem step_eq (ctx : Context m) (code : List UInt8) (pc : Nat) (op : UInt8)
    (stack : List UInt64) :
    Expression.step ctx code op (code.drop (pc + 1)) stack =
      Result.atBytes code <$> StackMachine.step ctx code pc op stack := by
  unfold Expression.step StackMachine.step decode
  simp only [map_bind, lift_readFixed_bind, lift_uleb_bind, lift_sleb_bind,
    lift_registerOperand_bind]
  by_cases hlit : 0x30 ≤ op.toNat ∧ op.toNat ≤ 0x4f
  · simp only [if_pos hlit, lift_pure_bind, Op.exec, map_pure, Result.atBytes]
  by_cases hreg : 0x50 ≤ op.toNat ∧ op.toNat ≤ 0x6f
  · simp only [if_neg hlit, if_pos hreg, lift_pure_bind, Op.exec, map_pure, Result.atBytes]
  by_cases hbreg : 0x70 ≤ op.toNat ∧ op.toNat ≤ 0x8f
  · simp only [if_neg hlit, if_neg hreg, if_pos hbreg, lift_bind, lift_pure_bind, Op.exec,
      map_pure, map_bind, Result.atBytes, List.drop_drop, UInt64.ofInt_add, ofInt_natCast,
      UInt64.ofNat_toNat]
  simp only [if_neg hlit, if_neg hreg, if_neg hbreg, isBinary_eq]
  cases hb : BinOp.ofCode op.toNat with
  | some b =>
    simp only [Option.isSome_some, if_true, lift_pure_bind, binary_eq_eval hb]
    rcases stack with _ | ⟨r, _ | ⟨l, s⟩⟩ <;>
      simp only [lift_pop_bind, Op.exec, map_pure, map_bind, map_throw, Result.atBytes,
        Nat.add_zero]
  | none =>
    simp only [Option.isSome_none, Bool.false_eq_true, if_false]
    generalize op.toNat = n at *
    -- the remaining operations, in the order the evaluator lists them
    split
    all_goals simp only [lift_pure_bind, lift_bind, List.drop_drop, Nat.add_zero]
    -- `addr`, the `const` forms, `regx` and `nop` push a value or end without the stack
    case h_1 | h_2 | h_3 | h_4 | h_5 | h_6 | h_7 | h_8 | h_9 | h_10 | h_11 | h_14 | h_32 =>
      simp only [Op.exec, map_pure, Result.atBytes]
    -- `fbreg`
    case h_12 =>
      refine lift_bind_congr (m := m) fun x _ => ?_
      simp only [Op.exec]
      cases ctx.frameBase <;> simp only [map_pure, map_throw, Result.atBytes,
        UInt64.ofInt_add, ofInt_natCast, UInt64.ofNat_toNat]
    -- `bregx`
    case h_13 =>
      simp only [Op.exec, map_pure, map_bind, Result.atBytes, Nat.add_assoc, UInt64.ofInt_add,
        ofInt_natCast, UInt64.ofNat_toNat]
    -- `call_frame_cfa`
    case h_15 =>
      simp only [Op.exec]
      cases ctx.cfa <;> simp only [map_pure, map_throw, Result.atBytes]
    -- `stack_value`, `dup`, `drop`, `deref`, `abs`, `not`, `plus_uconst` and `piece` read the top
    case h_16 | h_17 | h_18 | h_23 | h_25 | h_27 | h_28 | h_31 =>
      rcases stack with _ | ⟨a, s⟩ <;>
        simp only [lift_pop_bind, lift_peek_bind, Op.exec, map_pure, map_bind, map_throw,
          Result.atBytes, List.getElem?_cons_zero, List.getElem?_nil, abs_eq, not_eq,
          UInt64.ofNat_add, UInt64.ofNat_toNat]
    -- `neg`
    case h_26 =>
      rcases stack with _ | ⟨a, s⟩ <;>
        simp only [lift_pop_bind, Op.exec, map_pure, map_throw, Result.atBytes, neg_eq]
    -- `over` and `swap` read two entries, `rot` three
    case h_19 | h_21 =>
      rcases stack with _ | ⟨a, _ | ⟨b, s⟩⟩ <;>
        simp only [lift_pop_bind, lift_peek_bind, Op.exec, map_pure, map_throw, Result.atBytes,
          List.getElem?_cons_zero, List.getElem?_cons_succ, List.getElem?_nil]
    case h_22 =>
      rcases stack with _ | ⟨a, _ | ⟨b, _ | ⟨c, s⟩⟩⟩ <;>
        simp only [lift_pop_bind, Op.exec, map_pure, map_throw, Result.atBytes]
    -- `pick`
    case h_20 =>
      refine lift_bind_congr (m := m) fun x _ => ?_
      simp only [lift_peek_bind, Op.exec]
      cases stack[x.1]? <;> simp only [map_pure, map_throw, Result.atBytes]
    -- `deref_size` checks its size before it reads the stack
    case h_24 =>
      refine lift_bind_congr (m := m) fun x _ => ?_
      by_cases hsize : x.1 = 0 ∨ x.1 > 8
      · simp only [if_pos hsize, lift_error_bind]
      · simp only [if_neg hsize, lift_pure_bind]
        rcases stack with _ | ⟨a, s⟩ <;>
          simp only [lift_pop_bind, Op.exec, map_bind, map_pure, map_throw, Result.atBytes]
    -- `skip` and `bra`: the two operand bytes were there, so the branch starts inside the code
    case h_29 =>
      refine lift_bind_congr (m := m) fun x hx => ?_
      obtain ⟨d, w⟩ := x
      obtain ⟨rfl, hlen⟩ := fixedOperand_eq_ok hx
      exact lift_jump_bind code (by rw [List.length_drop] at hlen; omega) _ _
    case h_30 =>
      refine lift_bind_congr (m := m) fun x hx => ?_
      obtain ⟨d, w⟩ := x
      obtain ⟨rfl, hlen⟩ := fixedOperand_eq_ok hx
      rcases stack with _ | ⟨c, s⟩
      · simp only [lift_pop_bind, Op.exec, map_throw]
      · simp only [lift_pop_bind, Op.exec]
        by_cases hc : c ≠ 0
        · simp only [if_pos hc]
          exact lift_jump_bind code (by rw [List.length_drop] at hlen; omega) _ _
        · simp only [if_neg hc, map_pure, Result.atBytes]
    -- an operation outside the table
    case h_33 => simp only [lift_error_bind]

/-- From any position, the evaluator run on the bytes from there computes what the stack
machine computes from that position. -/
theorem run_eq (ctx : Context m) (code : List UInt8) (fuel pc : Nat) (stack : List UInt64) :
    Expression.run ctx code fuel ⟨code.drop pc, stack⟩ = StackMachine.run ctx code fuel pc stack := by
  -- induction on the operation budget, which both machines spend one operation at a time
  induction fuel generalizing pc stack with
  | zero =>
    unfold StackMachine.run
    cases hpc : code[pc]? with
    | none =>
      rw [List.drop_eq_nil_of_le (List.getElem?_eq_none_iff.1 hpc)]
      cases stack <;> simp only [Expression.run]
    | some op =>
      obtain ⟨hlt, rfl⟩ := List.getElem?_eq_some_iff.1 hpc
      rw [List.drop_eq_getElem_cons hlt]
      simp only [Expression.run]
  | succ fuel ih =>
    unfold StackMachine.run
    cases hpc : code[pc]? with
    | none =>
      rw [List.drop_eq_nil_of_le (List.getElem?_eq_none_iff.1 hpc)]
      cases stack <;> simp only [Expression.run]
    | some op =>
      obtain ⟨hlt, rfl⟩ := List.getElem?_eq_some_iff.1 hpc
      rw [List.drop_eq_getElem_cons hlt]
      simp only [Expression.run, step_eq, bind_map_left]
      refine bind_congr fun r => ?_
      cases r with
      | next pc' stack' => exact ih pc' stack'
      | done loc => rfl

end Agreement

end RemoteDebugger.StackMachine

namespace RemoteDebugger.Expression

/-- The evaluator is the DWARF stack machine: for every byte string and every context it
computes the same location, or fails with the same error. -/
theorem evaluate_eq_stackMachine {m : Type → Type} [Monad m] [LawfulMonad m] (code : List UInt8)
    (ctx : Context m) : evaluate code ctx = StackMachine.evaluate code ctx := by
  have h := StackMachine.run_eq ctx code maxOperations 0 []
  rw [List.drop_zero] at h
  exact h

/-- The agreement for `const1s -7; lit2; div` in a context without registers, in `Id`. -/
theorem evaluate_eq_stackMachine_signedDivision :
    evaluate (m := Id) [0x09, 0xf9, 0x32, 0x1b] { register := fun _ => none, readMemory := fun a _ => pure a } =
      StackMachine.evaluate [0x09, 0xf9, 0x32, 0x1b]
        { register := fun _ => none, readMemory := fun a _ => pure a } :=
  evaluate_eq_stackMachine _ _

end RemoteDebugger.Expression
