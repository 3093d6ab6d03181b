import RemoteDebugger.Unwind.Frames
import RemoteDebugger.Proofs.Symbols.Indices

/-!
# Recovering a caller's registers

`Unwinder.previousFrame` recovers each caller register by the rule in force at the program
counter, all assigned at once (`recoversCaller_of_build`).
-/

namespace RemoteDebugger

open Std DatabaseBuilder

/-! ## Rule registers in order -/

namespace RuleRegister

/-- The place of a register in rule order: the canonical frame address, then the machine
registers by number. -/
def rank : RuleRegister → Nat
  | .cfa => 0
  | .dwarf n => n.toNat + 1

theorem rank_injective : Function.Injective rank := by
  intro a b h
  cases a <;> cases b <;> simp_all [rank, UInt16.toNat_inj]

theorem compare_eq (a b : RuleRegister) : compare a b = compare a.rank b.rank := by
  cases a <;> cases b <;>
    simp [compare, instOrdRuleRegister.ord, rank, compareOfLessAndEq, UInt16.lt_iff_toNat_lt,
      ← UInt16.toNat_inj]

instance : TransOrd RuleRegister where
  eq_swap {a b} := by rw [compare_eq, compare_eq]; exact OrientedCmp.eq_swap
  isLE_trans {a b c} := by simp only [compare_eq]; exact TransCmp.isLE_trans

instance : LawfulEqOrd RuleRegister where
  compare_self {a} := by rw [compare_eq]; exact ReflCmp.compare_self
  eq_of_compare {a b} h := by
    rw [compare_eq] at h
    exact rank_injective (LawfulEqCmp.eq_of_compare h)

end RuleRegister

/-! ## The rules in force at an address -/

/-- The rule in force for a register at an address: among the rules for it at or below the
address, those at the greatest address, and of these the one added last. -/
def Rule.inForce (rules : List Rule) (a : UInt64) (reg : RuleRegister) : Option Rule :=
  let earlier := rules.filter fun r => r.register = reg ∧ r.address ≤ a
  (earlier.filter fun r => earlier.all (·.address ≤ r.address)).getLast?

section Sorted

variable {α : Type} {key : α → UInt64}

/-- In a list sorted by key, the leading elements at or below a bound are all such elements. -/
theorem takeWhile_le_eq_filter (a : UInt64) :
    ∀ l : List α, l.Pairwise (fun x y => key x ≤ key y) →
      l.takeWhile (fun x => key x ≤ a) = l.filter (fun x => key x ≤ a)
  | [], _ => rfl
  | x :: xs, h => by
    rw [List.pairwise_cons] at h
    by_cases hx : key x ≤ a
    · simp [hx, takeWhile_le_eq_filter a xs h.2]
    · -- every later element has a key at least this one's, so none is at or below the bound
      have hrest : xs.filter (fun y => key y ≤ a) = [] :=
        List.filter_eq_nil_iff.2 fun y hy hya => hx (UInt64.le_trans (h.1 y hy) (by simpa using hya))
      simp [hx, hrest]

theorem StableSort.filter {l s : List α} (h : StableSort key l s) (p : α → Bool) :
    StableSort key (l.filter p) (s.filter p) := by
  refine ⟨h.1.filter p, fun v => ?_⟩
  have hcomm : ∀ m : List α, (m.filter p).filter (fun x => key x = v) =
      (m.filter (fun x => key x = v)).filter p := by
    intro m
    simp only [List.filter_filter, Bool.and_comm]
  rw [hcomm, hcomm, h.2 v]

theorem StableSort.mem_iff {l s : List α} (h : StableSort key l s) (x : α) : x ∈ s ↔ x ∈ l := by
  have hx := h.2 (key x)
  constructor
  · intro hs
    have : x ∈ s.filter (fun y => key y = key x) := List.mem_filter.2 ⟨hs, by simp⟩
    rw [hx] at this
    exact (List.mem_filter.1 this).1
  · intro hl
    have : x ∈ l.filter (fun y => key y = key x) := List.mem_filter.2 ⟨hl, by simp⟩
    rw [← hx] at this
    exact (List.mem_filter.1 this).1

/-- The last element of a stable sort is the last added of those with the greatest key. -/
theorem StableSort.getLast? {l s : List α} (h : StableSort key l s) :
    s.getLast? = (l.filter fun x => l.all (key · ≤ key x)).getLast? := by
  cases hs : s.getLast? with
  | none =>
    have hl : l = [] := List.eq_nil_iff_forall_not_mem.2 fun x hx => by
      rw [List.getLast?_eq_none_iff] at hs
      exact absurd (hs ▸ (h.mem_iff x).2 hx) List.not_mem_nil
    simp [hl]
  | some m =>
    obtain ⟨s', rfl⟩ := List.getLast?_eq_some_iff.1 hs
    have hm : m ∈ l := (h.mem_iff m).1 (by simp)
    -- the sort puts the greatest key last, so the greatest keys of `l` are `m`'s
    have hmax : ∀ x ∈ l, key x ≤ key m := by
      intro x hx
      rcases List.mem_append.1 ((h.mem_iff x).2 hx) with hx' | hx'
      · exact (List.pairwise_append.1 h.1).2.2 x hx' m (by simp)
      · rw [List.mem_singleton.1 hx']
        exact UInt64.le_refl _
    have htop : l.filter (fun x => l.all (key · ≤ key x)) = l.filter (fun x => key x = key m) := by
      refine List.filter_congr fun x hx => ?_
      have hiff : (∀ y ∈ l, key y ≤ key x) ↔ key x = key m :=
        ⟨fun hall => UInt64.le_antisymm (hmax x hx) (hall m hm), fun heq y hy => heq ▸ hmax y hy⟩
      rw [Bool.eq_iff_iff, List.all_eq_true]
      simpa using hiff
    rw [htop, ← h.2 (key m), List.filter_append]
    simp

end Sorted

namespace CallFrame

/-- Inserting rules one after another keeps the last of each register. -/
theorem getElem?_foldl_insert_rule (l : List Rule) (m : RuleSet) (reg : RuleRegister) :
    (l.foldl (fun m r => m.insert r.register r) m)[reg]? =
      (l.filter (·.register = reg)).getLast?.or m[reg]? := by
  induction l generalizing m with
  | nil => simp
  | cons r l ih =>
    rw [List.foldl_cons, ih, TreeMap.getElem?_insert, List.filter_cons]
    by_cases hr : r.register = reg
    · simp only [hr, compare_self, if_true, decide_true, List.getLast?_cons]
      cases (l.filter (·.register = reg)).getLast? <;> rfl
    · have hne : compare r.register reg ≠ .eq := fun h => hr (LawfulEqCmp.eq_of_compare h)
      simp [hr, hne]

/-- The rule `rulesAt` finds for a register is the one in force among the rules sorted. -/
theorem getElem?_rulesAt {l sorted : List Rule} (h : StableSort (·.address) l sorted)
    (x a : UInt64) (reg : RuleRegister) :
    (CallFrame.rulesAt ⟨x, sorted⟩ a)[reg]? = Rule.inForce l a reg := by
  unfold CallFrame.rulesAt
  rw [takeWhile_le_eq_filter a _ h.1, getElem?_foldl_insert_rule, TreeMap.getElem?_emptyc,
    Option.or_none, List.filter_filter]
  -- the rules for the register at or below the address, sorted, are a stable sort of them
  have hsort := h.filter (fun r => r.register = reg ∧ r.address ≤ a)
  rw [Rule.inForce, ← hsort.getLast?]
  congr 1
  refine List.filter_congr fun r _ => ?_
  simp

end CallFrame

/-! ## Register files -/

namespace Registers

/-- The DWARF numbers a register file holds: the general registers, `eflags` and the segments. -/
def Tracked (n : Nat) : Prop := n < 17 ∨ n = dwarfEflags ∨ (50 ≤ n ∧ n < 56)

instance (n : Nat) : Decidable (Tracked n) := inferInstanceAs (Decidable (_ ∨ _ ∨ _))

theorem get_eq_none_iff (r : Registers) (n : Nat) : r.get n = none ↔ ¬ Tracked n := by
  unfold get Tracked
  split
  · simp_all
  · split
    · simp_all
    · split <;> simp_all

/-- A register reads back what was written to it, cut to its width. -/
theorem get_set_self {n : Nat} (h : Tracked n) (r : Registers) (v : UInt64) :
    (r.set n v).get n = some (if n < 17 then v else v.toUInt32.toUInt64) := by
  unfold set set? get Tracked at *
  by_cases h17 : n < 17
  · simp [h17]
  · by_cases he : n = dwarfEflags
    · simp [he, dwarfEflags]
    · have hs : 50 ≤ n ∧ n < 56 := by omega
      simp [h17, he, hs]

/-- Writing one register leaves every other as it was. -/
theorem get_set_of_ne (r : Registers) {m n : Nat} (h : m ≠ n) (v : UInt64) :
    (r.set m v).get n = r.get n := by
  -- a write changes the one slot of `m`: a general register, `eflags` or a segment
  unfold set set? get
  by_cases hm17 : m < 17
  · simp only [hm17, dite_true, Option.getD_some]
    split
    · simp [h]
    · rfl
  · by_cases hme : m = dwarfEflags
    · simp only [hme, if_true]
      split
      · rfl
      · split
        · exact absurd ‹_› (Ne.symm (hme ▸ h))
        · rfl
    · by_cases hms : 50 ≤ m ∧ m < 56
      · simp only [hm17, hme, hms, dite_false, if_false]
        split
        · rfl
        · split
          · rfl
          · split
            · have : m - 50 ≠ n - 50 := by omega
              simp [this]
            · rfl
      · simp [hm17, hme, hms]

/-- What a register reads after a write to it does not depend on the file written. -/
theorem get_set_congr (r r' : Registers) (n : Nat) (v : UInt64) :
    (r.set n v).get n = (r'.set n v).get n := by
  by_cases h : Tracked n
  · rw [get_set_self h, get_set_self h]
  · have hset : ∀ q : Registers, q.set n v = q := by
      intro q
      have h17 : ¬ n < 17 := fun h17 => h (.inl h17)
      have hflags : n ≠ dwarfEflags := fun he => h (.inr (.inl he))
      have hseg : ¬ (50 ≤ n ∧ n < 56) := fun hs => h (.inr (.inr hs))
      simp [set, set?, h17, hflags, hseg]
    rw [hset, hset, (get_eq_none_iff r n).2 h, (get_eq_none_iff r' n).2 h]

/-- Apply a write of a value to a register, if there is one. -/
def write (r : Registers) : Option (Nat × UInt64) → Registers
  | some w => r.set w.1 w.2
  | none => r

end Registers

/-! ## Failing and succeeding maps -/

section Except

variable {α β γ ε : Type}

/-- A map in `Except` fails with the error of the first element that fails. -/
theorem mapM_eq_error_iff (o : α → Except ε β) (e : ε) :
    ∀ L : List α, L.mapM o = .error e ↔
      ∃ pre x post, L = pre ++ x :: post ∧ (∀ y ∈ pre, ∃ w, o y = .ok w) ∧ o x = .error e
  | [] => by simp [List.mapM_nil, pure, Except.pure]
  | y :: L => by
    -- the first element fails, or it succeeds and the error comes from the rest
    have hsplit : (∃ pre x post, y :: L = pre ++ x :: post ∧ (∀ z ∈ pre, ∃ w, o z = .ok w) ∧
          o x = .error e) ↔
        o y = .error e ∨ ((∃ w, o y = .ok w) ∧ ∃ pre x post, L = pre ++ x :: post ∧
          (∀ z ∈ pre, ∃ w, o z = .ok w) ∧ o x = .error e) := by
      constructor
      · rintro ⟨_ | ⟨z, pre⟩, x, post, hL, hpre, hx⟩
        · obtain ⟨rfl, -⟩ := List.cons.inj hL
          exact .inl hx
        · obtain ⟨rfl, rfl⟩ := List.cons.inj hL
          exact .inr ⟨hpre y List.mem_cons_self, pre, x, post, rfl,
            fun q hq => hpre q (List.mem_cons_of_mem y hq), hx⟩
      · rintro (hx | ⟨hy, pre, x, post, rfl, hpre, hx⟩)
        · exact ⟨[], y, L, rfl, nofun, hx⟩
        · refine ⟨y :: pre, x, post, rfl, ?_, hx⟩
          rintro z (_ | ⟨_, hz⟩)
          · exact hy
          · exact hpre z hz
    rw [hsplit, ← mapM_eq_error_iff o e L, List.mapM_cons]
    cases o y <;> cases L.mapM o <;> simp [bind, Except.bind, pure, Except.pure]

/-- A map in `Except` succeeds exactly when every element does, with their results. -/
theorem mapM_eq_ok_iff (o : α → Except ε β) :
    ∀ (L : List α) (ws : List β), L.mapM o = .ok ws ↔ List.Forall₂ (fun x w => o x = .ok w) L ws
  | [], ws => by cases ws <;> simp [List.mapM_nil, pure, Except.pure]
  | y :: L, ws => by
    rw [List.mapM_cons]
    cases ws with
    | nil => cases o y <;> cases L.mapM o <;> simp [bind, Except.bind, pure, Except.pure]
    | cons w ws =>
      rw [List.forall₂_cons, ← mapM_eq_ok_iff o L ws]
      cases o y <;> cases L.mapM o <;> simp [bind, Except.bind, pure, Except.pure]

theorem except_map_eq_error_iff (f : α → β) (x : Except ε α) (e : ε) :
    x.map f = .error e ↔ x = .error e := by
  cases x <;> simp [Except.map]

theorem except_map_eq_ok_iff (f : α → β) (x : Except ε α) (b : β) :
    x.map f = .ok b ↔ ∃ a, x = .ok a ∧ f a = b := by
  cases x <;> simp [Except.map]

/-- A fold in `ExceptT _ Id` whose step only transforms the accumulator by a result worked out
apart from it runs as a map followed by a plain fold. -/
theorem foldlM_run_eq_mapM (f : β → α → ExceptT ε Id β) (o : α → Except ε γ) (g : β → γ → β)
    (hf : ∀ b x, (f b x).run = (o x).map (g b)) :
    ∀ (L : List α) (b : β), (L.foldlM f b).run = (L.mapM o).map (·.foldl g b)
  | [], b => rfl
  | x :: L, b => by
    rw [List.foldlM_cons, List.mapM_cons, ExceptT.run_bind, hf]
    cases o x with
    | error e => rfl
    | ok c =>
      change (L.foldlM f (g b c)).run = _
      rw [foldlM_run_eq_mapM f o g hf L (g b c)]
      cases L.mapM o <;> rfl

end Except

/-! ## One step of unwinding -/

namespace Unwinder

/-- What one rule does to the caller's registers, worked out from the callee's registers and the
canonical frame address alone: a write, nothing, or an error. The rule for the canonical frame
address writes nothing here. -/
def effect (u : Unwinder Id) (r : Registers) (cfa : Address) :
    RuleRegister × Rule → Except DebugError (Option (Nat × UInt64))
  | (.cfa, _) => .ok none
  | (.dwarf n, rule) => Except.map (Option.map (n.toNat, ·)) (u.recover r cfa n rule.kind).run

/-- With the counter inside the module, the rules are those of the counter's frame. -/
theorem rulesFor_of_le {m : Type → Type} [Monad m] (u : Unwinder m) (r : Registers)
    (h : u.base ≤ r.pc) :
    u.rulesFor r = (u.db.callFrameForAddress (r.pc - u.base)).map (·.rulesAt (r.pc - u.base)) := by
  simp [rulesFor, Address.relativeTo, h]
  cases u.db.callFrameForAddress (r.pc - u.base) <;> rfl

/-- `previousFrame`, run: the CFA, then every rule's effect in register order, then the writes,
and last the stack pointer unless a rule gave it. -/
theorem previousFrame_run (u : Unwinder Id) (r : Registers) :
    (u.previousFrame r).run =
      match u.cfa r, u.rulesFor r with
      | .error e, _ => .error e
      | .ok (some c), some R =>
        (R.toList.mapM (u.effect r c)).map fun ws =>
          let caller := ws.foldl Registers.write r
          some (if R.contains (.dwarf (UInt16.ofNat dwarfRsp)) then caller
            else caller.set dwarfRsp c)
      | .ok _, _ => .ok none := by
  unfold previousFrame
  cases u.cfa r with
  | error e => rfl
  | ok o =>
    cases o with
    | none => rfl
    | some c =>
      cases u.rulesFor r with
      | none => rfl
      | some R =>
        simp only [liftM, monadLift, MonadLift.monadLift, ExceptT.run_bind, ExceptT.run_mk, pure_bind]
        rw [foldlM_run_eq_mapM _ (u.effect r c) Registers.write ?step]
        · cases R.toList.mapM (u.effect r c) with
          | error e => rfl
          | ok ws =>
            by_cases hrsp : R.contains (.dwarf (UInt16.ofNat dwarfRsp)) = true
            · simp only [hrsp, if_true]
              rfl
            · simp only [hrsp, Bool.false_eq_true, if_false]
              rfl
        -- each rule's step writes what its effect, worked out from the callee, says
        · rintro b ⟨_ | n, rule⟩
          · rfl
          · simp only [effect, ExceptT.run_bind]
            cases (u.recover r c n rule.kind).run with
            | error e => rfl
            | ok d => cases d <;> rfl

/-- Among the rules in force, the first for a register is its only one. -/
theorem find?_toList_eq (R : RuleSet) (reg : RuleRegister) :
    R.toList.find? (·.1 = reg) = R[reg]?.map (reg, ·) := by
  cases h : R[reg]? with
  | none =>
    rw [Option.map_none, List.find?_eq_none]
    rintro ⟨k, rule⟩ hmem hk
    rw [TreeMap.mem_toList_iff_getElem?_eq_some] at hmem
    have hk' : k = reg := by simpa using hk
    rw [hk', h] at hmem
    cases hmem
  | some rule =>
    have hmem : (reg, rule) ∈ R.toList := TreeMap.mem_toList_iff_getElem?_eq_some.2 h
    have hsome : (R.toList.find? (·.1 = reg)).isSome := List.find?_isSome.2 ⟨_, hmem, by simp⟩
    obtain ⟨⟨k, rule'⟩, hfind⟩ := Option.isSome_iff_exists.1 hsome
    have hk : k = reg := by simpa using List.find?_some hfind
    subst hk
    have hrule := TreeMap.mem_toList_iff_getElem?_eq_some.1 (List.mem_of_find?_eq_some hfind)
    rw [h, Option.some.injEq] at hrule
    rw [hfind, hrule]
    rfl

/-- No register has two rules in force. -/
theorem toList_keys_distinct (R : RuleSet) : R.toList.Pairwise (fun x y => x.1 ≠ y.1) := by
  refine (TreeMap.distinct_keys_toList (t := R)).imp ?_
  intro x y h heq
  exact h (heq ▸ compare_self)

/-- The rules in force are listed by ascending register. -/
theorem toList_rank_ascending (R : RuleSet) :
    R.toList.Pairwise (fun x y => x.1.rank < y.1.rank) := by
  refine (TreeMap.ordered_keys_toList (t := R)).imp ?_
  intro x y h
  rwa [RuleRegister.compare_eq, Nat.compare_eq_lt] at h

/-- After the writes of rules for distinct registers, a register holds what its own rule wrote,
or what it held before: no rule's write is seen by another rule. -/
theorem get_foldl_write (u : Unwinder Id) (r : Registers) (cfa : Address) {k : Nat}
    (hk : k < UInt16.size) :
    ∀ (L : List (RuleRegister × Rule)) (ws : List (Option (Nat × UInt64))) (b : Registers),
      L.Pairwise (fun x y => x.1 ≠ y.1) → List.Forall₂ (fun x w => u.effect r cfa x = .ok w) L ws →
      (ws.foldl Registers.write b).get k =
        match L.find? (·.1 = .dwarf (UInt16.ofNat k)) with
        | some (_, rule) =>
          match ((u.recover r cfa (UInt16.ofNat k) rule.kind).run :
            Except DebugError (Option UInt64)) with
          | .ok (some v) => (b.set k v).get k
          | _ => b.get k
        | none => b.get k
  | [], _, b, _, .nil => rfl
  | (reg, rule) :: L, w :: ws, b, hpair, .cons hx hL => by
    rw [List.pairwise_cons] at hpair
    rw [List.foldl_cons, get_foldl_write u r cfa hk L ws (b.write w) hpair.2 hL, List.find?_cons]
    by_cases hreg : reg = .dwarf (UInt16.ofNat k)
    · -- the register's own rule: no later rule is for it
      subst hreg
      have hrest : L.find? (·.1 = .dwarf (UInt16.ofNat k)) = none :=
        List.find?_eq_none.2 fun y hy hyk => hpair.1 y hy (by simp at hyk ⊢; exact hyk.symm)
      simp only [decide_true, hrest]
      simp only [effect] at hx
      cases hrec : ((u.recover r cfa (UInt16.ofNat k) rule.kind).run :
          Except DebugError (Option UInt64)) with
      | error e =>
        rw [hrec] at hx
        cases hx
      | ok d =>
        rw [hrec] at hx
        cases d with
        | none =>
          cases hx
          rfl
        | some v =>
          cases hx
          have hmod : k % 65536 = k := Nat.mod_eq_of_lt hk
          simp [Registers.write, hmod]
    · -- another register's rule writes elsewhere, or nowhere
      have hw : (b.write w).get k = b.get k := by
        cases reg with
        | cfa =>
          cases hx
          rfl
        | dwarf n =>
          have hn : n.toNat ≠ k := fun h => hreg (by rw [← h, UInt16.ofNat_toNat])
          simp only [effect] at hx
          cases hrec : ((u.recover r cfa n rule.kind).run : Except DebugError (Option UInt64)) with
          | error e =>
            rw [hrec] at hx
            cases hx
          | ok d =>
            rw [hrec] at hx
            cases d with
            | none =>
              cases hx
              rfl
            | some v =>
              cases hx
              exact Registers.get_set_of_ne b hn v
      simp only [hreg, decide_false]
      rcases hfind : L.find? (·.1 = .dwarf (UInt16.ofNat k)) with _ | ⟨_, rule'⟩
      · simp only [hfind]
        exact hw
      · simp only [hfind]
        split <;> simp [hw, Registers.get_set_congr (b.write w) b]


section Outcome

variable {u : Unwinder Id} {r : Registers} {R : RuleSet} {rule : Rule}

/-- With a rule for the canonical frame address, there is an address or an error. -/
theorem cfa_ne_ok_none (hR : u.rulesFor r = some R) (hrule : R[RuleRegister.cfa]? = some rule) :
    u.cfa r ≠ .ok none := by
  unfold cfa
  rw [hR, Option.bind_some, hrule]
  simp only
  split
  · rename_i n off _
    cases registerValue r n <;> simp [Functor.map, Except.map]
  · simp

/-- The canonical frame address of a register plus an offset. -/
theorem cfa_of_valOffset {n : UInt16} {off : Int} {v : UInt64} (hR : u.rulesFor r = some R)
    (hrule : R[RuleRegister.cfa]? = some rule) (hkind : rule.kind = .valOffset (.dwarf n) off)
    (hv : r.get n.toNat = some v) : u.cfa r = .ok (some (Address.offset v off)) := by
  simp only [cfa, hR, Option.bind_some, hrule, hkind, registerValue, hv]
  rfl

/-- There is no caller exactly when there is no rule for the canonical frame address. -/
theorem previousFrame_eq_none_iff (u : Unwinder Id) (r : Registers) :
    (u.previousFrame r).run = Except.ok none ↔ (u.rulesFor r).bind (·[RuleRegister.cfa]?) = none := by
  rw [previousFrame_run]
  cases hR : u.rulesFor r with
  | none =>
    have hcfa : u.cfa r = .ok none := by simp [cfa, hR]
    simp [hcfa]
  | some R =>
    cases hrule : R[RuleRegister.cfa]? with
    | none =>
      have hcfa : u.cfa r = .ok none := by simp [cfa, hR, hrule]
      simp [hcfa, hrule]
    | some rule =>
      have hne := cfa_ne_ok_none hR hrule
      simp only [Option.bind_some, hrule, reduceCtorEq, iff_false]
      cases hcfa : u.cfa r with
      | error e => nofun
      | ok o =>
        cases o with
        | none => exact absurd hcfa hne
        | some c =>
          cases hm : R.toList.mapM (u.effect r c) with
          | error e => simp [hm, Except.map]
          | ok ws =>
            simp only [hm, Except.map]
            nofun

/-- A canonical frame address other than a register plus an offset is refused. -/
theorem cfa_unsupported (hR : u.rulesFor r = some R) (hrule : R[RuleRegister.cfa]? = some rule)
    (hkind : ∀ n off, rule.kind ≠ .valOffset (.dwarf n) off) :
    u.cfa r = .error (.unsupported ("CFA rule " ++ rule.kind.render)) := by
  unfold cfa
  rw [hR, Option.bind_some, hrule]
  -- the match takes its last branch: its side condition, that the kind is not a register plus
  -- an offset, is `hkind`
  simp only

/-- So is one based on a register the file does not hold. -/
theorem cfa_untracked {n : UInt16} {off : Int} (hR : u.rulesFor r = some R)
    (hrule : R[RuleRegister.cfa]? = some rule) (hkind : rule.kind = .valOffset (.dwarf n) off)
    (hv : r.get n.toNat = none) :
    u.cfa r = .error (.registerAccess ("DWARF register " ++ toString n ++ " is not tracked")) := by
  simp only [cfa, hR, Option.bind_some, hrule, hkind, registerValue, hv]
  rfl

theorem previousFrame_of_cfa_error {e : DebugError} (h : u.cfa r = .error e) :
    (u.previousFrame r).run = Except.error e := by
  rw [previousFrame_run, h]

/-- Past the canonical frame address, the error is that of the first rule, in register order,
whose effect fails. -/
theorem previousFrame_eq_error_iff {c : Address} (hR : u.rulesFor r = some R)
    (hcfa : u.cfa r = .ok (some c)) (e : DebugError) :
    (u.previousFrame r).run = Except.error e ↔ ∃ pre x post, R.toList = pre ++ x :: post ∧
      (∀ y ∈ pre, ∃ w, u.effect r c y = .ok w) ∧ u.effect r c x = .error e := by
  rw [previousFrame_run, hcfa, hR, ← mapM_eq_error_iff]
  exact except_map_eq_error_iff _ _ e

/-- On success, each register the caller's file holds is what its own rule gives from the callee's
registers, the callee's value without a rule, and the canonical frame address for the stack
pointer without a rule. -/
theorem get_caller {c : Address} {caller : Registers} (hR : u.rulesFor r = some R)
    (hcfa : u.cfa r = .ok (some c)) (h : (u.previousFrame r).run = Except.ok (some caller))
    {k : Nat} (hk : Registers.Tracked k) :
    caller.get k =
      if k = dwarfRsp ∧ R[RuleRegister.dwarf (UInt16.ofNat dwarfRsp)]? = none then some c
      else
        match R[RuleRegister.dwarf (UInt16.ofNat k)]? with
        | some rule =>
          match ((u.recover r c (UInt16.ofNat k) rule.kind).run :
            Except DebugError (Option UInt64)) with
          | .ok (some w) => (r.set k w).get k
          | _ => r.get k
        | none => r.get k := by
  rw [previousFrame_run, hcfa, hR] at h
  obtain ⟨ws, hws, hcaller⟩ := (except_map_eq_ok_iff _ _ _).1 h
  simp only [Option.some.injEq] at hcaller
  subst hcaller
  have hk16 : k < UInt16.size := by
    unfold Registers.Tracked dwarfEflags at hk
    simp only [UInt16.size]
    omega
  -- every rule's write lands in its own register
  have hwrites : (ws.foldl Registers.write r).get k =
      match R[RuleRegister.dwarf (UInt16.ofNat k)]? with
      | some rule =>
        match ((u.recover r c (UInt16.ofNat k) rule.kind).run :
          Except DebugError (Option UInt64)) with
        | .ok (some w) => (r.set k w).get k
        | _ => r.get k
      | none => r.get k := by
    rw [get_foldl_write u r c hk16 R.toList ws r (toList_keys_distinct R)
      ((mapM_eq_ok_iff _ _ _).1 hws), find?_toList_eq]
    cases R[RuleRegister.dwarf (UInt16.ofNat k)]? <;> rfl
  by_cases hrsp : R[RuleRegister.dwarf (UInt16.ofNat dwarfRsp)]? = none
  · -- without a rule of its own, the stack pointer becomes the canonical frame address
    have hcontains : R.contains (.dwarf (UInt16.ofNat dwarfRsp)) = false := by
      rw [TreeMap.contains_eq_isSome_getElem?, hrsp]
      rfl
    simp only [hcontains, Bool.false_eq_true, if_false]
    by_cases hk7 : k = dwarfRsp
    · subst hk7
      rw [if_pos ⟨rfl, hrsp⟩, Registers.get_set_self hk]
      simp [dwarfRsp]
    · rw [if_neg (fun h => hk7 h.1), Registers.get_set_of_ne _ (Ne.symm hk7), hwrites]
  · have hcontains : R.contains (.dwarf (UInt16.ofNat dwarfRsp)) = true := by
      rw [TreeMap.contains_eq_isSome_getElem?]
      exact Option.isSome_iff_ne_none.2 hrsp
    simp only [hcontains, if_true]
    rw [if_neg (fun h => hrsp h.2)]
    exact hwrites

end Outcome


/-! ## The caller of a frame -/

open Collected

/-- What recovering the caller does, for a module whose call frame information was built from
`steps` and a callee whose program counter lies in the module. -/
structure RecoversCaller (steps : List BuildStep) (u : Unwinder Id) (callee : Registers) :
    Prop where
  /-- The rules in force are those of the counter's frame: for each register, the last added
  of the frame's rules for it at the greatest address at or below the counter. -/
  rules : ∀ F, u.db.callFrameForAddress (callee.pc - u.base) = some F → ∃ R,
    u.rulesFor callee = some R ∧
      ∀ reg, R[reg]? = Rule.inForce (rulesOf steps F.address) (callee.pc - u.base) reg
  /-- Outside every frame there are no rules. -/
  no_frame : u.db.callFrameForAddress (callee.pc - u.base) = none → u.rulesFor callee = none
  /-- There is no caller exactly when there is no rule for the canonical frame address. -/
  top : (u.previousFrame callee).run = Except.ok none ↔
    (u.rulesFor callee).bind (·[RuleRegister.cfa]?) = none
  /-- A canonical frame address other than a register plus an offset is refused, -/
  cfa_unsupported : ∀ R rule, u.rulesFor callee = some R → R[RuleRegister.cfa]? = some rule →
    (∀ n off, rule.kind ≠ .valOffset (.dwarf n) off) →
    (u.previousFrame callee).run = Except.error (.unsupported ("CFA rule " ++ rule.kind.render))
  /-- and so is one based on a register the file does not hold. -/
  cfa_untracked : ∀ R rule n off, u.rulesFor callee = some R →
    R[RuleRegister.cfa]? = some rule → rule.kind = .valOffset (.dwarf n) off →
    callee.get n.toNat = none → (u.previousFrame callee).run =
      Except.error (.registerAccess ("DWARF register " ++ toString n ++ " is not tracked"))
  /-- The rules are worked out in ascending register order, -/
  ascending : ∀ R, u.rulesFor callee = some R → R.toList.Pairwise (fun x y => x.1.rank < y.1.rank)
  /-- from the callee's registers and the canonical frame address, and the error is that of the
  first rule whose effect fails. -/
  first_error : ∀ R rule n off v e, u.rulesFor callee = some R →
    R[RuleRegister.cfa]? = some rule → rule.kind = .valOffset (.dwarf n) off →
    callee.get n.toNat = some v →
    ((u.previousFrame callee).run = Except.error e ↔ ∃ pre x post, R.toList = pre ++ x :: post ∧
      (∀ y ∈ pre, ∃ w, u.effect callee (Address.offset v off) y = .ok w) ∧
      u.effect callee (Address.offset v off) x = .error e)
  /-- Each register the caller's file holds is what its own rule gives from the callee's
  registers, the callee's value without a rule, and the canonical frame address for the stack
  pointer without a rule. -/
  caller : ∀ R rule n off v caller, u.rulesFor callee = some R →
    R[RuleRegister.cfa]? = some rule → rule.kind = .valOffset (.dwarf n) off →
    callee.get n.toNat = some v → (u.previousFrame callee).run = Except.ok (some caller) →
    ∀ k, Registers.Tracked k → caller.get k =
      if k = dwarfRsp ∧ R[RuleRegister.dwarf (UInt16.ofNat dwarfRsp)]? = none then
        some (Address.offset v off)
      else
        match R[RuleRegister.dwarf (UInt16.ofNat k)]? with
        | some rule =>
          match ((u.recover callee (Address.offset v off) (UInt16.ofNat k) rule.kind).run :
            Except DebugError (Option UInt64)) with
          | .ok (some w) => (callee.set k w).get k
          | _ => callee.get k
        | none => callee.get k

/-- The caller of a frame of an accepted database is recovered from the rules in force at its
counter, each register's being the last added at the greatest address, by a simultaneous
assignment from the callee's registers. -/
theorem recoversCaller_of_build {steps : List BuildStep} {u : Unwinder Id}
    (h : (ofSteps steps).build = .ok u.db) (callee : Registers) (hpc : u.base ≤ callee.pc) :
    RecoversCaller steps u callee where
  rules F hF := by
    refine ⟨F.rulesAt (callee.pc - u.base), by rw [rulesFor_of_le u callee hpc, hF]; rfl,
      fun reg => ?_⟩
    rw [callFrameForAddress_of_build h] at hF
    obtain ⟨b, -, rfl⟩ := Option.map_eq_some_iff.1 hF
    exact CallFrame.getElem?_rulesAt (sortRules_stable _) _ _ _
  no_frame hF := by
    rw [rulesFor_of_le u callee hpc, hF]
    rfl
  top := previousFrame_eq_none_iff u callee
  cfa_unsupported _ _ hR hrule hkind := previousFrame_of_cfa_error (cfa_unsupported hR hrule hkind)
  cfa_untracked _ _ _ _ hR hrule hkind hv :=
    previousFrame_of_cfa_error (cfa_untracked hR hrule hkind hv)
  ascending R _ := toList_rank_ascending R
  first_error _ _ _ _ _ e hR hrule hkind hv :=
    previousFrame_eq_error_iff hR (cfa_of_valOffset hR hrule hkind hv) e
  caller _ _ _ _ _ _ hR hrule hkind hv hcaller _ hk :=
    get_caller hR (cfa_of_valOffset hR hrule hkind hv) hcaller hk

/-- A frame whose canonical frame address moves from `rsp + 8` to `rsp + 16` at `0x14`, where
`rbp` and the return address are saved below it. -/
def pushFrameSteps : List BuildStep :=
  [.callFrame 0x10,
   .rule 0x10 ⟨0x10, .cfa, .valOffset (.dwarf 7) 8⟩,
   .rule 0x10 ⟨0x10, .dwarf 16, .offset .cfa (-8)⟩,
   .rule 0x10 ⟨0x14, .cfa, .valOffset (.dwarf 7) 16⟩,
   .rule 0x10 ⟨0x14, .dwarf 6, .offset .cfa (-16)⟩]

/-- A callee stopped inside that frame, with the module loaded at `0x400000`. -/
def pushFrameCallee : Registers := (({} : Registers).setPc 0x400018).set dwarfRsp 0x7ff0

theorem recoversCaller_pushFrame :
    ∃ db, (ofSteps pushFrameSteps).build = .ok db ∧
      RecoversCaller pushFrameSteps ⟨db, 0x400000, fun _ _ => pure []⟩ pushFrameCallee :=
  ⟨_, rfl, recoversCaller_of_build (u := ⟨_, 0x400000, fun _ _ => pure []⟩) rfl pushFrameCallee
    (by decide)⟩

end Unwinder

end RemoteDebugger
