import RemoteDebugger.Proofs.Unwind.CallerRegisters
import RemoteDebugger.Symbols.Loader

/-!
# The rules of an unwind table

What `addFrame` adds for an FDE's table (`tableRules`), and that reading it back at row `i`
gives the rules row `i` describes (`RowInForce`).
-/

namespace RemoteDebugger

open Std Dwarf

namespace Loader

/-- The registers a row of an unwind table has a rule for, in the order stored. -/
def registersOf (row : UnwindRow) : List Nat := row.rules.toList.map (·.1)

/-- The rules `addFrame` adds for a row after a row whose registers were `previous`, all at the
row's address: the CFA rule, a rule for each register the row has one for, and `SameValue` for
each register of `previous` that the row has no rule for. -/
def rowRules (previous : List Nat) (row : UnwindRow) : List Rule :=
  ⟨row.start.toUInt64, .cfa, cfaKind row.cfa⟩ ::
    (row.rules.toList.map fun p => ⟨row.start.toUInt64, .dwarf p.1.toUInt16, registerKind p.2⟩) ++
    ((previous.filter fun r => !(registersOf row).contains r).mergeSort.map
      fun r => ⟨row.start.toUInt64, .dwarf r.toUInt16, .sameValue⟩)

/-- The rules `addFrame` adds for the rows of a table, row after row. -/
def tableRules : List Nat → List UnwindRow → List Rule
  | _, [] => []
  | previous, row :: rows => rowRules previous row ++ tableRules (registersOf row) rows

/-- The registers of the last of some rows, or `previous` when there are none. -/
def lastRegisters (previous : List Nat) (rows : List UnwindRow) : List Nat :=
  (rows.getLast?.map registersOf).getD previous

/-- An unwind table as call frame information describes it: its rows start at strictly
increasing 64-bit addresses, and each row has at most one rule for each 16-bit register. -/
structure WellFormedRows (rows : List UnwindRow) : Prop where
  ascending : rows.Pairwise (·.start < ·.start)
  addresses : ∀ row ∈ rows, row.start < UInt64.size
  registers : ∀ row ∈ rows, ∀ n ∈ registersOf row, n < UInt16.size
  distinct : ∀ row ∈ rows, (registersOf row).Nodup

/-- The rules in force that a row of an unwind table describes after the rows `earlier`: the
row's CFA rule, the rule of each register the row has one for, `SameValue` for each register an
earlier row had a rule for and this row has not, and nothing for any other register. -/
structure RowInForce (R : RuleSet) (earlier : List UnwindRow) (row : UnwindRow) : Prop where
  cfa : R[RuleRegister.cfa]?.map (·.kind) = some (cfaKind row.cfa)
  saved : ∀ n rule, (n, rule) ∈ row.rules →
    R[RuleRegister.dwarf n.toUInt16]?.map (·.kind) = some (registerKind rule)
  dropped : ∀ n, n ∉ registersOf row → (∃ e ∈ earlier, n ∈ registersOf e) →
    R[RuleRegister.dwarf n.toUInt16]?.map (·.kind) = some .sameValue
  unknown : ∀ r : UInt16, (∀ e ∈ earlier ++ [row], r.toNat ∉ registersOf e) →
    R[RuleRegister.dwarf r]? = none

/-! ## What adding an FDE adds -/

/-- Adding an FDE starts its frame and adds the rules of its table in order. -/
theorem addFrame_eq (b : DatabaseBuilder) (start : Nat) (rows : Array UnwindRow) :
    addFrame b start rows = (tableRules [] rows.toList).foldl (fun b r => b.addRule start.toUInt64 r)
      (b.addCallFrame start.toUInt64) := by
  unfold addFrame
  simp only [Id.run, Array.forIn_pure_yield_eq_foldl, List.forIn_pure_yield_eq_foldl, pure_bind]
  rw [← Array.foldl_toList]
  change (List.foldl _ (b.addCallFrame start.toUInt64, ([] : List Nat)) rows.toList).1 = _
  generalize b.addCallFrame start.toUInt64 = b₀
  generalize ([] : List Nat) = previous
  -- the loop carries the builder and the registers of the row before
  induction rows.toList generalizing b₀ previous with
  | nil => rfl
  | cons row rows ih =>
    rw [List.foldl_cons, ih, tableRules, List.foldl_append]
    congr 1
    simp only [rowRules, registersOf, List.foldl_cons, List.foldl_append, List.foldl_map,
      Array.foldl_toList]

theorem getElem?_addRule (b : DatabaseBuilder) (frame : UInt64) (r : Rule) (k : UInt64) :
    (b.addRule frame r).callFrames[k]? =
      if k = frame then b.callFrames[k]?.map (·.push r) else b.callFrames[k]? := by
  unfold DatabaseBuilder.addRule
  split
  · rename_i rules hrules
    rw [TreeMap.getElem?_insert]
    by_cases hk : k = frame
    · simp [hk, hrules]
    · simp [hk, Ne.symm hk]
  · rename_i hnone
    by_cases hk : k = frame
    · simp [hk, hnone]
    · simp [hk]

/-- Rules added to a frame go after its rules, in order; a frame not started stays unstarted. -/
theorem getElem?_foldl_addRule (frame : UInt64) (rs : List Rule) (b : DatabaseBuilder) (k : UInt64) :
    (rs.foldl (fun b r => b.addRule frame r) b).callFrames[k]? =
      if k = frame then b.callFrames[k]?.map (· ++ rs.toArray) else b.callFrames[k]? := by
  induction rs generalizing b with
  | nil => split <;> simp_all
  | cons r rs ih =>
    rw [List.foldl_cons, ih, getElem?_addRule]
    split
    · simp [Option.map_map, Function.comp_def]
    · rfl

theorem getElem?_addCallFrame (b : DatabaseBuilder) (a k : UInt64) :
    (b.addCallFrame a).callFrames[k]? =
      if k = a then some (b.callFrames[k]?.getD #[]) else b.callFrames[k]? := by
  unfold DatabaseBuilder.addCallFrame
  split
  · rename_i hmem
    split
    · rename_i hk
      subst hk
      obtain ⟨rules, hrules⟩ := Option.isSome_iff_exists.1 (TreeMap.isSome_getElem?_iff_mem.2 hmem)
      simp [hrules]
    · rfl
  · rename_i hmem
    rw [TreeMap.getElem?_insert]
    by_cases hk : k = a
    · subst hk
      simp [TreeMap.getElem?_eq_none hmem]
    · simp [hk, Ne.symm hk]

/-- After an FDE, its frame holds what it held before and then the rules of the FDE's table. -/
theorem getElem?_addFrame (b : DatabaseBuilder) (start : Nat) (rows : Array UnwindRow) (k : UInt64) :
    (addFrame b start rows).callFrames[k]? =
      if k = start.toUInt64 then some (b.callFrames[k]?.getD #[] ++ (tableRules [] rows.toList).toArray)
      else b.callFrames[k]? := by
  rw [addFrame_eq, getElem?_foldl_addRule, getElem?_addCallFrame]
  split <;> simp_all

/-- After a list of FDEs, the frame at an address holds the rules of the tables of the FDEs that
start there, in order. -/
theorem getElem?_foldl_addFrame (frames : List (Nat × Array UnwindRow)) (b : DatabaseBuilder)
    (k : UInt64) :
    (frames.foldl (fun b p => addFrame b p.1 p.2) b).callFrames[k]? =
      if ∃ p ∈ frames, p.1.toUInt64 = k then
        some (b.callFrames[k]?.getD #[] ++
          ((frames.filter (·.1.toUInt64 = k)).flatMap fun p => tableRules [] p.2.toList).toArray)
      else b.callFrames[k]? := by
  induction frames generalizing b with
  | nil => simp
  | cons p frames ih =>
    rw [List.foldl_cons, ih, getElem?_addFrame]
    by_cases hp : p.1.toUInt64 = k
    · -- the frame at `k` gains this FDE's rules before those of the later FDEs there
      subst hp
      by_cases hrest : ∃ q ∈ frames, q.1.toUInt64 = p.1.toUInt64
      · simp [hrest, Array.append_assoc]
      · have hnil : frames.filter (·.1.toUInt64 = p.1.toUInt64) = [] :=
          List.filter_eq_nil_iff.2 fun q hq hqk => hrest ⟨q, hq, of_decide_eq_true hqk⟩
        simp [hrest, hnil]
    · have hk : k ≠ p.1.toUInt64 := Ne.symm hp
      have hex : (∃ q ∈ p :: frames, q.1.toUInt64 = k) ↔ ∃ q ∈ frames, q.1.toUInt64 = k := by
        simp only [List.mem_cons, exists_eq_or_imp, hp, false_or]
      rw [if_neg hk, List.filter_cons_of_neg (by simpa using hp)]
      simp only [hex]

/-! ## Words of the table -/

theorem toNat_toUInt64 {n : Nat} (h : n < UInt64.size) : n.toUInt64.toNat = n := by
  simp only [Nat.toUInt64_eq, UInt64.toNat_ofNat']
  exact Nat.mod_eq_of_lt h

theorem toUInt16_inj {m n : Nat} (hm : m < UInt16.size) (hn : n < UInt16.size) :
    m.toUInt16 = n.toUInt16 ↔ m = n := by
  constructor
  · intro h
    have h' := congrArg UInt16.toNat h
    simp only [Nat.toUInt16_eq, UInt16.toNat_ofNat'] at h'
    rwa [Nat.mod_eq_of_lt hm, Nat.mod_eq_of_lt hn] at h'
  · rintro rfl
    rfl

/-! ## Where the rules of a table sit -/

theorem address_of_mem_rowRules {previous : List Nat} {row : UnwindRow} {r : Rule}
    (h : r ∈ rowRules previous row) : r.address = row.start.toUInt64 := by
  simp only [rowRules, List.mem_cons, List.mem_append, List.mem_map] at h
  rcases h with (rfl | ⟨p, -, rfl⟩) | ⟨x, -, rfl⟩ <;> rfl

theorem address_of_mem_tableRules {previous : List Nat} {rows : List UnwindRow} {r : Rule}
    (h : r ∈ tableRules previous rows) : ∃ row ∈ rows, r.address = row.start.toUInt64 := by
  induction rows generalizing previous with
  | nil => cases h
  | cons row rows ih =>
    rcases List.mem_append.1 h with h | h
    · exact ⟨row, List.mem_cons_self, address_of_mem_rowRules h⟩
    · obtain ⟨row', hrow', haddr⟩ := ih h
      exact ⟨row', List.mem_cons_of_mem row hrow', haddr⟩

theorem tableRules_append (previous : List Nat) (rows rows' : List UnwindRow) :
    tableRules previous (rows ++ rows') =
      tableRules previous rows ++ tableRules (lastRegisters previous rows) rows' := by
  induction rows generalizing previous with
  | nil => simp [tableRules, lastRegisters]
  | cons row rows ih =>
    rw [List.cons_append, tableRules, tableRules, ih, List.append_assoc]
    -- the row before the appended rows is the last of `row :: rows`
    cases rows with
    | nil => rfl
    | cons row' rows =>
      simp only [lastRegisters, List.getLast?_cons, Option.map_some, Option.getD_some]

/-- The rules of a table are in address order when its rows are. -/
theorem tableRules_sorted {previous : List Nat} {rows : List UnwindRow}
    (hsorted : rows.Pairwise (·.start < ·.start)) (hwords : ∀ row ∈ rows, row.start < UInt64.size) :
    (tableRules previous rows).Pairwise (·.address ≤ ·.address) := by
  induction rows generalizing previous with
  | nil => exact List.Pairwise.nil
  | cons row rows ih =>
    rw [List.pairwise_cons] at hsorted
    refine List.pairwise_append.2 ⟨?_, ih hsorted.2 fun r hr => hwords r (List.mem_cons_of_mem _ hr), ?_⟩
    · -- one row's rules share its address
      refine List.pairwise_of_forall_mem_list fun x hx y hy => ?_
      rw [address_of_mem_rowRules hx, address_of_mem_rowRules hy]
      exact UInt64.le_refl _
    · intro x hx y hy
      obtain ⟨row', hrow', hy'⟩ := address_of_mem_tableRules hy
      rw [address_of_mem_rowRules hx, hy', UInt64.le_iff_toNat_le,
        toNat_toUInt64 (hwords row List.mem_cons_self),
        toNat_toUInt64 (hwords row' (List.mem_cons_of_mem _ hrow'))]
      exact Nat.le_of_lt (hsorted.1 row' hrow')

/-- The rules at or below an address are those of the rows that start at or below it. -/
theorem filter_tableRules_le {previous : List Nat} {pre post : List UnwindRow} {a : UInt64}
    (hpre : ∀ row ∈ pre, row.start.toUInt64 ≤ a) (hpost : ∀ row ∈ post, a < row.start.toUInt64) :
    (tableRules previous (pre ++ post)).filter (fun r => r.address ≤ a) = tableRules previous pre := by
  rw [tableRules_append, List.filter_append, List.filter_eq_self.2, List.filter_eq_nil_iff.2,
    List.append_nil]
  · intro r hr hle
    obtain ⟨row, hrow, haddr⟩ := address_of_mem_tableRules hr
    rw [haddr] at hle
    exact absurd (of_decide_eq_true hle) (UInt64.not_le.2 (hpost row hrow))
  · intro r hr
    obtain ⟨row, hrow, haddr⟩ := address_of_mem_tableRules hr
    rw [haddr]
    exact decide_eq_true (hpre row hrow)

/-! ## The last rule of a register -/

/-- The first components of a list of pairs without repeats single out one pair. -/
theorem filter_fst_eq_singleton {α : Type} {l : List (Nat × α)} (hnodup : (l.map (·.1)).Nodup)
    {n : Nat} {x : α} (hmem : (n, x) ∈ l) : l.filter (·.1 = n) = [(n, x)] := by
  induction l with
  | nil => cases hmem
  | cons p l ih =>
    rw [List.map_cons, List.nodup_cons] at hnodup
    rcases List.mem_cons.1 hmem with rfl | hmem
    · have hrest : l.filter (·.1 = n) = [] := List.filter_eq_nil_iff.2 fun q hq hqn => by
        have hq' : q.1 ∈ l.map (·.1) := List.mem_map_of_mem hq
        rw [of_decide_eq_true hqn] at hq'
        exact hnodup.1 hq'
      simp [hrest]
    · have hne : p.1 ≠ n := fun h => hnodup.1 (h ▸ List.mem_map_of_mem (f := (·.1)) hmem)
      rw [List.filter_cons_of_neg (by simpa using hne), ih hnodup.2 hmem]

/-- Of a list of copies of one rule, the last is that rule, if there is any. -/
theorem getLast?_map_filter_eq {α β : Type} [DecidableEq α] (l : List α) (n : α) (g : α → β) :
    ((l.filter (· = n)).map g).getLast? = if n ∈ l then some (g n) else none := by
  rw [List.filter_eq, List.map_replicate, List.getLast?_replicate]
  by_cases hn : n ∈ l
  · rw [if_neg (Nat.pos_iff_ne_zero.1 (List.count_pos_iff.2 hn)), if_pos hn]
  · rw [if_pos (List.count_eq_zero.2 hn), if_neg hn]

section Registers

variable {previous : List Nat} {row : UnwindRow} {n : Nat}

theorem filter_rowRules_cfa :
    (rowRules previous row).filter (·.register = .cfa) = [⟨row.start.toUInt64, .cfa, cfaKind row.cfa⟩] := by
  simp [rowRules, List.filter_map, Function.comp_def]

/-- The rules of a row for a register: its own rule, then `SameValue` when the row before had
one and this row has none. -/
theorem filter_rowRules_dwarf (hrow : ∀ m ∈ registersOf row, m < UInt16.size)
    (hprevious : ∀ m ∈ previous, m < UInt16.size) (hn : n < UInt16.size) :
    (rowRules previous row).filter (·.register = .dwarf n.toUInt16) =
      (row.rules.toList.filter (·.1 = n)).map
          (fun p => ⟨row.start.toUInt64, .dwarf p.1.toUInt16, registerKind p.2⟩) ++
        (((previous.filter fun r => !(registersOf row).contains r).mergeSort.filter (· = n)).map
          fun r => ⟨row.start.toUInt64, .dwarf r.toUInt16, .sameValue⟩) := by
  simp only [rowRules, List.filter_cons, List.filter_append, List.filter_map, Function.comp_def,
    reduceCtorEq, decide_false, Bool.false_eq_true, if_false, RuleRegister.dwarf.injEq]
  congr 2
  · refine List.filter_congr fun p hp => ?_
    have hp' : p.1 < UInt16.size := hrow p.1 (List.mem_map_of_mem hp)
    simp only [toUInt16_inj hp' hn]
  · refine List.filter_congr fun r hr => ?_
    have hr' : r < UInt16.size := hprevious r (List.mem_filter.1 (List.mem_mergeSort.1 hr)).1
    simp only [toUInt16_inj hr' hn]

/-- The last rule of a row for a register it has a rule for is that rule. -/
theorem getLast?_rowRules_saved (hrow : ∀ m ∈ registersOf row, m < UInt16.size)
    (hprevious : ∀ m ∈ previous, m < UInt16.size) (hdistinct : (registersOf row).Nodup)
    {rule : RegRule} (hmem : (n, rule) ∈ row.rules) :
    ((rowRules previous row).filter (·.register = .dwarf n.toUInt16)).getLast? =
      some ⟨row.start.toUInt64, .dwarf n.toUInt16, registerKind rule⟩ := by
  have hn : n ∈ registersOf row := List.mem_map_of_mem (f := (·.1)) (Array.mem_toList_iff.2 hmem)
  rw [filter_rowRules_dwarf hrow hprevious (hrow n hn),
    filter_fst_eq_singleton hdistinct (Array.mem_toList_iff.2 hmem)]
  -- the row has a rule for the register, so no `SameValue` follows it
  have hsame : ((previous.filter fun r => !(registersOf row).contains r).mergeSort.filter (· = n)) = [] :=
    List.filter_eq_nil_iff.2 fun r hr hrn => by
      have := (List.mem_filter.1 (List.mem_mergeSort.1 hr)).2
      rw [of_decide_eq_true hrn] at this
      simp [hn] at this
  rw [hsame]
  rfl

/-- A row without a rule for a register adds `SameValue` for it exactly when the row before had
one. -/
theorem getLast?_rowRules_dropped (hrow : ∀ m ∈ registersOf row, m < UInt16.size)
    (hprevious : ∀ m ∈ previous, m < UInt16.size) (hn : n < UInt16.size) (hnot : n ∉ registersOf row) :
    ((rowRules previous row).filter (·.register = .dwarf n.toUInt16)).getLast? =
      if n ∈ previous then some ⟨row.start.toUInt64, .dwarf n.toUInt16, .sameValue⟩ else none := by
  rw [filter_rowRules_dwarf hrow hprevious hn]
  have hown : row.rules.toList.filter (·.1 = n) = [] := List.filter_eq_nil_iff.2 fun p hp hpn =>
    hnot (of_decide_eq_true hpn ▸ List.mem_map_of_mem hp)
  rw [hown, List.map_nil, List.nil_append, getLast?_map_filter_eq]
  simp [hnot]

/-- After any rows, the last register rule of a row that has none for it is `SameValue` when
an earlier row, or the row before them all, had one, and there is none otherwise. -/
theorem kind_tableRules_dropped (hn : n < UInt16.size) (hnot : n ∉ registersOf row) :
    ∀ (init : List UnwindRow) (previous : List Nat),
      (∀ m ∈ previous, m < UInt16.size) → (∀ e ∈ init ++ [row], ∀ m ∈ registersOf e, m < UInt16.size) →
      (((tableRules previous (init ++ [row])).filter (·.register = .dwarf n.toUInt16)).getLast?).map
          (·.kind) =
        if n ∈ previous ∨ ∃ e ∈ init, n ∈ registersOf e then some .sameValue else none
  | [], previous, hprevious, hregs => by
    rw [List.nil_append, tableRules, tableRules, List.append_nil,
      getLast?_rowRules_dropped (hregs row List.mem_cons_self) hprevious hn hnot]
    by_cases hp : n ∈ previous <;> simp [hp]
  | e :: init, previous, hprevious, hregs => by
    have he : ∀ m ∈ registersOf e, m < UInt16.size := hregs e List.mem_cons_self
    have hrest := kind_tableRules_dropped hn hnot init (registersOf e) he
      fun e' he' => hregs e' (List.mem_cons_of_mem e he')
    rw [List.cons_append, tableRules, List.filter_append, List.getLast?_append, Option.map_or, hrest]
    -- a later row that drops the register decides; otherwise this row does
    by_cases hlater : n ∈ registersOf e ∨ ∃ e' ∈ init, n ∈ registersOf e'
    · simp only [if_pos hlater, Option.some_or, List.mem_cons, exists_eq_or_imp]
      rw [if_pos (Or.inr hlater)]
    · have hne : n ∉ registersOf e := fun h => hlater (Or.inl h)
      rw [if_neg hlater, Option.none_or, getLast?_rowRules_dropped he hprevious hn hne]
      simp only [List.mem_cons, exists_eq_or_imp]
      by_cases hp : n ∈ previous <;> simp [hp, hlater]

end Registers

/-- The rules in force after the rules of a table up to a row are those the row describes. -/
theorem rowInForce_foldl_tableRules {init : List UnwindRow} {row : UnwindRow}
    (hrows : WellFormedRows (init ++ [row])) :
    RowInForce ((tableRules [] (init ++ [row])).foldl (fun (m : RuleSet) r => m.insert r.register r) ∅) init row := by
  have hregs := hrows.registers
  have hrow : ∀ m ∈ registersOf row, m < UInt16.size := hregs row (by simp)
  -- the registers of the row before `row` are those of a row of the table
  have hlast : ∀ m ∈ lastRegisters [] init, m < UInt16.size := by
    intro m hm
    unfold lastRegisters at hm
    cases hl : init.getLast? with
    | none => simp [hl] at hm
    | some e =>
      rw [hl, Option.map_some, Option.getD_some] at hm
      exact hregs e (List.mem_append_left _ (List.mem_of_getLast? hl)) m hm
  have hlookup : ∀ reg, ((tableRules [] (init ++ [row])).foldl (fun (m : RuleSet) r => m.insert r.register r) ∅)[reg]? =
      ((tableRules [] (init ++ [row])).filter (·.register = reg)).getLast? := by
    intro reg
    rw [CallFrame.getElem?_foldl_insert_rule, TreeMap.getElem?_emptyc, Option.or_none]
  -- the rules of `row` come last, after those of the rows before it
  have hsplit : ∀ reg, ((tableRules [] (init ++ [row])).filter (·.register = reg)).getLast? =
      (((rowRules (lastRegisters [] init) row).filter (·.register = reg)).getLast?).or
        ((tableRules [] init).filter (·.register = reg)).getLast? := by
    intro reg
    rw [tableRules_append, tableRules, tableRules, List.append_nil, List.filter_append,
      List.getLast?_append]
  refine ⟨?_, ?_, ?_, ?_⟩
  · rw [hlookup, hsplit, filter_rowRules_cfa]
    rfl
  · intro n rule hmem
    rw [hlookup, hsplit, getLast?_rowRules_saved hrow hlast (hrows.distinct row (by simp)) hmem]
    rfl
  · intro n hnot hearlier
    have hn : n < UInt16.size := by
      obtain ⟨e, he, hne⟩ := hearlier
      exact hregs e (List.mem_append_left _ he) n hne
    rw [hlookup, kind_tableRules_dropped hn hnot init [] nofun hregs, if_pos (Or.inr hearlier)]
  · intro r hnone
    have hnot : r.toNat ∉ registersOf row := hnone row (by simp)
    have hkind := kind_tableRules_dropped r.toNat_lt hnot init [] nofun hregs
    rw [if_neg (by simpa using fun e he => hnone e (List.mem_append_left _ he)),
      Option.map_eq_none_iff] at hkind
    rw [hlookup, ← hkind, Nat.toUInt16_eq, UInt16.ofNat_toNat]

/-! ## Reading a table back -/

namespace WellFormedRows

variable {rows : List UnwindRow}

theorem sublist {rows' : List UnwindRow} (h : WellFormedRows rows) (hsub : rows'.Sublist rows) :
    WellFormedRows rows' :=
  ⟨h.ascending.sublist hsub, fun row hrow => h.addresses row (hsub.subset hrow),
    fun row hrow => h.registers row (hsub.subset hrow), fun row hrow => h.distinct row (hsub.subset hrow)⟩

theorem start_le (h : WellFormedRows rows) {j k : Nat} (hjk : j ≤ k) (hk : k < rows.length) :
    rows[j].start ≤ rows[k].start := by
  rcases Nat.eq_or_lt_of_le hjk with rfl | hlt
  · exact Nat.le_refl _
  · exact Nat.le_of_lt (List.pairwise_iff_getElem.1 h.ascending j k (Nat.lt_trans hlt hk) hk hlt)

end WellFormedRows

/-- A frame that holds the rules of a table reads, at an address in row `i`, the rules in force
that row `i` describes. -/
theorem rowInForce_rulesAt {rows : List UnwindRow} (hrows : WellFormedRows rows) {i : Nat}
    (hi : i < rows.length) {a : UInt64} (hrow : rows[i].start ≤ a.toNat)
    (hnext : ∀ h : i + 1 < rows.length, a.toNat < rows[i + 1].start) (x : UInt64) :
    RowInForce (CallFrame.rulesAt ⟨x, DatabaseBuilder.sortRules (tableRules [] rows)⟩ a) (rows.take i) rows[i] := by
  have hsorted := @tableRules_sorted [] rows hrows.ascending hrows.addresses
  have hsort : DatabaseBuilder.sortRules (tableRules [] rows) = tableRules [] rows :=
    List.mergeSort_of_pairwise (hsorted.imp fun h => decide_eq_true h)
  -- the rows up to `i` start at or below the address, the later ones above it
  have hpre : ∀ row ∈ rows.take (i + 1), row.start.toUInt64 ≤ a := by
    intro row hmem
    obtain ⟨j, hj, rfl⟩ := List.mem_take_iff_getElem.1 hmem
    have hj' : j ≤ i := Nat.lt_succ_iff.1 (Nat.lt_of_lt_of_le hj (Nat.min_le_left _ _))
    rw [UInt64.le_iff_toNat_le, toNat_toUInt64 (hrows.addresses _ (List.getElem_mem _))]
    exact Nat.le_trans (hrows.start_le hj' hi) hrow
  have hpost : ∀ row ∈ rows.drop (i + 1), a < row.start.toUInt64 := by
    intro row hmem
    obtain ⟨j, hj, rfl⟩ := List.mem_drop_iff_getElem.1 hmem
    have hnext' := hnext (by omega)
    rw [UInt64.lt_iff_toNat_lt, toNat_toUInt64 (hrows.addresses _ (List.getElem_mem _))]
    exact Nat.lt_of_lt_of_le hnext' (hrows.start_le (Nat.le_add_right _ _) _)
  have htake : rows.take (i + 1) = rows.take i ++ [rows[i]] := by
    rw [← List.take_concat_get hi, List.concat_eq_append]
  have hfilter := @filter_tableRules_le [] _ _ a hpre hpost
  rw [List.take_append_drop] at hfilter
  unfold CallFrame.rulesAt
  dsimp only
  rw [hsort, takeWhile_le_eq_filter a _ hsorted, hfilter, htake]
  refine rowInForce_foldl_tableRules (hrows.sublist ?_)
  rw [← htake]
  exact List.take_sublist _ _

end Loader

end RemoteDebugger
