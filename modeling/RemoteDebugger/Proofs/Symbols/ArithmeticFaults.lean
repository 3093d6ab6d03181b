import RemoteDebugger.Proofs.Symbols.TypeChains

/-!
# Where the symbol queries fault

Where the function, row and type queries stop with an arithmetic fault, and what they answer
otherwise (`symbolQueries_faults`).
-/

namespace RemoteDebugger

open Resolver

/-! ## Function ranges -/

/-- A subprogram's own code range `[low_pc, high_pc)` is not empty. -/
def Entry.HasOwnRange (e : Entry) : Prop :=
  ∃ low high, e.lowPc = some low ∧ e.highPc = some high ∧ low < high

/-- The fault that spanning a range list meets: a range whose start does not fit in 64 bits,
else, with every start fitting, a range whose end does not. -/
def RangeListFault (ranges : List RangeListEntry) (o : Overflow) : Prop :=
  (o = ⟨.add, .rangeLow⟩ ∧ ∃ x ∈ ranges, UInt64.size ≤ x.base.toNat + x.low.toNat) ∨
  (o = ⟨.add, .rangeHigh⟩ ∧ (∀ x ∈ ranges, x.base.toNat + x.low.toNat < UInt64.size) ∧
    ∃ x ∈ ranges, UInt64.size ≤ x.base.toNat + x.high.toNat)

/-- A list of checked sums faults exactly when one of the sums does not fit. -/
theorem mapM_add_eq_error_iff {α : Type} (site : OverflowSite) (a b : α → UInt64) (o : Overflow) :
    ∀ l : List α, l.mapM (fun x => Checked.add site (a x) (b x)) = .error o ↔
      o = ⟨.add, site⟩ ∧ ∃ x ∈ l, UInt64.size ≤ (a x).toNat + (b x).toNat
  | [] => by simp [pure, Except.pure]
  | x :: l => by
    have ih := mapM_add_eq_error_iff site a b o l
    rw [List.mapM_cons]
    by_cases hx : (a x).toNat + (b x).toNat < UInt64.size
    · -- the head fits: the fault, if any, is the tail's
      cases hl : l.mapM (fun x => Checked.add site (a x) (b x)) <;>
        simp_all [Checked.add, bind, Except.bind, pure, Except.pure, Nat.not_le_of_lt hx]
    · -- the head does not fit: the fault is its own
      simp [Checked.add, hx, bind, Except.bind, Nat.le_of_not_lt hx, eq_comm]

/-- Every sum of a list fits exactly when their walk does not fault. -/
theorem mapM_add_ok_iff {α : Type} (site : OverflowSite) (a b : α → UInt64) (l : List α) :
    (∃ ws, l.mapM (fun x => Checked.add site (a x) (b x)) = .ok ws) ↔
      ∀ x ∈ l, (a x).toNat + (b x).toNat < UInt64.size := by
  cases h : l.mapM (fun x => Checked.add site (a x) (b x)) with
  | error o =>
    obtain ⟨-, x, hx, hover⟩ := (mapM_add_eq_error_iff site a b o l).1 h
    simpa using ⟨x, hx, hover⟩
  | ok ws =>
    simp only [Except.ok.injEq, exists_eq', true_iff]
    intro x hx
    by_contra hover
    have := (mapM_add_eq_error_iff site a b ⟨.add, site⟩ l).2 ⟨rfl, x, hx, Nat.le_of_not_lt hover⟩
    rw [h] at this
    cases this

/-- Spanning a subprogram's range list faults exactly as `RangeListFault` says. -/
theorem spanOfRanges_eq_error_iff (r : Resolver) (e : Entry) (o : Overflow) :
    function.spanOfRanges r e = .error o ↔ RangeListFault (r.db.rangeList e.key) o := by
  unfold function.spanOfRanges RangeListFault
  dsimp only
  cases hl : (r.db.rangeList e.key).mapM (fun x => Checked.add .rangeLow x.base x.low) with
  | error o' =>
    -- a start does not fit: that is the fault
    obtain ⟨rfl, x, hx, hover⟩ := (mapM_add_eq_error_iff _ _ _ o' _).1 hl
    simp only [bind, Except.bind, Except.error.injEq]
    constructor
    · rintro rfl
      exact .inl ⟨rfl, x, hx, hover⟩
    · rintro (⟨rfl, -⟩ | ⟨-, hall, -⟩)
      · rfl
      · exact absurd (hall x hx) (Nat.not_lt_of_le hover)
  | ok lows =>
    have hlow := (mapM_add_ok_iff .rangeLow RangeListEntry.base RangeListEntry.low _).1 ⟨lows, hl⟩
    cases hh : (r.db.rangeList e.key).mapM (fun x => Checked.add .rangeHigh x.base x.high) with
    | error o' =>
      -- every start fits and an end does not
      obtain ⟨rfl, x, hx, hover⟩ := (mapM_add_eq_error_iff _ _ _ o' _).1 hh
      simp only [bind, Except.bind, Except.error.injEq]
      constructor
      · rintro rfl
        exact .inr ⟨rfl, hlow, x, hx, hover⟩
      · rintro (⟨-, y, hy, hover'⟩ | ⟨rfl, -⟩)
        · exact absurd (hlow y hy) (Nat.not_lt_of_le hover')
        · rfl
    | ok highs =>
      -- everything fits: no fault
      have hhigh := (mapM_add_ok_iff .rangeHigh RangeListEntry.base RangeListEntry.high _).1
        ⟨highs, hh⟩
      simp only [bind, Except.bind, pure, Except.pure, reduceCtorEq, false_iff]
      rintro (⟨-, x, hx, hover⟩ | ⟨-, -, x, hx, hover⟩)
      · exact absurd (hlow x hx) (Nat.not_lt_of_le hover)
      · exact absurd (hhigh x hx) (Nat.not_lt_of_le hover)

/-- A function faults exactly when its subprogram has no code range of its own and spanning its
range list faults. -/
theorem function_eq_error_iff (r : Resolver) (e : Entry) (o : Overflow) :
    r.function e = .error o ↔ ¬ e.HasOwnRange ∧ RangeListFault (r.db.rangeList e.key) o := by
  rw [← spanOfRanges_eq_error_iff]
  -- past the range, the function only builds its value
  have hspan : ∀ f : Option (Address × Address) → Function,
      f <$> function.spanOfRanges r e = .error o ↔ function.spanOfRanges r e = .error o := by
    intro f
    cases function.spanOfRanges r e <;> simp [Functor.map, Except.map]
  unfold function Entry.HasOwnRange
  cases hlow : e.lowPc with
  | none => simp [hspan]
  | some low =>
    cases hhigh : e.highPc with
    | none => simp [hspan]
    | some high =>
      by_cases hlt : low < high
      · simp [hlt, bind, Except.bind, pure, Except.pure]
      · simp [hlt, hspan]

/-- The function containing an address faults exactly when the address has a subprogram with no
code range of its own whose range list faults when spanned. -/
theorem functionAt_eq_error_iff (r : Resolver) (a : Address) (o : Overflow) :
    r.functionAt a = .error o ↔
      ∃ e, r.subprogram a = some e ∧ ¬ e.HasOwnRange ∧ RangeListFault (r.db.rangeList e.key) o := by
  unfold functionAt
  cases r.subprogram a with
  | none => simp [pure, Except.pure]
  | some e => simp [function_eq_error_iff]

/-- The rows of a function fault exactly when the function does. -/
theorem addressesInScope_eq_error_iff (r : Resolver) (a : Address) (o : Overflow) :
    r.addressesInScope a = .error o ↔ r.functionAt a = .error o := by
  unfold addressesInScope
  cases r.functionAt a <;> simp [bind, Except.bind, pure, Except.pure]

/-! ## Types -/

/-- A fault of array arithmetic: an upper bound plus one, or a count times an element size. -/
def Overflow.InArray (o : Overflow) : Prop := o = ⟨.add, .arrayBound⟩ ∨ o = ⟨.multiply, .arraySize⟩

namespace Checked

/-- A checked computation returns a value with `P`, or stops at a fault of array arithmetic. -/
def Lands {α : Type} (x : Checked α) (P : α → Prop) : Prop :=
  (∃ a, x = .ok a ∧ P a) ∨ ∃ o, x = .error o ∧ o.InArray

variable {α β : Type} {P Q : α → Prop} {R : β → Prop}

theorem lands_pure {a : α} (h : P a) : Lands (pure a) P := .inl ⟨a, rfl, h⟩

theorem Lands.mono {x : Checked α} (h : Lands x P) (hPQ : ∀ a, P a → Q a) : Lands x Q := by
  rcases h with ⟨a, rfl, ha⟩ | hfault
  · exact .inl ⟨a, rfl, hPQ a ha⟩
  · exact .inr hfault

theorem Lands.bind {x : Checked α} {f : α → Checked β} (hx : Lands x P)
    (hf : ∀ a, P a → Lands (f a) R) : Lands (x >>= f) R := by
  rcases hx with ⟨a, rfl, ha⟩ | ⟨o, rfl, ho⟩
  · exact hf a ha
  · exact .inr ⟨o, rfl, ho⟩

theorem Lands.map {x : Checked α} {f : α → β} (hx : Lands x P) (hf : ∀ a, P a → R (f a)) :
    Lands (f <$> x) R := by
  rcases hx with ⟨a, rfl, ha⟩ | ⟨o, rfl, ho⟩
  · exact .inl ⟨f a, rfl, hf a ha⟩
  · exact .inr ⟨o, rfl, ho⟩

theorem lands_add_arrayBound (a b : UInt64) : Lands (add .arrayBound a b) fun _ => True := by
  unfold add
  split
  · exact .inl ⟨_, rfl, trivial⟩
  · exact .inr ⟨_, rfl, .inl rfl⟩

theorem lands_mul_arraySize (a b : UInt64) : Lands (mul .arraySize a b) fun _ => True := by
  unfold mul
  split
  · exact .inl ⟨_, rfl, trivial⟩
  · exact .inr ⟨_, rfl, .inr rfl⟩

theorem lands_filterMapM {f : α → Checked (Option β)} :
    ∀ {l : List α}, (∀ x ∈ l, Lands (f x) fun _ => True) → Lands (l.filterMapM f) fun _ => True
  | [], _ => lands_pure trivial
  | x :: l, h => by
    have hrest := lands_filterMapM fun y hy => h y (List.mem_cons_of_mem x hy)
    rw [List.filterMapM_cons]
    refine (h x List.mem_cons_self).bind fun b _ => ?_
    cases b with
    | none => exact hrest
    | some b => exact hrest.bind fun _ _ => lands_pure trivial

end Checked

/-- The chain from a key breaks within `fuel` links: a link is missing, holds a tag no chain may
hold, or the links go on past the fuel. -/
inductive SymbolDatabase.BrokenChain (db : SymbolDatabase) : Nat → EntryKey → Prop
  | dangling {fuel : Nat} {k : EntryKey} : db.entry k = none → BrokenChain db fuel k
  | unsupported {fuel : Nat} {k : EntryKey} {e : Entry} :
      db.entry k = some e → isTypeTag e.tag = false → BrokenChain db fuel k
  | tooLong {k : EntryKey} : BrokenChain db 0 k
  | link {fuel : Nat} {k k' : EntryKey} {e : Entry} :
      db.entry k = some e → isTypeTag e.tag = true → e.nextLink = some k' →
      BrokenChain db fuel k' → BrokenChain db (fuel + 1) k

namespace Resolver

open Checked

variable {r : Resolver} {inner : EntryKey → Checked (Option SymbolType)} {e : Entry} {c : Chain}

/-- A link that is not a type ends the walk with nothing. -/
theorem walkStep_of_not_typeTag (htag : isTypeTag e.tag = false) :
    walkChain.step r inner e c = pure none := by
  simp [isTypeTag, Dwarf.tagArrayType, Dwarf.tagConstType, Dwarf.tagVolatileType,
    Dwarf.tagRestrictType, Dwarf.tagPointerType, Dwarf.tagReferenceType,
    Dwarf.tagRvalueReferenceType, Dwarf.tagBaseType, Dwarf.tagStructureType, Dwarf.tagClassType,
    Dwarf.tagUnionType, Dwarf.tagEnumerationType, Dwarf.tagTypedef,
    Dwarf.tagSubroutineType] at htag
  simp [walkChain.step, htag, Dwarf.tagArrayType, Dwarf.tagConstType, Dwarf.tagVolatileType,
    Dwarf.tagRestrictType, Dwarf.tagPointerType, Dwarf.tagReferenceType,
    Dwarf.tagRvalueReferenceType, Dwarf.tagBaseType, Dwarf.tagStructureType, Dwarf.tagClassType,
    Dwarf.tagUnionType, Dwarf.tagEnumerationType, Dwarf.tagTypedef, Dwarf.tagSubroutineType]

theorem walkChain_succ_some {fuel : Nat} {k : EntryKey} (he : r.db.entry k = some e) :
    r.walkChain inner (fuel + 1) c (some k) =
      walkChain.step r inner e c >>= fun res =>
        match res with
        | some (token, c', next) => r.walkChain inner fuel (c'.named e.tag token next) next
        | none => pure none := by
  simp only [walkChain, he]
  refine congrArg (walkChain.step r inner e c >>= ·) (funext fun res => ?_)
  rcases res with _ | ⟨token, c', next⟩ <;> rfl

theorem walkChain_dangling {fuel : Nat} {k : EntryKey} (he : r.db.entry k = none) :
    r.walkChain inner fuel c (some k) = pure none := by
  cases fuel with
  | zero => rfl
  | succ fuel => simp [walkChain, he]

theorem lands_arrayLength (e : Entry) : Lands (r.arrayLength e) fun _ => True := by
  unfold arrayLength
  split
  · exact lands_pure trivial
  · split
    · exact lands_pure trivial
    · split
      · exact (lands_add_arrayBound _ _).map fun _ _ => trivial
      · exact lands_pure trivial

/-- A link of a supported tag hands on its own next link, unless its array arithmetic faults or a
nested chain's does. -/
theorem lands_walkStep (hinner : ∀ k, Lands (inner k) fun _ => True) (htag : isTypeTag e.tag) :
    Lands (walkChain.step r inner e c) fun res => ∃ token c', res = some (token, c', e.nextLink) := by
  by_cases harray : e.tag = Dwarf.tagArrayType
  · have hnext : e.nextLink = e.typeRef := by
      simp [Entry.nextLink, endsChainTag, harray, Dwarf.tagArrayType, Dwarf.tagBaseType,
        Dwarf.tagStructureType, Dwarf.tagClassType, Dwarf.tagUnionType, Dwarf.tagEnumerationType]
    simp only [walkChain.step, harray, Dwarf.tagArrayType, Dwarf.tagConstType, Dwarf.tagVolatileType,
      Dwarf.tagRestrictType, Dwarf.tagPointerType, Dwarf.tagReferenceType,
      Dwarf.tagRvalueReferenceType, Dwarf.tagBaseType, Dwarf.tagStructureType, Dwarf.tagClassType,
      Dwarf.tagUnionType, Dwarf.tagEnumerationType, Dwarf.tagTypedef, Nat.reduceEqDiff, or_self,
      if_false, if_true]
    -- every way to the size ends in the same link, with the array's next link
    have hlink : ∀ (x : Checked (Option UInt64)) (token : String) (kind : Option TypeKind),
        Lands x (fun _ => True) →
        Lands (x >>= fun size => pure (some (token, { c with kind, size }, e.typeRef)))
          fun res => ∃ token c', res = some (token, c', e.nextLink) :=
      fun x token kind hx => hx.bind fun _ _ => lands_pure ⟨_, _, by rw [hnext]⟩
    refine (lands_arrayLength e).bind fun count _ => ?_
    split
    · exact hlink _ _ _ (lands_pure trivial)
    · split
      · exact hlink _ _ _ (lands_pure trivial)
      · split
        · exact hlink _ _ _ (lands_pure trivial)
        · refine (hinner _).bind fun element _ => ?_
          split
          · exact hlink _ _ _ (lands_pure trivial)
          · split
            · exact hlink _ _ _ ((lands_mul_arraySize _ _).map fun _ _ => trivial)
            · exact hlink _ _ _ (lands_pure trivial)
  by_cases hsub : e.tag = Dwarf.tagSubroutineType
  · have hnext : e.nextLink = e.typeRef := by
      simp [Entry.nextLink, endsChainTag, hsub, Dwarf.tagSubroutineType, Dwarf.tagBaseType,
        Dwarf.tagStructureType, Dwarf.tagClassType, Dwarf.tagUnionType, Dwarf.tagEnumerationType]
    simp only [walkChain.step, hsub, Dwarf.tagArrayType, Dwarf.tagConstType, Dwarf.tagVolatileType,
      Dwarf.tagRestrictType, Dwarf.tagPointerType, Dwarf.tagReferenceType,
      Dwarf.tagRvalueReferenceType, Dwarf.tagBaseType, Dwarf.tagStructureType, Dwarf.tagClassType,
      Dwarf.tagUnionType, Dwarf.tagEnumerationType, Dwarf.tagTypedef, Dwarf.tagSubroutineType,
      Nat.reduceEqDiff, or_self, if_false, if_true]
    refine (lands_filterMapM fun child _ => ?_).bind fun _ _ => lands_pure ⟨_, _, by rw [hnext]⟩
    -- a child's word is a nested type's name, `unknown`, `...` or nothing
    split
    · split
      · exact (hinner _).bind fun res _ => by split <;> exact lands_pure trivial
      · exact lands_pure trivial
    · split <;> exact lands_pure trivial
  -- the other tags nest no chain and compute nothing that can fault
  have hstep := @walkStep_eq r inner (fun _ => SymbolType.unknown) e c htag
    (by simp [SymbolDatabase.nestedKeys, harray, hsub]) (fun h => absurd h harray)
  rw [hstep]
  exact lands_pure ⟨_, _, rfl⟩

theorem lands_walkStep_any (hinner : ∀ k, Lands (inner k) fun _ => True) :
    Lands (walkChain.step r inner e c) fun _ => True := by
  cases htag : isTypeTag e.tag
  · rw [walkStep_of_not_typeTag htag]
    exact lands_pure trivial
  · exact (lands_walkStep hinner htag).mono fun _ _ => trivial

/-- Every walk returns, or faults in array arithmetic. The induction is on the fuel, which every
link spends. -/
theorem lands_walkChain (hinner : ∀ k, Lands (inner k) fun _ => True) :
    ∀ (fuel : Nat) (c : Chain) (next : Option EntryKey),
      Lands (r.walkChain inner fuel c next) fun _ => True
  | _, c, none => by
    rw [walkChain_none]
    exact lands_pure trivial
  | 0, _, some _ => lands_pure trivial
  | fuel + 1, c, some k => by
    cases he : r.db.entry k with
    | none =>
      rw [walkChain_dangling he]
      exact lands_pure trivial
    | some e =>
      rw [walkChain_succ_some he]
      refine (lands_walkStep_any hinner).bind fun res _ => ?_
      rcases res with _ | ⟨token, c', next⟩
      · exact lands_pure trivial
      · exact lands_walkChain hinner fuel _ next

/-- A walk along a broken chain returns nothing, unless an array on the way faults. -/
theorem lands_walkChain_of_broken (hinner : ∀ k, Lands (inner k) fun _ => True) {fuel : Nat}
    {k : EntryKey} (h : r.db.BrokenChain fuel k) (c : Chain) :
    Lands (r.walkChain inner fuel c (some k)) (· = none) := by
  induction h generalizing c with
  | dangling he =>
    rw [walkChain_dangling he]
    exact lands_pure rfl
  | @unsupported fuel k e he htag =>
    cases fuel with
    | zero => exact lands_pure rfl
    | succ fuel =>
      rw [walkChain_succ_some he, walkStep_of_not_typeTag htag]
      exact lands_pure rfl
  | tooLong => exact lands_pure rfl
  | link he htag hnext _ ih =>
    rw [walkChain_succ_some he]
    refine (lands_walkStep hinner htag).bind ?_
    rintro _ ⟨token, c', rfl⟩
    rw [hnext]
    exact ih _

/-- Every resolution returns, or faults in array arithmetic. -/
theorem lands_resolveType (r : Resolver) :
    ∀ (levels : Nat) (k : EntryKey), Lands (r.resolveType levels k) fun _ => True
  | 0, _ => lands_pure trivial
  | levels + 1, k => by
    rw [resolveType]
    refine (lands_walkChain (lands_resolveType r levels) _ _ _).bind fun res _ => ?_
    rcases res with _ | c
    · exact lands_pure trivial
    · exact lands_pure trivial

theorem lands_symbolType (r : Resolver) (k : EntryKey) :
    Lands (r.symbolType k) fun _ => True :=
  (lands_resolveType r _ k).bind fun _ _ => lands_pure trivial

/-- A type whose chain breaks within the links the walk follows is the unknown type, unless an
array on the way faults. -/
theorem lands_symbolType_of_broken (r : Resolver) {k : EntryKey}
    (h : r.db.BrokenChain maxTypeDepth k) : Lands (r.symbolType k) (· = SymbolType.unknown) := by
  have hresolve : Lands (r.resolveType (maxTypeDepth + 1) k) (· = none) := by
    rw [resolveType]
    refine (lands_walkChain_of_broken (lands_resolveType r maxTypeDepth) h {}).bind ?_
    rintro _ rfl
    exact lands_pure rfl
  refine hresolve.bind ?_
  rintro _ rfl
  exact lands_pure rfl

end Resolver

open Resolver Checked

/-- Where the symbol queries over a database at any base fault: the function containing an
address exactly when its subprogram has no code range of its own and spanning its range list
overflows; the rows of that function exactly when the function does; a type only in array
arithmetic, and a type whose chain breaks within the links the walk follows is the unknown type
unless such a fault comes first. -/
theorem symbolQueries_faults (db : SymbolDatabase) (base : Address) :
    (∀ a o, (ofDatabase db base).functionAt a = .error o ↔
      ∃ e, (ofDatabase db base).subprogram a = some e ∧ ¬ e.HasOwnRange ∧
        RangeListFault (db.rangeList e.key) o) ∧
    (∀ a o, (ofDatabase db base).addressesInScope a = .error o ↔
      (ofDatabase db base).functionAt a = .error o) ∧
    (∀ k, ((ofDatabase db base).symbolType k).Lands fun _ => True) ∧
    (∀ k, db.BrokenChain maxTypeDepth k →
      ((ofDatabase db base).symbolType k).Lands (· = SymbolType.unknown)) :=
  ⟨functionAt_eq_error_iff _, addressesInScope_eq_error_iff _, lands_symbolType _,
    fun _ h => lands_symbolType_of_broken _ h⟩

end RemoteDebugger
