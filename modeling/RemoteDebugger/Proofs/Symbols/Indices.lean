import RemoteDebugger.Proofs.Symbols.Validation

/-!
# The indexed queries of a built database

On every database `build` accepts, each indexed query answers what its plain definition over the
builder operations says (`queries_of_build`).
-/

namespace RemoteDebugger

open Std ScopeChain

/-! ## Floor lookups over ascending keys -/

/-- The greatest address of a list at or below `a`, for a list in ascending order. -/
def floorIn (A : List UInt64) (a : UInt64) : Option UInt64 := (A.filter (· ≤ a)).getLast?

theorem floorIn_spec {A : List UInt64} (hA : A.Pairwise (· < ·)) {a b : UInt64}
    (h : floorIn A a = some b) : b ∈ A ∧ b ≤ a ∧ ∀ c ∈ A, c ≤ a → c ≤ b := by
  have hmem := List.mem_of_getLast? h
  rw [List.mem_filter, decide_eq_true_eq] at hmem
  refine ⟨hmem.1, hmem.2, fun c hc hca => ?_⟩
  obtain ⟨F, hF⟩ := List.getLast?_eq_some_iff.1 h
  have hsorted : (F ++ [b]).Pairwise (· < ·) := hF ▸ hA.filter _
  have hcF : c ∈ F ++ [b] := hF ▸ List.mem_filter.2 ⟨hc, decide_eq_true hca⟩
  rcases List.mem_append.1 hcF with hc' | hc'
  · exact UInt64.le_of_lt (hsorted.rel_of_mem_append hc' (List.mem_singleton_self b))
  · rw [List.mem_singleton.1 hc']
    exact UInt64.le_refl b

/-- The floor of an address in an ascending list is its greatest element at or below it. -/
theorem floorIn_eq_some_iff {A : List UInt64} (hA : A.Pairwise (· < ·)) (a b : UInt64) :
    floorIn A a = some b ↔ b ∈ A ∧ b ≤ a ∧ ∀ c ∈ A, c ≤ a → c ≤ b := by
  refine ⟨floorIn_spec hA, fun ⟨hb, hba, hmax⟩ => ?_⟩
  obtain ⟨b', hb'⟩ : ∃ b', floorIn A a = some b' := by
    apply Option.isSome_iff_exists.1
    rw [floorIn, List.getLast?_isSome, ne_eq, ← List.length_eq_zero_iff, ← ne_eq,
      ← Nat.pos_iff_ne_zero, List.length_pos_iff_exists_mem]
    exact ⟨b, List.mem_filter.2 ⟨hb, decide_eq_true hba⟩⟩
  obtain ⟨hb'A, hb'a, hmax'⟩ := floorIn_spec hA hb'
  rw [hb', UInt64.le_antisymm (hmax b' hb'A hb'a) (hmax' b hb hba)]

theorem floorIn_eq_none_iff (A : List UInt64) (a : UInt64) :
    floorIn A a = none ↔ ∀ c ∈ A, a < c := by
  simp only [floorIn, List.getLast?_eq_none_iff, List.filter_eq_nil_iff, decide_eq_true_eq,
    UInt64.not_le]

/-- A floor lookup in an ordered map is the floor of the address among its keys, listed in
ascending order. -/
theorem getEntryLE?_eq_floorIn {β : Type} (t : TreeMap UInt64 β compare) {A : List UInt64}
    (hA : A.Pairwise (· < ·)) (hmem : ∀ a, a ∈ A ↔ a ∈ t) (a : UInt64) :
    t.getEntryLE? a = (floorIn A a).bind fun b => t[b]?.map (b, ·) := by
  cases h : floorIn A a with
  | none =>
    rw [Option.bind_none, getEntryLE?_eq_none_iff]
    exact fun k hk => (floorIn_eq_none_iff A a).1 h k ((hmem k).2 hk)
  | some b =>
    obtain ⟨hb, hba, hmax⟩ := floorIn_spec hA h
    obtain ⟨v, hv⟩ := Option.isSome_iff_exists.1
      (TreeMap.isSome_getElem?_iff_mem.2 ((hmem b).1 hb))
    rw [Option.bind_some, hv, Option.map_some,
      (getEntryLE?_eq_some_iff t a b v).2 ⟨hv, hba, fun k hk hka => hmax k ((hmem k).2 hk) hka⟩]

/-! ## Maps built one item at a time -/

section Fold

variable {α β κ : Type}

/-- Appending each item under the key of its value, when it has one, lists under every key the
items whose value has that key, in order. -/
theorem getD_foldl_push_of_some [Ord κ] [TransOrd κ] [LawfulEqOrd κ] [DecidableEq κ] {γ : Type}
    (f : α → Option β) (g : β → κ) (val : α → γ)
    {step : TreeMap κ (Array γ) compare → α → TreeMap κ (Array γ) compare}
    (hstep : ∀ m x, step m x = match f x with
      | some s => DatabaseBuilder.push m (g s) (val x)
      | none => m)
    (l : List α) (m : TreeMap κ (Array γ) compare) (k : κ) :
    (l.foldl step m).getD k #[] =
      m.getD k #[] ++ ((l.filter fun x => (f x).map g = some k).map val).toArray := by
  induction l generalizing m with
  | nil => simp
  | cons x xs ih =>
    rw [List.foldl_cons, ih, hstep]
    cases hx : f x with
    | none => simp [hx]
    | some s =>
      rw [getD_push]
      by_cases hs : g s = k
      · simp [hx, hs]
      · simp [hx, hs]

/-- Inserting the entries of an ordered map, each under its own key, into a map gives at each key
the value made from that key's entry. -/
theorem getElem?_foldl_insert {γ : Type} (t : TreeMap UInt64 β compare) (f : UInt64 → β → γ)
    (x : UInt64) :
    (t.foldl (fun m a v => m.insert a (f a v)) (∅ : TreeMap UInt64 γ compare))[x]? =
      t[x]?.map (f x) := by
  rw [TreeMap.foldl_eq_foldl_toList]
  -- one entry at a time; a later key is never the earlier ones, as the list is sorted
  have hgo : ∀ (L : List (UInt64 × β)) (m : TreeMap UInt64 γ compare),
      L.Pairwise (fun p q => p.1 < q.1) →
      (L.foldl (fun m p => m.insert p.1 (f p.1 p.2)) m)[x]? =
        ((L.find? (·.1 = x)).map fun p => f p.1 p.2).or m[x]? := by
    intro L
    induction L with
    | nil => intro m _; rfl
    | cons p ps ih =>
      intro m hL
      rw [List.pairwise_cons] at hL
      rw [List.foldl_cons, ih _ hL.2, List.find?_cons]
      by_cases hp : p.1 = x
      · have hnone : ps.find? (·.1 = x) = none := by
          rw [List.find?_eq_none]
          intro q hq hqx
          have := hL.1 q hq
          rw [hp, of_decide_eq_true hqx] at this
          exact UInt64.lt_irrefl x this
        simp [hp, hnone]
      · simp [hp, TreeMap.getElem?_insert]
  rw [hgo _ _ (toList_sorted t)]
  simp only [TreeMap.getElem?_emptyc, Option.or_none]
  cases hx : t[x]? with
  | none =>
    rw [List.find?_eq_none.2]
    · rfl
    · intro p hp hpx
      have := TreeMap.mem_toList_iff_getElem?_eq_some.1 hp
      rw [of_decide_eq_true hpx, hx] at this
      cases this
  | some v =>
    have hmemx : (x, v) ∈ t.toList := TreeMap.mem_toList_iff_getElem?_eq_some.2 hx
    obtain ⟨⟨y, w⟩, hp⟩ : ∃ p, t.toList.find? (·.1 = x) = some p :=
      Option.isSome_iff_exists.1 (List.find?_isSome.2 ⟨(x, v), hmemx, by simp⟩)
    have hyx : y = x := by simpa using List.find?_some hp
    subst hyx
    have hw := TreeMap.mem_toList_iff_getElem?_eq_some.1 (List.mem_of_find?_eq_some hp)
    rw [hx, Option.some.injEq] at hw
    rw [hp, hw]
    rfl

/-- Mapping the values of a map with a function that keeps the empty array empty commutes with
reading a key with the empty array as default. -/
theorem getD_map_of_empty [Ord κ] [TransOrd κ] [LawfulEqOrd κ] (t : TreeMap κ (Array α) compare)
    (f : Array α → Array α) (hf : f #[] = #[]) (k : κ) :
    (t.map fun _ v => f v).getD k #[] = f (t.getD k #[]) := by
  rw [TreeMap.getD_map, TreeMap.getD_eq_getD_getElem?]
  cases t[k]? with
  | none => exact hf.symm
  | some v => rfl

/-- A fold that either goes on with `g` or fails, and succeeded, went on with `g` throughout. -/
theorem foldlM_ok_eq_foldl {ε : Type} (f : β → α → Except ε β) (g : β → α → β)
    (hf : ∀ m x m', f m x = .ok m' → m' = g m x) :
    ∀ (l : List α) (init r : β), l.foldlM f init = .ok r → r = l.foldl g init := by
  intro l
  induction l with
  | nil => intro init r h; exact (Except.ok.inj h).symm
  | cons x xs ih =>
    intro init r h
    rw [List.foldlM_cons] at h
    cases hx : f init x with
    | error e => rw [hx] at h; cases h
    | ok m' =>
      rw [hx] at h
      rw [List.foldl_cons, ← hf init x m' hx]
      exact ih m' r h

end Fold

/-! ## Sorting rules by address -/

/-- `sorted` is `l` sorted stably by a key: ascending in the key, and with the elements of each
key in their order in `l`. -/
def StableSort {α : Type} (key : α → UInt64) (l sorted : List α) : Prop :=
  sorted.Pairwise (fun x y => key x ≤ key y) ∧
    ∀ v, sorted.filter (fun x => key x = v) = l.filter (fun x => key x = v)

/-- The rules of a frame are sorted stably by address. -/
theorem sortRules_stable (rules : List Rule) :
    StableSort (·.address) rules (DatabaseBuilder.sortRules rules) := by
  have htrans : ∀ a b c : Rule, decide (a.address ≤ b.address) = true →
      decide (b.address ≤ c.address) = true → decide (a.address ≤ c.address) = true := by
    intro a b c hab hbc
    simp only [decide_eq_true_eq] at *
    exact UInt64.le_trans hab hbc
  have htotal : ∀ a b : Rule,
      (decide (a.address ≤ b.address) || decide (b.address ≤ a.address)) = true := by
    intro a b
    simpa using UInt64.le_total a.address b.address
  refine ⟨(List.pairwise_mergeSort htrans htotal rules).imp fun h => of_decide_eq_true h,
    fun v => ?_⟩
  -- the rules at one address are already sorted, so they stay a sublist of the sorted list
  have hsame : (rules.filter fun r => r.address = v).Pairwise
      (fun r s => decide (r.address ≤ s.address) = true) := by
    refine List.pairwise_of_forall_mem_list fun r hr s hs => ?_
    rw [List.mem_filter, decide_eq_true_eq] at hr hs
    rw [hr.2, hs.2]
    exact decide_eq_true (UInt64.le_refl v)
  have hsub := List.sublist_mergeSort htrans htotal hsame (List.filter_sublist)
  have hsub' := hsub.filter fun r => decide (r.address = v)
  rw [List.filter_filter] at hsub'
  simp only [Bool.and_self] at hsub'
  have hlen := ((List.mergeSort_perm rules fun a b => decide (a.address ≤ b.address)).filter
    fun r => decide (r.address = v)).length_eq
  exact (hsub'.eq_of_length hlen.symm).symm

/-! ## The indices a successful build makes -/

namespace DatabaseBuilder

/-- How a successful build indexes the builder's data: children and rows of a scope are appended
under their key, call frames get their rules sorted, and the ranges fold succeeded. -/
structure Indexing (b : DatabaseBuilder) (db : SymbolDatabase) : Prop where
  children : db.children = b.entries.foldl (fun m e =>
    match e.parent with
    | some p => push m p e.key
    | none => m) ∅
  callFrames : db.callFrames =
    b.callFrames.foldl (fun m a rules => m.insert a ⟨a, sortRules rules.toList⟩) ∅
  ranges : ∃ r, b.ranges.foldlM (fun m r =>
      (if b.slots.contains r.owner then pure (push m r.owner r)
      else throw (corrupt ("range list entry owned by unknown entry " ++ r.owner.render)) :
        Except DebugError (TreeMap EntryKey (Array RangeListEntry) compare)))
      ∅ = .ok r ∧ db.ranges = r
  locationsByScope : db.locationsByScope = (b.locations.foldl (fun m _ (l : SourceLocation) =>
    match db.scopeForAddress l.start with
    | some s => push m s.key l
    | none => m) (∅ : TreeMap EntryKey (Array SourceLocation) compare)).map
      fun _ (ls : Array SourceLocation) => (ls.toList.mergeSort fun x y =>
        decide (x.line < y.line ∨ (x.line = y.line ∧ x.start ≤ y.start))).toArray

theorem indexing_of_build {b : DatabaseBuilder} {db : SymbolDatabase} (h : b.build = .ok db) :
    Indexing b db := by
  unfold build at h
  simp only [bind, Except.bind] at h
  repeat' split at h
  all_goals try contradiction
  rename_i hranges _ _ _
  simp only [pure, Except.pure, Except.ok.injEq] at h
  subst h
  exact ⟨rfl, rfl, ⟨_, hranges, rfl⟩, rfl⟩

end DatabaseBuilder

/-! ## The plain definitions of the queries -/

namespace Collected

variable (steps : List BuildStep)

/-- The entry in force at an address: the final entry named by the transition at the greatest
transition address at or below it, if that transition opens a scope. -/
def scopeAt (a : UInt64) : Option Entry :=
  (floorIn (scopeAddresses steps) a).bind fun b =>
    (transition steps b).bind fun k => k.bind (final steps)

/-- The line rows kept, by ascending start. -/
def rowsKept : List SourceLocation := (rowStarts steps).filterMap (row steps)

/-- The first addresses of the call frames started, in ascending order. -/
def frameStarts : List UInt64 := ascending (frames steps)

/-- Every rule added to a frame, in the order added. -/
def rulesOf (frame : UInt64) : List Rule :=
  ((steps.filterMap BuildStep.rule?).filter (·.1 = frame)).map (·.2)

end Collected

/-- Whether a range covers an address: the address less the base lies in `[low, high)`. -/
def RangeListEntry.Covers (r : RangeListEntry) (a : UInt64) : Prop :=
  r.base.toNat + r.low.toNat ≤ a.toNat ∧ a.toNat < r.base.toNat + r.high.toNat

instance (r : RangeListEntry) (a : UInt64) : Decidable (r.Covers a) :=
  inferInstanceAs (Decidable (_ ∧ _))

/-- The order of the rows of a scope: by line, then by address. -/
def SourceLocation.Before (x y : SourceLocation) : Prop :=
  x.line < y.line ∨ (x.line = y.line ∧ x.start < y.start)

namespace SourceLocation

/-- The order `build` sorts the rows of a scope in, by line and then by start, is transitive. -/
theorem line_start_le_trans {x y z : SourceLocation}
    (hxy : x.line < y.line ∨ (x.line = y.line ∧ x.start ≤ y.start))
    (hyz : y.line < z.line ∨ (y.line = z.line ∧ y.start ≤ z.start)) :
    x.line < z.line ∨ (x.line = z.line ∧ x.start ≤ z.start) := by
  simp only [UInt32.lt_iff_toNat_lt, ← UInt32.toNat_inj, UInt64.le_iff_toNat_le] at *
  omega

/-- That order is total. -/
theorem line_start_le_total (x y : SourceLocation) :
    (x.line < y.line ∨ (x.line = y.line ∧ x.start ≤ y.start)) ∨
      (y.line < x.line ∨ (y.line = x.line ∧ y.start ≤ x.start)) := by
  simp only [UInt32.lt_iff_toNat_lt, ← UInt32.toNat_inj, UInt64.le_iff_toNat_le]
  omega

/-- Rows at different starts in that order are in the order `Before`. -/
theorem before_of_le_of_ne {x y : SourceLocation}
    (hxy : x.line < y.line ∨ (x.line = y.line ∧ x.start ≤ y.start)) (hne : x.start ≠ y.start) :
    x.Before y := by
  rcases hxy with hlt | ⟨heq, hle⟩
  · exact .inl hlt
  · exact .inr ⟨heq, UInt64.lt_of_le_of_ne hle hne⟩

end SourceLocation

/-- The range test of the database is `Covers`: the base is at or below the address, and the
offset from it lies in `[low, high)`. -/
theorem RangeListEntry.contains_iff_covers (r : RangeListEntry) (a : UInt64) :
    r.contains a = true ↔ r.Covers a := by
  simp only [RangeListEntry.contains, Bool.and_eq_true, decide_eq_true_eq, RangeListEntry.Covers,
    UInt64.le_iff_toNat_le, UInt64.lt_iff_toNat_lt]
  constructor
  · rintro ⟨⟨hba, hlow⟩, hhigh⟩
    rw [UInt64.toNat_sub_of_le _ _ hba] at hlow hhigh
    omega
  · rintro ⟨hlow, hhigh⟩
    have hba : r.base.toNat ≤ a.toNat := by omega
    rw [UInt64.toNat_sub_of_le _ _ (UInt64.le_iff_toNat_le.2 hba)]
    omega

namespace Collected

variable (steps : List BuildStep)

/-- A database answers each indexed query as its plain definition over the operations says. -/
structure Answers (db : SymbolDatabase) : Prop where
  /-- The scope at an address is the final entry named by the last transition recorded at the
  greatest transition address at or below it, unless that transition ends a scope. -/
  scopeForAddress : ∀ a, db.scopeForAddress a = scopeAt steps a
  /-- The row at an address is the first non-empty row added at the greatest start at or
  below it. -/
  locationForAddress : ∀ a, db.locationForAddress a = (floorIn (rowStarts steps) a).bind (row steps)
  /-- The call frame at an address is the one started at the greatest start at or below it, -/
  callFrameStart : ∀ a, (db.callFrameForAddress a).map (·.address) = floorIn (frameStarts steps) a
  /-- and it holds every rule added to it, stably sorted by address. -/
  callFrameRules : ∀ a, ∀ cf ∈ db.callFrameForAddress a,
    StableSort (·.address) (rulesOf steps cf.address) cf.rules
  /-- The children of an entry are the final entries whose parent it is, by first insertion. -/
  childrenOf : ∀ k, db.childrenOf k = (finalEntries steps).filter (·.parent = some k)
  /-- The files with a base name are those files, in registration order. -/
  filesNamed : ∀ n, db.filesNamed n = (files steps).filter (·.basename = n)
  /-- The rows of a file are its rows, by ascending start. -/
  locationsForFile : ∀ k, db.locationsForFile k = (rowsKept steps).filter (·.file = k)
  /-- The rows of a scope are sorted by line, then by start, -/
  locationsInScope_sorted : ∀ k, (db.locationsInScope k).Pairwise SourceLocation.Before
  /-- and they are exactly the rows whose start has that scope. -/
  mem_locationsInScope : ∀ k l,
    l ∈ db.locationsInScope k ↔ l ∈ rowsKept steps ∧ (scopeAt steps l.start).map (·.key) = some k
  /-- The range of an owner at an address is the first range added for it that covers the
  address. -/
  rangeForAddress : ∀ a o,
    db.rangeForAddress a o = (ranges steps).find? fun r => r.owner = o ∧ r.Covers a

end Collected

/-! ## Each query of a built database -/

namespace Collected

variable (steps : List BuildStep)

/-- The rules marked by whether their frame was started are the rules, in the order added. -/
theorem rulesMarked_map_fst : (rulesMarked steps).map (·.1) = steps.filterMap BuildStep.rule? := by
  rw [rulesMarked, List.map_filterMap]
  have hcongr : ∀ x ∈ steps.zipIdx, (x.1.rule?.map fun fr =>
      (fr, (frames (steps.take x.2)).contains fr.1)).map (·.1) = x.1.rule? := by
    intro x _
    cases x.1.rule? <;> rfl
  rw [List.filterMap_congr hcongr]
  conv_rhs => rw [← List.zipIdx_map_fst 0 steps, List.filterMap_map]
  rfl

/-- With no rule set aside, the rules of a started frame are every rule added to it. -/
theorem frameRules_eq_rulesOf (h : orphans steps = []) (frame : UInt64) :
    frameRules steps frame = rulesOf steps frame := by
  have hmarked : ∀ x ∈ rulesMarked steps, x.2 = true := by
    intro x hx
    by_contra hfalse
    have : x.1 ∈ orphans steps :=
      List.mem_map.2 ⟨x, List.mem_filter.2 ⟨hx, by simpa using hfalse⟩, rfl⟩
    rw [h] at this
    cases this
  rw [frameRules, rulesOf, ← rulesMarked_map_fst, List.filter_map, List.map_map]
  congr 1
  apply List.filter_congr
  intro x hx
  simp [hmarked x hx]

/-- The rows kept are in strictly ascending order of start. -/
theorem rowsKept_sorted : (rowsKept steps).Pairwise (·.start < ·.start) := by
  apply (ascending_sorted _).filterMap
  intro a a' haa' l hl l' hl'
  rw [row_start steps hl, row_start steps hl']
  exact haa'

end Collected

namespace DatabaseBuilder

open Collected

variable {steps : List BuildStep} {db : SymbolDatabase}

theorem defects_eq_nil_of_build (h : (ofSteps steps).build = .ok db) : defects steps = [] :=
  (reports_build steps).ok_nil h

theorem entry_of_build (h : (ofSteps steps).build = .ok db) (k : EntryKey) :
    db.entry k = final steps k := by
  have hbuilt := built_of_build h
  rw [SymbolDatabase.entry, hbuilt.slots, hbuilt.entries, find_ofSteps]

/-- The scope at an address is the one of the transition at the greatest address at or
below it. -/
theorem scopeForAddress_of_build (h : (ofSteps steps).build = .ok db) (a : UInt64) :
    db.scopeForAddress a = scopeAt steps a := by
  have hsorted : (scopeAddresses steps).Pairwise (· < ·) := ascending_sorted _
  rw [SymbolDatabase.scopeForAddress, (built_of_build h).transitions,
    getEntryLE?_eq_floorIn _ hsorted (mem_scopeAddresses_iff steps), scopeAt]
  cases floorIn (scopeAddresses steps) a with
  | none => rfl
  | some b =>
    simp only [Option.bind_some, transitions_ofSteps]
    cases Collected.transition steps b with
    | none => rfl
    | some k => cases k <;> simp [entry_of_build h]

/-- The row at an address is the first row added at the greatest start at or below it. -/
theorem locationForAddress_of_build (h : (ofSteps steps).build = .ok db) (a : UInt64) :
    db.locationForAddress a = (floorIn (rowStarts steps) a).bind (Collected.row steps) := by
  have hsorted : (rowStarts steps).Pairwise (· < ·) := ascending_sorted _
  rw [SymbolDatabase.locationForAddress, (built_of_build h).locations,
    getEntryLE?_eq_floorIn _ hsorted (mem_rowStarts_iff steps)]
  cases floorIn (rowStarts steps) a with
  | none => rfl
  | some b =>
    simp only [Option.bind_some, locations_ofSteps]
    cases Collected.row steps b <;> rfl

/-- The call frame at an address is the one started at the greatest address at or below it,
with every rule added to it stably sorted by address. -/
theorem callFrameForAddress_of_build (h : (ofSteps steps).build = .ok db) (a : UInt64) :
    db.callFrameForAddress a =
      (floorIn (frameStarts steps) a).map fun b => ⟨b, sortRules (rulesOf steps b)⟩ := by
  have horphans : Collected.orphans steps = [] := by
    have hdefects := defects_eq_nil_of_build h
    simp only [defects, List.append_eq_nil_iff] at hdefects
    exact (orphanDefects_eq_nil_iff steps).1 hdefects.1.1.2
  have hframes : ∀ x, db.callFrames[x]? =
      if x ∈ Collected.frames steps then some ⟨x, sortRules (rulesOf steps x)⟩ else none := by
    intro x
    rw [(indexing_of_build h).callFrames, getElem?_foldl_insert, callFrames_ofSteps]
    split <;> simp [frameRules_eq_rulesOf steps horphans]
  have hmem : ∀ x, x ∈ frameStarts steps ↔ x ∈ db.callFrames := by
    intro x
    rw [frameStarts, mem_ascending, ← TreeMap.isSome_getElem?_iff_mem, hframes]
    split <;> simp_all
  have hsorted : (frameStarts steps).Pairwise (· < ·) := ascending_sorted _
  rw [SymbolDatabase.callFrameForAddress, getEntryLE?_eq_floorIn _ hsorted hmem]
  cases hb : floorIn (frameStarts steps) a with
  | none => rfl
  | some b =>
    have hbf : b ∈ Collected.frames steps := by
      rw [← mem_ascending]
      exact (floorIn_spec hsorted hb).1
    simp [hframes, hbf]

/-- The children of an entry are the final entries whose parent it is, in first-insertion
order. -/
theorem childrenOf_of_build (h : (ofSteps steps).build = .ok db) (k : EntryKey) :
    db.childrenOf k = (finalEntries steps).filter (·.parent = some k) := by
  -- each final entry is what its own key finds
  have hfind : ∀ e ∈ (finalEntries steps).filter (·.parent = some k), db.entry e.key = some e := by
    intro e he
    rw [entry_of_build h, final_eq_some_iff]
    exact ⟨(List.mem_filter.1 he).1, rfl⟩
  rw [SymbolDatabase.childrenOf, (indexing_of_build h).children, ← Array.foldl_toList,
    entries_ofSteps, getD_foldl_push_of_some (·.parent) (fun p => p) (·.key)]
  · simp only [TreeMap.getD_emptyc, Array.toList_append, List.nil_append, Option.map_id',
      List.filterMap_map, Function.comp_def]
    rw [List.filterMap_congr hfind, List.filterMap_some]
  · intro m e
    cases e.parent <;> rfl

/-- The files with a base name are those files, in the order they were first registered. -/
theorem filesNamed_of_build (h : (ofSteps steps).build = .ok db) (n : String) :
    db.filesNamed n = (Collected.files steps).filter (·.basename = n) := by
  rw [(SymbolDatabase.accepted_of_build h).filesNamed, (built_of_build h).files, files_ofSteps]

theorem rows_of_build (h : (ofSteps steps).build = .ok db) : db.rows = rowsKept steps := by
  rw [SymbolDatabase.rows, values_eq_map_snd, (built_of_build h).locations,
    locations_toList_ofSteps, List.map_filterMap, rowsKept]
  congr
  funext a
  cases Collected.row steps a <;> rfl

/-- The rows of a file are its rows, by ascending start. -/
theorem locationsForFile_of_build (h : (ofSteps steps).build = .ok db) (k : FileKey) :
    db.locationsForFile k = (rowsKept steps).filter (·.file = k) := by
  rw [(SymbolDatabase.accepted_of_build h).locationsForFile, rows_of_build h]

/-- The rows of a scope, grouped in address order before they are sorted. -/
theorem locationsByScope_group (h : (ofSteps steps).build = .ok db) (k : EntryKey) :
    ((ofSteps steps).locations.foldl (fun m _ (l : SourceLocation) =>
      match db.scopeForAddress l.start with
      | some s => push m s.key l
      | none => m) (∅ : TreeMap EntryKey (Array SourceLocation) compare)).getD k #[] =
      ((rowsKept steps).filter fun l => (scopeAt steps l.start).map (·.key) = some k).toArray := by
  rw [TreeMap.foldl_eq_foldl_toList,
    getD_foldl_push_of_some (fun p => db.scopeForAddress p.2.start) (·.key) (·.2)]
  · simp only [TreeMap.getD_emptyc, locations_toList_ofSteps, scopeForAddress_of_build h,
      rowsKept, List.filter_filterMap, List.map_filterMap, Array.empty_append]
    congr 1
    apply List.filterMap_congr
    intro a _
    cases row steps a <;> simp [Option.filter]
  · intro m p
    cases db.scopeForAddress p.2.start <;> rfl

/-- The rows of a scope are exactly the rows whose start has that scope, strictly ordered by line
and then by address. -/
theorem locationsInScope_of_build (h : (ofSteps steps).build = .ok db) (k : EntryKey) :
    (db.locationsInScope k).Pairwise SourceLocation.Before ∧
      ∀ l, l ∈ db.locationsInScope k ↔
        l ∈ rowsKept steps ∧ (scopeAt steps l.start).map (·.key) = some k := by
  let le := fun x y : SourceLocation =>
    decide (x.line < y.line ∨ (x.line = y.line ∧ x.start ≤ y.start))
  let inScope := (rowsKept steps).filter fun l => (scopeAt steps l.start).map (·.key) = some k
  have hlist : db.locationsInScope k = inScope.mergeSort le := by
    rw [SymbolDatabase.locationsInScope, (indexing_of_build h).locationsByScope,
      getD_map_of_empty _ _ (by simp), locationsByScope_group h k, List.toList_toArray,
      List.toList_toArray]
  have hperm : (inScope.mergeSort le).Perm inScope := List.mergeSort_perm _ _
  have htrans : ∀ x y z, le x y = true → le y z = true → le x z = true := fun _ _ _ hxy hyz =>
    decide_eq_true
      (SourceLocation.line_start_le_trans (of_decide_eq_true hxy) (of_decide_eq_true hyz))
  have htotal : ∀ x y, (le x y || le y x) = true := fun x y => by
    simp [le, SourceLocation.line_start_le_total x y]
  have hle : (inScope.mergeSort le).Pairwise fun x y => le x y = true :=
    List.pairwise_mergeSort htrans htotal inScope
  -- the rows kept have distinct starts, and sorting keeps that
  have hne : (inScope.mergeSort le).Pairwise fun x y => x.start ≠ y.start := by
    rw [hperm.pairwise_iff Ne.symm]
    exact ((rowsKept_sorted steps).filter _).imp UInt64.ne_of_lt
  rw [hlist]
  refine ⟨(hle.and hne).imp fun hxy =>
    SourceLocation.before_of_le_of_ne (of_decide_eq_true hxy.1) hxy.2, fun l => ?_⟩
  rw [hperm.mem_iff, List.mem_filter, decide_eq_true_eq]

/-- The range of an owner at an address is the first range added for that owner that covers the
address. -/
theorem rangeForAddress_of_build (h : (ofSteps steps).build = .ok db) (a : UInt64)
    (o : EntryKey) :
    db.rangeForAddress a o = (Collected.ranges steps).find? fun r => r.owner = o ∧ r.Covers a := by
  obtain ⟨r, hfold, hr⟩ := (indexing_of_build h).ranges
  rw [← Array.foldlM_toList, ranges_ofSteps] at hfold
  -- the fold succeeded, so it appended every range under its owner
  have hranges := foldlM_ok_eq_foldl _ (fun m x => push m x.owner x) (by
    intro m x m' hx
    split at hx
    · exact (Except.ok.inj hx).symm
    · cases hx) _ _ _ hfold
  rw [SymbolDatabase.rangeForAddress, SymbolDatabase.rangeList, hr, hranges, getD_foldl_push]
  simp only [TreeMap.getD_emptyc, List.map_id', Array.toList_append, List.nil_append,
    List.find?_filter]
  congr 1
  funext x
  simp [RangeListEntry.contains_iff_covers]

/-- Every database that `build` accepts from a sequence of builder operations answers each
indexed query as its plain definition over the operations says. -/
theorem queries_of_build (h : (ofSteps steps).build = .ok db) : Answers steps db where
  scopeForAddress := scopeForAddress_of_build h
  locationForAddress := locationForAddress_of_build h
  callFrameStart a := by
    rw [callFrameForAddress_of_build h, Option.map_map]
    exact Option.map_id'
  callFrameRules a cf hcf := by
    rw [callFrameForAddress_of_build h] at hcf
    obtain ⟨b, -, rfl⟩ := Option.mem_map.1 hcf
    exact sortRules_stable _
  childrenOf := childrenOf_of_build h
  filesNamed := filesNamed_of_build h
  locationsForFile := locationsForFile_of_build h
  locationsInScope_sorted k := (locationsInScope_of_build h k).1
  mem_locationsInScope k := (locationsInScope_of_build h k).2
  rangeForAddress := rangeForAddress_of_build h

/-- A compilation unit with one lexical block, a file with one row, a call frame and a range. -/
def sampleSteps : List BuildStep :=
  [.entry { key := ⟨1⟩, parent := none, tag := 17 },
   .entry { key := ⟨2⟩, parent := some ⟨1⟩, tag := 11, outerScope := some ⟨1⟩ },
   .file ⟨0⟩ "main.c" "/src",
   .transition 16 (some ⟨2⟩), .transition 48 none,
   .location { start := 16, length := 8, file := ⟨0⟩, line := 3, column := 1 },
   .callFrame 16,
   .range { owner := ⟨2⟩, base := 0, low := 16, high := 48 }]

theorem queries_of_build_sampleSteps :
    ∃ db, (ofSteps sampleSteps).build = .ok db ∧ Answers sampleSteps db :=
  ⟨_, rfl, queries_of_build rfl⟩

end DatabaseBuilder

end RemoteDebugger
