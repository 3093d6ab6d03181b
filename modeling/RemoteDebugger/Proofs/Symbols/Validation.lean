import RemoteDebugger.Proofs.Symbols.ScopeChains

/-!
# What building refuses

`build` refuses exactly the data with a defect in one of six ways, and names the first in a fixed
order (`build_refuses_first_defect`).
-/

namespace RemoteDebugger

open Std ScopeChain

/-- A defect of collected debug information, as the error that names it describes it. -/
inductive Defect where
  | unknownParent (e : Entry) (parent : EntryKey)
  | unknownOuterScope (e : Entry) (outer : EntryKey)
  | cycle (e : Entry)
  | unknownScope (address : UInt64) (k : EntryKey)
  | orphanRule (frame address : UInt64)
  | unknownOwner (r : RangeListEntry)
  | unknownFile (l : SourceLocation)
  deriving DecidableEq, Repr

namespace Defect

open DatabaseBuilder in
/-- The error that names a defect. -/
def error : Defect → DebugError
  | .unknownParent e p => corrupt ("entry " ++ e.key.render ++ " has unknown parent " ++ p.render)
  | .unknownOuterScope e o =>
    corrupt ("entry " ++ e.key.render ++ " has unknown outer scope " ++ o.render)
  | .cycle e => corrupt ("outer scope links of entry " ++ e.key.render ++ " form a cycle")
  | .unknownScope a k =>
    corrupt ("scope transition at 0x" ++ Hex.natDigits a.toNat ++ " references unknown entry " ++
      k.render)
  | .orphanRule frame address =>
    corrupt ("rule at 0x" ++ Hex.natDigits address.toNat ++ " belongs to call frame 0x" ++
      Hex.natDigits frame.toNat ++ " that was never added")
  | .unknownOwner r => corrupt ("range list entry owned by unknown entry " ++ r.owner.render)
  | .unknownFile l =>
    corrupt ("line row at 0x" ++ Hex.natDigits l.start.toNat ++ " references unknown file " ++
      Hex.natDigits l.file.raw.toNat)

end Defect

/-- A check reports a list of defects when it fails with the error of the first of them, and
succeeds when there is none. -/
def Reports {α : Type} (x : Except DebugError α) : List Defect → Prop
  | [] => ∃ a, x = .ok a
  | d :: _ => x = .error d.error

theorem Reports.bind {α β : Type} {x : Except DebugError α} {f : α → Except DebugError β}
    {ds es : List Defect} (hx : Reports x ds) (hf : ∀ a, x = .ok a → Reports (f a) es) :
    Reports (x >>= f) (ds ++ es) := by
  cases ds with
  | nil =>
    obtain ⟨a, rfl⟩ := hx
    exact hf a rfl
  | cons d ds =>
    show x >>= f = .error d.error
    rw [show x = .error d.error from hx]
    rfl

theorem Reports.ok_nil {α : Type} {x : Except DebugError α} {ds : List Defect} {a : α}
    (hx : Reports x ds) (h : x = .ok a) : ds = [] := by
  cases ds with
  | nil => rfl
  | cons d ds =>
    rw [show x = .error d.error from hx] at h
    cases h

/-- A loop that stops at the first item with a defect, with the error of that defect. -/
theorem reports_forIn {β : Type} (l : List β) (f : β → PUnit → Except DebugError (ForInStep PUnit))
    (defect : β → Option Defect)
    (hf : ∀ x ∈ l, f x ⟨⟩ = match defect x with
      | some d => .error d.error
      | none => .ok (.yield ⟨⟩)) :
    Reports (forIn l ⟨⟩ f) (l.filterMap defect) := by
  induction l with
  | nil => exact ⟨⟨⟩, rfl⟩
  | cons x xs ih =>
    rw [List.forIn_cons, hf x List.mem_cons_self, List.filterMap_cons]
    cases defect x with
    | none => exact ih fun y hy => hf y (List.mem_cons_of_mem x hy)
    | some d => rfl

/-! ## Links and cycles -/

/-- The links of an entry that name no key of `K`, parent first. -/
def linkDefects (K : List EntryKey) (e : Entry) : List Defect :=
  ((e.parent.filter (· ∉ K)).map (.unknownParent e)).toList ++
    ((e.outerScope.filter (· ∉ K)).map (.unknownOuterScope e)).toList

theorem linkDefects_eq_nil_iff (K : List EntryKey) (e : Entry) :
    linkDefects K e = [] ↔ ∀ k, (e.parent = some k ∨ e.outerScope = some k) → k ∈ K := by
  simp only [linkDefects, List.append_eq_nil_iff, Option.toList_eq_nil_iff, Option.map_eq_none_iff,
    Option.filter_eq_none_iff]
  constructor
  · rintro ⟨hp, ho⟩ k (hk | hk)
    · simpa using hp k hk
    · simpa using ho k hk
  · intro h
    exact ⟨fun k hk => by simpa using h k (.inl hk), fun k hk => by simpa using h k (.inr hk)⟩

/-- `checkLinks` reports the unknown links of the entries in order. -/
theorem reports_checkLinks {slots : TreeMap EntryKey Nat compare} {K : List EntryKey}
    (hK : ∀ k, slots.contains k ↔ k ∈ K) (L : List Entry) :
    Reports (DatabaseBuilder.checkLinks slots L) (L.flatMap (linkDefects K)) := by
  have hdec : ∀ k, slots.contains k = decide (k ∈ K) := fun k => by
    rw [Bool.eq_iff_iff, hK, decide_eq_true_iff]
  induction L with
  | nil => exact ⟨(), rfl⟩
  | cons e es ih =>
    rw [DatabaseBuilder.checkLinks, List.flatMap_cons, linkDefects, List.append_assoc]
    rcases hp : e.parent with _ | p
    · rcases ho : e.outerScope with _ | o
      · simpa using ih
      · by_cases hoK : o ∈ K
        · simpa [Option.filter, hoK, hdec] using ih
        · simp [Option.filter, hoK, hdec, Reports, Defect.error]
          rfl
    · by_cases hpK : p ∈ K
      · rcases ho : e.outerScope with _ | o
        · simpa [Option.filter, hpK, hdec] using ih
        · by_cases hoK : o ∈ K
          · simpa [Option.filter, hpK, hoK, hdec] using ih
          · simp [Option.filter, hpK, hoK, hdec, Reports, Defect.error]
            rfl
      · simp [Option.filter, hpK, hdec, Reports, Defect.error]
        rfl

/-- `checkCycles` reports, in order, the entries whose outer scope chain never stops. It walks
each entry's chain, with every key of the chains walked before known to lead to the top. -/
theorem reports_checkCycles_go {entries : Array Entry} {slots : TreeMap EntryKey Nat compare}
    {link : EntryKey → Option EntryKey} {S : List EntryKey} [DecidablePred (Endless link)]
    (hlink : ∀ k, (slots[k]?.bind fun i => entries[i]?).bind (·.outerScope) = link k)
    (hS : ∀ x, (link x).isSome → x ∈ S) (hlen : S.length ≤ entries.size) (L : List Entry)
    (hL : ∀ e ∈ L, link e.key = e.outerScope) :
    ∀ known : TreeSet EntryKey compare, (∀ x, known.contains x → ¬ Endless link x) →
      Reports (DatabaseBuilder.checkCycles.go entries slots known L)
        ((L.filter fun e => Endless link e.key).map .cycle) := by
  induction L with
  | nil => exact fun _ _ => ⟨(), rfl⟩
  | cons e es ih =>
    intro known hknown
    have hwalk := walkOuter_spec hlink hS hlen hknown e.key (entries.size + 1) [] e.outerScope
      (List.nodup_singleton _)
      (fun x hx => ⟨1, Nat.one_pos, by
        rw [List.mem_singleton.1 hx, follow_one, hL e List.mem_cons_self]⟩)
      (by simp)
    rw [DatabaseBuilder.checkCycles.go]
    split
    · rename_i hnone
      rw [hnone] at hwalk
      simp only [List.filter_cons, decide_eq_true hwalk, if_true, List.map_cons]
      rfl
    · rename_i path hsome
      rw [hsome] at hwalk
      have hne : ¬ Endless link e.key := hwalk e.key List.mem_cons_self
      simp only [List.filter_cons, decide_eq_false hne, Bool.false_eq_true, if_false]
      apply ih (fun e' he' => hL e' (List.mem_cons_of_mem e he'))
      -- the entry and every key its walk passed lead to the top
      intro x hx
      simp only [TreeSet.contains_insertMany_list, TreeSet.contains_insert, Bool.or_eq_true,
        beq_iff_eq, List.contains_iff_mem] at hx
      rcases hx with (hx | hx) | hx
      · rw [← LawfulEqCmp.eq_of_compare hx]
        exact hne
      · exact hknown x hx
      · exact hwalk x (List.mem_cons_of_mem _ hx)

/-! ## Keys in ascending order -/

/-- The distinct addresses of a list, in ascending order. -/
def ascending (l : List UInt64) : List UInt64 := l.eraseDups.mergeSort (· ≤ ·)

theorem mem_ascending {l : List UInt64} {a : UInt64} : a ∈ ascending l ↔ a ∈ l := by
  rw [ascending, (List.mergeSort_perm _ _).mem_iff, List.mem_eraseDups]

theorem ascending_sorted (l : List UInt64) : (ascending l).Pairwise (· < ·) := by
  have hnd : (ascending l).Nodup :=
    (List.mergeSort_perm _ _).nodup_iff.2 (Collected.nodup_eraseDups l)
  have hle : (ascending l).Pairwise (fun a b => decide (a ≤ b) = true) :=
    List.pairwise_mergeSort
      (fun a b c hab hbc => by simp only [decide_eq_true_eq] at *; exact UInt64.le_trans hab hbc)
      (fun a b => by simpa using UInt64.le_total a b) _
  exact (hle.and hnd).imp fun ⟨hab, hne⟩ => UInt64.lt_of_le_of_ne (by simpa using hab) hne

/-- An ordered map lists its entries in the order of any strictly ascending list of its keys. -/
theorem toList_eq_filterMap {β : Type} (t : TreeMap UInt64 β compare) {A : List UInt64}
    (hA : A.Pairwise (· < ·)) (hmem : ∀ a, a ∈ A ↔ a ∈ t) :
    t.toList = A.filterMap fun a => t[a]?.map (a, ·) := by
  have hkeys : t.toList.map (·.1) = A := by
    apply List.Pairwise.eq_of_mem_iff (List.pairwise_map.2 (toList_sorted t)) hA
    intro a
    rw [hmem, List.mem_map]
    constructor
    · rintro ⟨e, he, rfl⟩
      exact mem_of_mem_toList he
    · intro ha
      obtain ⟨v, hv⟩ := exists_mem_toList ha
      exact ⟨(a, v), hv, rfl⟩
  have hself : ∀ e ∈ t.toList, ((fun a => t[a]?.map (a, ·)) ∘ (·.1)) e = some e := by
    rintro ⟨a, v⟩ he
    simp [TreeMap.mem_toList_iff_getElem?_eq_some.1 he]
  rw [← hkeys, List.filterMap_map, List.filterMap_congr hself, List.filterMap_some]

/-! ## The defects of collected data -/

namespace Collected

variable (steps : List BuildStep)

/-- The outer scope of the entry last added under a key. -/
def outer (k : EntryKey) : Option EntryKey := (final steps k).bind (·.outerScope)

theorem mem_keys_of_final {k : EntryKey} {e : Entry} (h : final steps k = some e) :
    k ∈ keys steps := by
  obtain ⟨he, rfl⟩ := (final_eq_some_iff steps k e).1 h
  rw [← finalEntries_map_key]
  exact List.mem_map_of_mem he

/-- Only a key with an entry links on. -/
theorem mem_keys_of_outer {k : EntryKey} (h : (outer steps k).isSome) : k ∈ keys steps := by
  cases hf : final steps k with
  | none => simp [outer, hf] at h
  | some e => exact mem_keys_of_final steps hf

instance : DecidablePred (Endless (outer steps)) := fun k =>
  decidable_of_iff _ (endless_iff_mem (fun _ hx => mem_keys_of_outer steps hx) k).symm

/-- The final entries whose outer scope chain never stops, in first-insertion order. -/
def cycleDefects : List Defect :=
  ((finalEntries steps).filter fun e => Endless (outer steps) e.key).map .cycle

/-- The addresses with a scope transition, in ascending order. -/
def scopeAddresses : List UInt64 := ascending ((steps.filterMap BuildStep.transition?).map (·.1))

/-- The scope transitions that name an entry never added, by address. -/
def scopeDefects : List Defect :=
  (scopeAddresses steps).filterMap fun a =>
    (transition steps a).bind fun k =>
      k.bind fun k => if k ∈ keys steps then none else some (.unknownScope a k)

/-- The order rules set aside are refused in: by frame, then by rule address. -/
def orphanOrder (x y : UInt64 × UInt64) : Prop := x.1 < y.1 ∨ (x.1 = y.1 ∧ x.2 ≤ y.2)

instance : DecidableRel orphanOrder := fun x y =>
  inferInstanceAs (Decidable (x.1 < y.1 ∨ (x.1 = y.1 ∧ x.2 ≤ y.2)))

/-- The rules added to a frame before it was started, by frame, then rule address. -/
def orphanDefects : List Defect :=
  (((orphans steps).map fun o => (o.1, o.2.address)).mergeSort fun x y => orphanOrder x y).map
    fun x => .orphanRule x.1 x.2

/-- The ranges whose owner was never added, in the order added. -/
def ownerDefects : List Defect := ((ranges steps).filter (·.owner ∉ keys steps)).map .unknownOwner

/-- The starts of the line rows kept, in ascending order. -/
def rowStarts : List UInt64 :=
  ascending (((steps.filterMap BuildStep.location?).filter (·.length ≠ 0)).map (·.start))

/-- The line rows kept that name a file never registered, by start. -/
def fileDefects : List Defect :=
  (rowStarts steps).filterMap fun a =>
    (row steps a).bind fun l =>
      if ∃ f ∈ registrations steps, f.key = l.file then none else some (.unknownFile l)

/-- Every defect of the collected data, in the order `build` looks for them. -/
def defects : List Defect :=
  (finalEntries steps).flatMap (linkDefects (keys steps)) ++ cycleDefects steps ++
    scopeDefects steps ++ orphanDefects steps ++ ownerDefects steps ++ fileDefects steps

/-- The ways collected data can be wrong: a final entry's parent or outer scope is not a key
added; the outer scope links run in a cycle; the last scope transition at an address names an
entry never added; a rule was added to a frame before any start of that frame; a range's owner
was never added; a line row kept names a file never registered. -/
def Invalid : Prop :=
  (∃ e ∈ finalEntries steps, ∃ k, (e.parent = some k ∨ e.outerScope = some k) ∧
    k ∉ keys steps) ∨
  (∃ k n, 0 < n ∧ follow (outer steps) n k = some k) ∨
  (∃ a k, transition steps a = some (some k) ∧ k ∉ keys steps) ∨
  (∃ i frame r, steps[i]? = some (.rule frame r) ∧ .callFrame frame ∉ steps.take i) ∨
  (∃ r ∈ ranges steps, r.owner ∉ keys steps) ∨
  (∃ a l, row steps a = some l ∧ ∀ f ∈ registrations steps, f.key ≠ l.file)

end Collected

/-- A fold that stops at the first item with a defect, with the error of that defect. -/
theorem reports_foldlM {α β : Type} (f : β → α → Except DebugError β) (defect : α → Option Defect)
    (next : β → α → β)
    (hf : ∀ m x, f m x = match defect x with
      | some d => .error d.error
      | none => .ok (next m x)) :
    ∀ (L : List α) (init : β), Reports (L.foldlM f init) (L.filterMap defect) := by
  intro L
  induction L with
  | nil => exact fun init => ⟨init, rfl⟩
  | cons x xs ih =>
    intro init
    rw [List.foldlM_cons, hf init x, List.filterMap_cons]
    cases defect x with
    | none => exact ih _
    | some d => rfl

namespace Collected

variable (steps : List BuildStep)

theorem isSome_transition_iff (a : UInt64) :
    (transition steps a).isSome ↔ a ∈ (steps.filterMap BuildStep.transition?).map (·.1) := by
  simp only [transition, Option.isSome_map, List.getLast?_isSome, ne_eq, List.filter_eq_nil_iff,
    decide_eq_true_eq, not_forall, not_not, List.mem_map]
  constructor
  · rintro ⟨x, hx, rfl⟩
    exact ⟨x, hx, rfl⟩
  · rintro ⟨x, hx, rfl⟩
    exact ⟨x, hx, rfl⟩

theorem isSome_row_iff (a : UInt64) :
    (row steps a).isSome ↔
      a ∈ ((steps.filterMap BuildStep.location?).filter (·.length ≠ 0)).map (·.start) := by
  simp only [row, List.find?_isSome, decide_eq_true_eq, List.mem_map, List.mem_filter]
  constructor
  · rintro ⟨l, hl, rfl, hne⟩
    exact ⟨l, ⟨hl, by simpa using hne⟩, rfl⟩
  · rintro ⟨l, ⟨hl, hne⟩, rfl⟩
    exact ⟨l, hl, rfl, by simpa using hne⟩

/-- The row kept at a start starts there. -/
theorem row_start {a : UInt64} {l : SourceLocation} (h : row steps a = some l) : l.start = a := by
  have := List.find?_some h
  simp only [decide_eq_true_eq] at this
  exact this.1

end Collected

namespace DatabaseBuilder

open Collected

variable (steps : List BuildStep)

theorem mem_scopeAddresses_iff (a : UInt64) :
    a ∈ scopeAddresses steps ↔ a ∈ (ofSteps steps).transitions := by
  rw [scopeAddresses, mem_ascending, ← isSome_transition_iff, ← transitions_ofSteps,
    TreeMap.isSome_getElem?_iff_mem]

theorem mem_rowStarts_iff (a : UInt64) : a ∈ rowStarts steps ↔ a ∈ (ofSteps steps).locations := by
  rw [rowStarts, mem_ascending, ← isSome_row_iff, ← locations_ofSteps,
    TreeMap.isSome_getElem?_iff_mem]

/-- The builder holds the scope transitions in ascending order of address. -/
theorem transitions_toList_ofSteps :
    (ofSteps steps).transitions.toList =
      (scopeAddresses steps).filterMap fun a => (Collected.transition steps a).map (a, ·) := by
  have hsorted : (scopeAddresses steps).Pairwise (· < ·) := ascending_sorted _
  rw [toList_eq_filterMap _ hsorted (mem_scopeAddresses_iff steps)]
  simp only [transitions_ofSteps]

/-- The builder holds the line rows kept in ascending order of start. -/
theorem locations_toList_ofSteps :
    (ofSteps steps).locations.toList =
      (rowStarts steps).filterMap fun a => (Collected.row steps a).map (a, ·) := by
  have hsorted : (rowStarts steps).Pairwise (· < ·) := ascending_sorted _
  rw [toList_eq_filterMap _ hsorted (mem_rowStarts_iff steps)]
  simp only [locations_ofSteps]

/-- The loop over scope transitions meets the defects of `scopeDefects`, in order. -/
theorem scopeDefects_eq :
    (ofSteps steps).transitions.toList.filterMap (fun x => x.2.bind fun e =>
      if (ofSteps steps).slots.contains e then none else some (.unknownScope x.1 e)) =
      scopeDefects steps := by
  rw [transitions_toList_ofSteps, List.filterMap_filterMap, scopeDefects]
  apply List.filterMap_congr
  intro a _
  cases Collected.transition steps a with
  | none => rfl
  | some k =>
    cases k with
    | none => rfl
    | some e =>
      have hc : (ofSteps steps).slots.contains e = decide (e ∈ keys steps) := by
        rw [Bool.eq_iff_iff, slots_contains_ofSteps, decide_eq_true_iff]
      simp only [Option.map_some, Option.bind_some, hc, decide_eq_true_eq]

/-- A file key has a slot exactly when a file was registered under it. -/
theorem fileSlots_contains_ofSteps (k : FileKey) :
    (ofSteps steps).fileSlots.contains k ↔ ∃ f ∈ registrations steps, f.key = k := by
  rw [SlotsIndex.contains_iff (sound_ofSteps steps).fileSlots, ← exists_files_key, ← files_ofSteps]
  simp

/-- The fold over ranges meets the defects of `ownerDefects`, in order. -/
theorem ownerDefects_eq :
    (Collected.ranges steps).filterMap (fun r =>
      if (ofSteps steps).slots.contains r.owner then none else some (.unknownOwner r)) =
      ownerDefects steps := by
  have hc : ∀ k, (ofSteps steps).slots.contains k = decide (k ∈ keys steps) := fun k => by
    rw [Bool.eq_iff_iff, slots_contains_ofSteps, decide_eq_true_iff]
  simp only [hc, decide_eq_true_eq, ownerDefects]
  generalize Collected.ranges steps = L
  induction L with
  | nil => rfl
  | cons r rs ih => by_cases h : r.owner ∈ keys steps <;> simp [h, ih]

/-- The loop over line rows meets the defects of `fileDefects`, in order. -/
theorem fileDefects_eq :
    (ofSteps steps).locations.toList.filterMap (fun x =>
      if (ofSteps steps).fileSlots.contains x.2.file then none else some (.unknownFile x.2)) =
      fileDefects steps := by
  rw [locations_toList_ofSteps, List.filterMap_filterMap, fileDefects]
  apply List.filterMap_congr
  intro a _
  cases Collected.row steps a with
  | none => rfl
  | some l =>
    have hc : (ofSteps steps).fileSlots.contains l.file =
        decide (∃ f ∈ registrations steps, f.key = l.file) := by
      rw [Bool.eq_iff_iff, fileSlots_contains_ofSteps, decide_eq_true_iff]
    simp only [Option.map_some, Option.bind_some, hc, decide_eq_true_eq]

end DatabaseBuilder

/-! ## The first rule set aside -/

namespace Collected

theorem orphanOrder_refl (x : UInt64 × UInt64) : orphanOrder x x := .inr ⟨rfl, UInt64.le_refl _⟩

theorem orphanOrder_trans {x y z : UInt64 × UInt64} (hxy : orphanOrder x y)
    (hyz : orphanOrder y z) : orphanOrder x z := by
  rcases hxy with hxy | ⟨hxy, hxy'⟩ <;> rcases hyz with hyz | ⟨hyz, hyz'⟩
  · exact .inl (UInt64.lt_trans hxy hyz)
  · exact .inl (hyz ▸ hxy)
  · exact .inl (hxy ▸ hyz)
  · exact .inr ⟨hxy.trans hyz, UInt64.le_trans hxy' hyz'⟩

theorem orphanOrder_total (x y : UInt64 × UInt64) : orphanOrder x y ∨ orphanOrder y x := by
  by_cases h : x.1 = y.1
  · rcases UInt64.le_total x.2 y.2 with h' | h'
    · exact .inl (.inr ⟨h, h'⟩)
    · exact .inr (.inr ⟨h.symm, h'⟩)
  · rcases UInt64.lt_or_lt_of_ne h with h' | h'
    · exact .inl (.inl h')
    · exact .inr (.inl h')

theorem orphanOrder_antisymm {x y : UInt64 × UInt64} (hxy : orphanOrder x y)
    (hyx : orphanOrder y x) : x = y := by
  rcases hxy with hxy | ⟨hxy, hxy'⟩
  · rcases hyx with hyx | ⟨hyx, -⟩
    · exact absurd (UInt64.lt_trans hxy hyx) (UInt64.lt_irrefl _)
    · exact absurd (hyx ▸ hxy) (UInt64.lt_irrefl _)
  · rcases hyx with hyx | ⟨-, hyx'⟩
    · exact absurd (hxy ▸ hyx) (UInt64.lt_irrefl _)
    · exact Prod.ext hxy (UInt64.le_antisymm hxy' hyx')

end Collected

namespace DatabaseBuilder

open Collected

theorem firstOrphan_eq_none_iff (L : List (UInt64 × Rule)) : firstOrphan L = none ↔ L = [] := by
  cases L with
  | nil => simp [firstOrphan]
  | cons o os =>
    simp only [firstOrphan, reduceCtorEq, iff_false]
    split
    · simp
    · split <;> simp

/-- The rule `firstOrphan` picks is one of the rules, and first by frame, then address. -/
theorem firstOrphan_least :
    ∀ {L : List (UInt64 × Rule)} {p : UInt64 × Rule}, firstOrphan L = some p →
      p ∈ L ∧ ∀ q ∈ L, orphanOrder (p.1, p.2.address) (q.1, q.2.address)
  | [], _, h => by cases h
  | o :: os, p, h => by
    simp only [firstOrphan] at h
    split at h
    · rename_i hnone
      obtain rfl := Option.some.inj h
      rw [(firstOrphan_eq_none_iff os).1 hnone]
      exact ⟨List.mem_singleton_self _, fun q hq => List.mem_singleton.1 hq ▸ orphanOrder_refl _⟩
    · rename_i p' hsome
      obtain ⟨hmem, hle⟩ := firstOrphan_least hsome
      split at h
      · -- the earlier pick comes strictly before the new rule
        rename_i hlt
        obtain rfl := Option.some.inj h
        refine ⟨List.mem_cons_of_mem _ hmem, fun q hq => ?_⟩
        rcases List.mem_cons.1 hq with rfl | hq
        · rcases hlt with hlt | ⟨heq, hlt⟩
          · exact .inl hlt
          · exact .inr ⟨heq, UInt64.le_of_lt hlt⟩
        · exact hle q hq
      · -- otherwise the new rule is at least as early
        rename_i hnlt
        have hop : orphanOrder (o.1, o.2.address) (p'.1, p'.2.address) := by
          simp only [not_or, not_and] at hnlt
          by_cases h1 : o.1 = p'.1
          · exact .inr ⟨h1, UInt64.not_lt.1 (hnlt.2 h1.symm)⟩
          · exact .inl (UInt64.lt_of_le_of_ne (UInt64.not_lt.1 hnlt.1) h1)
        rw [← Option.some.inj h]
        exact ⟨List.mem_cons_self, fun q hq => by
          rcases List.mem_cons.1 hq with rfl | hq
          · exact orphanOrder_refl _
          · exact orphanOrder_trans hop (hle q hq)⟩

variable (steps : List BuildStep)

theorem orphanDefects_eq_nil_iff : orphanDefects steps = [] ↔ Collected.orphans steps = [] := by
  rw [orphanDefects, List.map_eq_nil_iff, ← List.length_eq_zero_iff,
    (List.mergeSort_perm _ _).length_eq, List.length_map, List.length_eq_zero_iff]

/-- The first defect among the rules set aside names the rule `firstOrphan` picks. -/
theorem orphanDefects_of_firstOrphan {p : UInt64 × Rule}
    (h : firstOrphan (Collected.orphans steps) = some p) :
    ∃ rest, orphanDefects steps = .orphanRule p.1 p.2.address :: rest := by
  obtain ⟨hmem, hle⟩ := firstOrphan_least h
  have hsorted := List.pairwise_mergeSort
    (fun x y z (hxy : decide (orphanOrder x y) = true) (hyz : decide (orphanOrder y z) = true) =>
      decide_eq_true (orphanOrder_trans (of_decide_eq_true hxy) (of_decide_eq_true hyz)))
    (fun x y => by
      rcases orphanOrder_total x y with h | h <;> simp [h])
    ((Collected.orphans steps).map fun o => (o.1, o.2.address))
  have hperm := List.mergeSort_perm ((Collected.orphans steps).map fun o => (o.1, o.2.address))
    (fun x y => decide (orphanOrder x y))
  have hpm : (p.1, p.2.address) ∈ ((Collected.orphans steps).map fun o => (o.1, o.2.address)).mergeSort
      (fun x y => decide (orphanOrder x y)) := hperm.mem_iff.2 (List.mem_map_of_mem hmem)
  -- the head of the sorted keys is at most every key, and `p`'s key is at most every key
  cases hM : ((Collected.orphans steps).map fun o => (o.1, o.2.address)).mergeSort
      (fun x y => decide (orphanOrder x y)) with
  | nil => rw [hM] at hpm; cases hpm
  | cons x rest =>
    rw [hM] at hsorted hperm hpm
    have hx : x = (p.1, p.2.address) := by
      obtain ⟨q, hq, rfl⟩ := List.mem_map.1 (hperm.mem_iff.1 List.mem_cons_self)
      apply orphanOrder_antisymm _ (hle q hq)
      rcases List.mem_cons.1 hpm with h' | h'
      · rw [← h']
        exact orphanOrder_refl _
      · exact of_decide_eq_true (List.rel_of_pairwise_cons hsorted h')
    refine ⟨rest.map fun x => .orphanRule x.1 x.2, ?_⟩
    rw [orphanDefects, hM, List.map_cons, hx]

end DatabaseBuilder

/-! ## The checks of `build`, one after another -/

namespace DatabaseBuilder

open Collected

variable (steps : List BuildStep)

theorem reports_checkCycles_ofSteps :
    Reports (checkCycles (ofSteps steps).entries (ofSteps steps).slots) (cycleDefects steps) := by
  have hlink : ∀ k, ((ofSteps steps).slots[k]?.bind fun i => (ofSteps steps).entries[i]?).bind
      (·.outerScope) = outer steps k := fun k => by rw [find_ofSteps]; rfl
  have hS : ∀ x, (outer steps x).isSome → x ∈ keys steps := fun x hx => mem_keys_of_outer steps hx
  have hlen : (keys steps).length ≤ (ofSteps steps).entries.size := by
    rw [← finalEntries_map_key, List.length_map, ← entries_ofSteps, Array.length_toList]
  have hL : ∀ e ∈ (ofSteps steps).entries.toList, outer steps e.key = e.outerScope := by
    intro e he
    rw [entries_ofSteps] at he
    rw [outer, (final_eq_some_iff steps e.key e).2 ⟨he, rfl⟩]
    rfl
  have h := reports_checkCycles_go hlink hS hlen _ hL ∅ (fun x hx => by simp at hx)
  have hlist : (((ofSteps steps).entries.toList.filter fun e => Endless (outer steps) e.key).map
      .cycle) = cycleDefects steps := by
    rw [entries_ofSteps]
    rfl
  rw [hlist] at h
  exact h

/-- `build` fails with the error of the first defect of the collected data, and succeeds when
there is none. -/
theorem reports_build : Reports (ofSteps steps).build (defects steps) := by
  have hlinks := reports_checkLinks (fun k => slots_contains_ofSteps steps k)
    (ofSteps steps).entries.toList
  have hlist : (ofSteps steps).entries.toList.flatMap (linkDefects (keys steps)) =
      (finalEntries steps).flatMap (linkDefects (keys steps)) := by
    rw [entries_ofSteps]
  rw [hlist] at hlinks
  rw [build, defects]
  simp only [List.append_assoc]
  refine Reports.bind hlinks fun _ _ => ?_
  refine Reports.bind (reports_checkCycles_ofSteps steps) fun _ _ => ?_
  refine Reports.bind ?_ fun _ _ => ?_
  · rw [← scopeDefects_eq]
    apply reports_forIn
    rintro ⟨a, k⟩ -
    cases k with
    | none => rfl
    | some e =>
      cases h : (ofSteps steps).slots.contains e <;>
        simp only [h, Option.bind_some, Bool.not_false, Bool.not_true, ↓reduceIte,
          Bool.false_eq_true] <;> rfl
  · -- the rules set aside: the first by frame and address, if there is one
    rw [orphans_ofSteps]
    cases ho : firstOrphan (Collected.orphans steps) with
    | some p =>
      obtain ⟨rest, hrest⟩ := orphanDefects_of_firstOrphan steps ho
      obtain ⟨frame, r⟩ := p
      rw [hrest]
      rfl
    | none =>
      rw [(orphanDefects_eq_nil_iff steps).2 ((firstOrphan_eq_none_iff _).1 ho), List.nil_append]
      dsimp only
      refine Reports.bind ?_ fun _ _ => ?_
      · rw [← Array.foldlM_toList, ranges_ofSteps, ← ownerDefects_eq]
        apply reports_foldlM _ _ fun m r => push m r.owner r
        intro m r
        cases (ofSteps steps).slots.contains r.owner <;> rfl
      · rw [← List.append_nil (fileDefects steps)]
        refine Reports.bind ?_ fun _ _ => ⟨_, rfl⟩
        rw [← fileDefects_eq]
        apply reports_forIn
        rintro ⟨a, l⟩ hl
        -- a row sits under its own start, which is the address the error names
        obtain ⟨ha, -⟩ := (sound_ofSteps steps).rows a l (TreeMap.mem_toList_iff_getElem?_eq_some.1 hl)
        subst ha
        dsimp only
        cases (ofSteps steps).fileSlots.contains l.file <;> rfl

end DatabaseBuilder

/-! ## Each kind of defect, said over the operations -/

namespace Collected

variable (steps : List BuildStep)

theorem linkDefects_ne_nil_iff :
    (finalEntries steps).flatMap (linkDefects (keys steps)) ≠ [] ↔
      ∃ e ∈ finalEntries steps, ∃ k, (e.parent = some k ∨ e.outerScope = some k) ∧
        k ∉ keys steps := by
  simp only [ne_eq, List.flatMap_eq_nil_iff, linkDefects_eq_nil_iff, not_forall, exists_prop]

theorem cycleDefects_ne_nil_iff :
    cycleDefects steps ≠ [] ↔ ∃ k n, 0 < n ∧ follow (outer steps) n k = some k := by
  simp only [cycleDefects, ne_eq, List.map_eq_nil_iff, List.filter_eq_nil_iff,
    decide_eq_true_eq, not_forall, not_not, exists_prop]
  constructor
  · rintro ⟨e, -, he⟩
    exact exists_cycle (fun x hx => mem_keys_of_outer steps hx) he
  · rintro ⟨k, n, hn, hk⟩
    -- a key on a cycle links on, so it has a final entry
    have hlinks : (follow (outer steps) 1 k).isSome := isSome_follow_of_le hn (by rw [hk]; rfl)
    obtain ⟨e, he⟩ := Option.isSome_iff_exists.1
      (final_isSome steps (mem_keys_of_outer steps hlinks))
    obtain ⟨hmem, rfl⟩ := (final_eq_some_iff steps k e).1 he
    exact ⟨e, hmem, endless_of_cycle hn hk⟩

theorem scopeDefects_ne_nil_iff :
    scopeDefects steps ≠ [] ↔ ∃ a k, transition steps a = some (some k) ∧ k ∉ keys steps := by
  simp only [scopeDefects, ne_eq, List.filterMap_eq_nil_iff, not_forall, exists_prop]
  constructor
  · rintro ⟨a, -, ha⟩
    cases ht : transition steps a with
    | none => simp [ht] at ha
    | some o =>
      cases o with
      | none => simp [ht] at ha
      | some k =>
        by_cases hk : k ∈ keys steps
        · simp [ht, hk] at ha
        · exact ⟨a, k, ht, hk⟩
  · rintro ⟨a, k, ht, hk⟩
    have ha : a ∈ scopeAddresses steps := by
      rw [scopeAddresses, mem_ascending, ← isSome_transition_iff, ht]
      rfl
    exact ⟨a, ha, by simp [ht, hk]⟩

theorem rule?_eq_some_iff (s : BuildStep) (frame : UInt64) (r : Rule) :
    s.rule? = some (frame, r) ↔ s = .rule frame r := by
  cases s <;> simp [BuildStep.rule?]

theorem mem_frames_iff (a : UInt64) : a ∈ frames steps ↔ .callFrame a ∈ steps := by
  simp only [frames, List.mem_filterMap]
  constructor
  · rintro ⟨s, hs, ha⟩
    cases s <;> simp only [BuildStep.callFrame?, reduceCtorEq, Option.some.injEq] at ha
    exact ha ▸ hs
  · intro h
    exact ⟨_, h, rfl⟩

/-- A rule is set aside exactly when it was added before any start of its frame. -/
theorem mem_orphans_iff (frame : UInt64) (r : Rule) :
    (frame, r) ∈ orphans steps ↔
      ∃ i, steps[i]? = some (.rule frame r) ∧ .callFrame frame ∉ steps.take i := by
  simp only [orphans, rulesMarked, List.mem_map, List.mem_filter, List.mem_filterMap,
    Option.map_eq_some_iff, List.mem_zipIdx_iff_getElem?, Prod.exists]
  constructor
  · rintro ⟨a, b, m, ⟨⟨s, i, hs, a', b', hrule, hmark⟩, hm⟩, hab⟩
    simp only [Prod.mk.injEq] at hmark hab
    obtain ⟨⟨rfl, rfl⟩, hc⟩ := hmark
    obtain ⟨rfl, rfl⟩ := hab
    refine ⟨i, by rw [hs, (rule?_eq_some_iff s _ _).1 hrule], fun hin => ?_⟩
    have : (frames (steps.take i)).contains a' = true :=
      List.contains_iff_mem.2 ((mem_frames_iff _ a').2 hin)
    rw [hc] at this
    simp_all
  · rintro ⟨i, hs, hnot⟩
    refine ⟨frame, r, false, ⟨⟨_, i, hs, frame, r, rfl, ?_⟩, rfl⟩, rfl⟩
    have : frame ∉ frames (steps.take i) := fun h => hnot ((mem_frames_iff _ frame).1 h)
    simpa using this

theorem orphanDefects_ne_nil_iff :
    orphanDefects steps ≠ [] ↔
      ∃ i frame r, steps[i]? = some (.rule frame r) ∧ .callFrame frame ∉ steps.take i := by
  rw [ne_eq, DatabaseBuilder.orphanDefects_eq_nil_iff]
  constructor
  · intro h
    obtain ⟨⟨frame, r⟩, hfr⟩ := List.exists_mem_of_ne_nil _ h
    obtain ⟨i, hi⟩ := (mem_orphans_iff steps frame r).1 hfr
    exact ⟨i, frame, r, hi⟩
  · rintro ⟨i, frame, r, hi⟩
    exact List.ne_nil_of_mem ((mem_orphans_iff steps frame r).2 ⟨i, hi⟩)

theorem ownerDefects_ne_nil_iff :
    ownerDefects steps ≠ [] ↔ ∃ r ∈ ranges steps, r.owner ∉ keys steps := by
  simp only [ownerDefects, ne_eq, List.map_eq_nil_iff, List.filter_eq_nil_iff, decide_eq_true_eq,
    not_forall, not_not, exists_prop]

theorem fileDefects_ne_nil_iff :
    fileDefects steps ≠ [] ↔
      ∃ a l, row steps a = some l ∧ ∀ f ∈ registrations steps, f.key ≠ l.file := by
  simp only [fileDefects, ne_eq, List.filterMap_eq_nil_iff, not_forall, exists_prop]
  constructor
  · rintro ⟨a, -, ha⟩
    cases hr : row steps a with
    | none => simp [hr] at ha
    | some l =>
      by_cases hf : ∃ f ∈ registrations steps, f.key = l.file
      · simp [hr, hf] at ha
      · exact ⟨a, l, hr, fun f hf' hk => hf ⟨f, hf', hk⟩⟩
  · rintro ⟨a, l, hr, hf⟩
    have ha : a ∈ rowStarts steps := by
      rw [rowStarts, mem_ascending, ← isSome_row_iff, hr]
      rfl
    have hnot : ¬ ∃ f ∈ registrations steps, f.key = l.file := fun ⟨f, hf', hk⟩ => hf f hf' hk
    exact ⟨a, ha, by simp [hr, hnot]⟩

/-- The data is invalid exactly when it has a defect. -/
theorem invalid_iff_defects_ne_nil : Invalid steps ↔ defects steps ≠ [] := by
  have happ : ∀ l₁ l₂ : List Defect, l₁ ++ l₂ ≠ [] ↔ l₁ ≠ [] ∨ l₂ ≠ [] := fun l₁ l₂ => by
    rw [ne_eq, List.append_eq_nil_iff, not_and_or]
  rw [Invalid, defects, happ, happ, happ, happ, happ, linkDefects_ne_nil_iff,
    cycleDefects_ne_nil_iff, scopeDefects_ne_nil_iff, orphanDefects_ne_nil_iff,
    ownerDefects_ne_nil_iff, fileDefects_ne_nil_iff]
  simp only [or_assoc]

end Collected

/-! ## The walk of `nearestScopeWithTag` -/

namespace SymbolDatabase

/-- The entry `n` outer scope links out from an entry, the way `nearestScopeWithTag` walks. -/
def outward (db : SymbolDatabase) (n : Nat) (e : Option Entry) : Option Entry :=
  (fun o => o.bind fun e => e.outerScope.bind db.entry)^[n] e

/-- Once the walk out from an entry has stopped, more fuel changes nothing. -/
theorem go_of_outward_eq_none (db : SymbolDatabase) (tag : Nat) :
    ∀ (n : Nat) (e : Option Entry), db.outward n e = none →
      ∀ m, n ≤ m → nearestScopeWithTag.go db tag m e = nearestScopeWithTag.go db tag n e
  | 0, e, h, m, _ => by
    have he : e = none := h
    subst he
    cases m <;> rfl
  | n + 1, none, _, m, hm => by
    obtain ⟨m, rfl⟩ : ∃ m', m = m' + 1 := ⟨m - 1, by omega⟩
    rfl
  | n + 1, some x, h, m, hm => by
    obtain ⟨m, rfl⟩ : ∃ m', m = m' + 1 := ⟨m - 1, by omega⟩
    have h' : db.outward n (x.outerScope.bind db.entry) = none := by
      rwa [outward, Function.iterate_succ_apply] at h
    simp only [nearestScopeWithTag.go]
    split
    · rfl
    · exact go_of_outward_eq_none db tag n _ h' m (by omega)

/-- With the entries found as the final ones of a sequence of operations, walking out from the
entry of a key follows that key's outer scope chain. -/
theorem outward_entry {db : SymbolDatabase} {steps : List BuildStep}
    (hentry : ∀ k, db.entry k = Collected.final steps k) (n : Nat) (k : EntryKey) :
    db.outward n (db.entry k) =
      (follow (Collected.outer steps) n k).bind (Collected.final steps) := by
  induction n with
  | zero => simp [outward, follow, hentry]
  | succ n ih =>
    rw [outward, Function.iterate_succ_apply', ← outward, ih]
    show _ = ((follow (Collected.outer steps) n k).bind (Collected.outer steps)).bind _
    cases follow (Collected.outer steps) n k with
    | none => rfl
    | some x =>
      simp only [Option.bind_some, Collected.outer, Option.bind_assoc]
      congr
      funext e
      rw [← funext hentry]

end SymbolDatabase

/-! ## Building refuses exactly the invalid data -/

namespace DatabaseBuilder

open Collected

/-- On a database built from a sequence of operations with no defect, no outer scope chain is
endless, so the walk out from any key stops within as many steps as there are entries. -/
theorem outward_stops {steps : List BuildStep} {db : SymbolDatabase}
    (hbuild : (ofSteps steps).build = .ok db) (k : EntryKey) :
    ∃ n ≤ db.entries.size, db.outward n (db.entry k) = none := by
  have hdefects := (reports_build steps).ok_nil hbuild
  have hcycles : cycleDefects steps = [] := by
    simp only [defects, List.append_eq_nil_iff] at hdefects
    exact hdefects.1.1.1.1.2
  have hbuilt := built_of_build hbuild
  have hentry : ∀ k, db.entry k = final steps k := fun k => by
    rw [SymbolDatabase.entry, hbuilt.slots, hbuilt.entries, find_ofSteps]
  -- an endless chain would start at a key with a final entry, which `cycleDefects` would list
  have hfinite : ¬ Endless (outer steps) k := by
    intro hk
    obtain ⟨e, he⟩ := Option.isSome_iff_exists.1
      (final_isSome steps (mem_keys_of_outer steps hk.isSome_link))
    obtain ⟨hmem, rfl⟩ := (final_eq_some_iff steps k e).1 he
    have : e ∈ (finalEntries steps).filter fun e => Endless (outer steps) e.key :=
      List.mem_filter.2 ⟨hmem, decide_eq_true hk⟩
    rw [cycleDefects, List.map_eq_nil_iff] at hcycles
    rw [hcycles] at this
    cases this
  rw [endless_iff_mem (fun x hx => mem_keys_of_outer steps hx)] at hfinite
  push Not at hfinite
  obtain ⟨n, hn, hnone⟩ := hfinite
  have hsize : (keys steps).length = db.entries.size := by
    rw [hbuilt.entries, ← finalEntries_map_key, List.length_map, ← entries_ofSteps,
      Array.length_toList]
  refine ⟨n, hsize ▸ hn, ?_⟩
  rw [SymbolDatabase.outward_entry hentry]
  cases hf : follow (outer steps) n k with
  | none => rfl
  | some x =>
    cases hx : final steps x with
    | none => simp [hx]
    | some e => exact absurd hf (hnone x (mem_keys_of_final steps hx))

/-- Building the data of any sequence of operations fails with the error of its first defect and
succeeds when it has none, and it has one exactly when it is invalid. On a database it builds, the
walk of `nearestScopeWithTag` out from any key stops within as many steps as there are entries, so
its answer is the one any larger fuel gives. -/
theorem build_refuses_first_defect (steps : List BuildStep) :
    (Invalid steps ↔ defects steps ≠ []) ∧ Reports (ofSteps steps).build (defects steps) ∧
      ∀ db, (ofSteps steps).build = .ok db → ∀ k tag, ∃ n ≤ db.entries.size,
        db.outward n (db.entry k) = none ∧
        ∀ m, n ≤ m → SymbolDatabase.nearestScopeWithTag.go db tag m (db.entry k) =
          db.nearestScopeWithTag k tag := by
  refine ⟨invalid_iff_defects_ne_nil steps, reports_build steps, fun db hbuild k tag => ?_⟩
  obtain ⟨n, hn, hstop⟩ := outward_stops hbuild k
  refine ⟨n, hn, hstop, fun m hm => ?_⟩
  rw [SymbolDatabase.go_of_outward_eq_none db tag n _ hstop m hm,
    SymbolDatabase.nearestScopeWithTag]
  exact (SymbolDatabase.go_of_outward_eq_none db tag n _ hstop _ (by omega)).symm

end DatabaseBuilder

end RemoteDebugger
