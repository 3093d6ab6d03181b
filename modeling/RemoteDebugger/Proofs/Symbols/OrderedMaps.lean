import Mathlib
import RemoteDebugger.Symbols.Builder

/-!
# Ordered maps of the symbol database

A floor lookup finds the entry with the greatest key at or below an address, and a fold of
appends lists under each key its values in the order folded.
-/

namespace RemoteDebugger

open Std

theorem EntryKey.compare_eq (a b : EntryKey) : compare a b = compare a.raw b.raw := by
  cases a; cases b
  simp only [compare, instOrdEntryKey.ord, Ordering.then_eq]

theorem FileKey.compare_eq (a b : FileKey) : compare a b = compare a.raw b.raw := by
  cases a; cases b
  simp only [compare, instOrdFileKey.ord, Ordering.then_eq]

instance : TransOrd EntryKey where
  eq_swap {a b} := by rw [EntryKey.compare_eq, EntryKey.compare_eq]; exact OrientedCmp.eq_swap
  isLE_trans {a b c} := by simp only [EntryKey.compare_eq]; exact TransCmp.isLE_trans

instance : LawfulEqOrd EntryKey where
  compare_self {a} := by rw [EntryKey.compare_eq]; exact ReflCmp.compare_self
  eq_of_compare {a b} h := by
    rw [EntryKey.compare_eq] at h
    cases a; cases b
    exact congrArg EntryKey.mk (LawfulEqCmp.eq_of_compare h)

instance : TransOrd FileKey where
  eq_swap {a b} := by rw [FileKey.compare_eq, FileKey.compare_eq]; exact OrientedCmp.eq_swap
  isLE_trans {a b c} := by simp only [FileKey.compare_eq]; exact TransCmp.isLE_trans

instance : LawfulEqOrd FileKey where
  compare_self {a} := by rw [FileKey.compare_eq]; exact ReflCmp.compare_self
  eq_of_compare {a b} h := by
    rw [FileKey.compare_eq] at h
    cases a; cases b
    exact congrArg FileKey.mk (LawfulEqCmp.eq_of_compare h)

/-! ## Floor lookups -/

section Floor

variable {β : Type}

/-- A floor lookup scans the entries from the greatest key down. -/
theorem getEntryLE?_eq_find?_reverse (t : TreeMap UInt64 β compare) (a : UInt64) :
    t.getEntryLE? a = t.toList.reverse.find? (fun e => e.1 ≤ a) := by
  rw [TreeMap.getEntryLE?, DTreeMap.Const.getEntryLE?, DTreeMap.Internal.Impl.Const.getEntryLE?_eq_map,
    DTreeMap.Internal.Impl.getEntryLE?_eq_findRev? t.inner.wf.ordered, TreeMap.toList,
    DTreeMap.Const.toList, DTreeMap.Internal.Impl.Const.toList_eq_toListModel_map]
  simp only [List.findRev?_eq_find?_reverse, ← List.map_reverse, List.find?_map, Function.comp_def]
  congr
  funext e
  rw [Bool.eq_iff_iff, decide_eq_true_iff]
  exact LawfulOrderOrd.isLE_compare _ _

theorem toList_sorted (t : TreeMap UInt64 β compare) :
    t.toList.Pairwise (fun x y => x.1 < y.1) :=
  TreeMap.ordered_keys_toList.imp fun h => compare_eq_lt.mp h

theorem mem_of_mem_toList {t : TreeMap UInt64 β compare} {e : UInt64 × β} (h : e ∈ t.toList) :
    e.1 ∈ t :=
  TreeMap.isSome_getElem?_iff_mem.mp (by rw [TreeMap.mem_toList_iff_getElem?_eq_some.mp h]; rfl)

theorem exists_mem_toList {t : TreeMap UInt64 β compare} {k : UInt64} (h : k ∈ t) :
    ∃ v, (k, v) ∈ t.toList := by
  obtain ⟨v, hv⟩ := Option.isSome_iff_exists.mp (TreeMap.isSome_getElem?_iff_mem.mpr h)
  exact ⟨v, TreeMap.mem_toList_iff_getElem?_eq_some.mpr hv⟩

/-- In a list sorted by key, the first entry at or below a bound from the back has the greatest
key at or below it. -/
theorem find?_reverse_le_sound {L : List (UInt64 × β)} (hL : L.Pairwise (fun x y => x.1 < y.1))
    {a : UInt64} {e : UInt64 × β} (h : L.reverse.find? (fun e => e.1 ≤ a) = some e) :
    e ∈ L ∧ e.1 ≤ a ∧ ∀ e' ∈ L, e'.1 ≤ a → e'.1 ≤ e.1 := by
  obtain ⟨hle, as, bs, hsplit, hbefore⟩ := List.find?_eq_some_iff_append.mp h
  have hL' : L = bs.reverse ++ e :: as.reverse := by
    rw [← List.reverse_reverse L, hsplit]; simp
  rw [hL'] at hL ⊢
  refine ⟨by simp, by simpa using hle, ?_⟩
  intro e' he' hle'
  rw [List.pairwise_append, List.pairwise_cons] at hL
  rcases List.mem_append.mp he' with hb | hc
  · exact UInt64.le_of_lt (hL.2.2 e' hb e List.mem_cons_self)
  · rcases List.mem_cons.mp hc with rfl | ha
    · exact UInt64.le_refl _
    · have := hbefore e' (List.mem_reverse.mp ha); simp_all

/-- A floor lookup answers the entry with the greatest key at or below the address. -/
theorem getEntryLE?_eq_some_iff (t : TreeMap UInt64 β compare) (a k : UInt64) (v : β) :
    t.getEntryLE? a = some (k, v) ↔ t[k]? = some v ∧ k ≤ a ∧ ∀ k' ∈ t, k' ≤ a → k' ≤ k := by
  rw [getEntryLE?_eq_find?_reverse]
  constructor
  · intro h
    obtain ⟨hmem, hle, hmax⟩ := find?_reverse_le_sound (toList_sorted t) h
    refine ⟨TreeMap.mem_toList_iff_getElem?_eq_some.mp hmem, hle, fun k' hk' hk'a => ?_⟩
    obtain ⟨v', hv'⟩ := exists_mem_toList hk'
    exact hmax _ hv' hk'a
  · rintro ⟨hv, hle, hmax⟩
    have hmem : (k, v) ∈ t.toList := TreeMap.mem_toList_iff_getElem?_eq_some.mpr hv
    obtain ⟨e, he⟩ : ∃ e, t.toList.reverse.find? (fun e => e.1 ≤ a) = some e := by
      apply Option.isSome_iff_exists.mp
      rw [List.find?_isSome]
      exact ⟨(k, v), List.mem_reverse.mpr hmem, by simpa using hle⟩
    obtain ⟨hemem, hea, hemax⟩ := find?_reverse_le_sound (toList_sorted t) he
    have hek : e.1 = k :=
      UInt64.le_antisymm (hmax _ (mem_of_mem_toList hemem) hea) (hemax _ hmem hle)
    have hev : t[k]? = some e.2 := hek ▸ TreeMap.mem_toList_iff_getElem?_eq_some.mp hemem
    rw [he, show e = (e.1, e.2) from rfl, hek, Option.some.inj (hv.symm.trans hev)]

/-- A floor lookup finds nothing exactly when every key is above the address. -/
theorem getEntryLE?_eq_none_iff (t : TreeMap UInt64 β compare) (a : UInt64) :
    t.getEntryLE? a = none ↔ ∀ k ∈ t, a < k := by
  rw [getEntryLE?_eq_find?_reverse, List.find?_eq_none]
  constructor
  · intro h k hk
    obtain ⟨v, hv⟩ := exists_mem_toList hk
    simpa using h (k, v) (List.mem_reverse.mpr hv)
  · intro h e he
    simpa using h e.1 (mem_of_mem_toList (List.mem_reverse.mp he))

/-- The floor lookup at a key present in the map finds that key. -/
theorem getEntryLE?_self {t : TreeMap UInt64 β compare} {k : UInt64} {v : β} (h : t[k]? = some v) :
    t.getEntryLE? k = some (k, v) :=
  (getEntryLE?_eq_some_iff t k k v).mpr ⟨h, UInt64.le_refl k, fun _ _ hk => hk⟩

end Floor

theorem values_eq_map_snd {α β : Type} {cmp : α → α → Ordering} (t : TreeMap α β cmp) :
    t.values = t.toList.map (·.2) := by
  rw [TreeMap.values, DTreeMap.values, DTreeMap.Internal.Impl.values_eq_map_snd, TreeMap.toList,
    DTreeMap.Const.toList, DTreeMap.Internal.Impl.Const.toList_eq_toListModel_map, List.map_map]
  rfl

/-! ## Lists built by appending under a key -/

section Append

variable {κ α β : Type} [Ord κ] [TransOrd κ] [LawfulEqOrd κ] [DecidableEq κ]

theorem getD_push (m : TreeMap κ (Array β) compare) (k' k : κ) (v : β) :
    (DatabaseBuilder.push m k' v).getD k #[] = if k' = k then (m.getD k #[]).push v else m.getD k #[] := by
  unfold DatabaseBuilder.push
  rw [TreeMap.getD_insert]
  by_cases hk : k' = k
  · subst hk; simp
  · simp [hk]

/-- Appending each item's value under its key lists, under every key, the values of the items
with that key, in order. -/
theorem getD_foldl_push (key : α → κ) (val : α → β) (l : List α) (m : TreeMap κ (Array β) compare)
    (k : κ) :
    (l.foldl (fun m x => DatabaseBuilder.push m (key x) (val x)) m).getD k #[] =
      m.getD k #[] ++ ((l.filter fun x => key x = k).map val).toArray := by
  induction l generalizing m with
  | nil => simp
  | cons x xs ih =>
    rw [List.foldl_cons, ih, getD_push]
    by_cases hx : key x = k
    · simp [hx]
    · simp [hx]

end Append

end RemoteDebugger
