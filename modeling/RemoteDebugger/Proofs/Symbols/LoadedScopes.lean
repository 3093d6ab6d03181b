import RemoteDebugger.Proofs.Symbols.Loading
import RemoteDebugger.Proofs.Symbols.Indices

/-!
# The scope of an address

Over the entries the DWARF reader yields, visited in preorder, the database built from their
visits answers the innermost scope whose code holds an address, when that code is laid out as a
tree of scopes lays it out (`scopeForAddress_innermost`). Loading a module is one such build.
-/

namespace RemoteDebugger

open Std DatabaseBuilder ScopeChain

namespace SymbolDatabase

variable (db : SymbolDatabase)

/-- The code an entry owns: each range of its range list, and its own `[low_pc, high_pc)` when it
is a scope and the range is not empty. -/
def spansOf (e : Entry) : List ScopeSpan :=
  (db.rangeList e.key).map (·.span e.outerScope) ++ e.ownSpan.toList

/-- The code of every entry, in the order of the entries. -/
def codeSpans : List ScopeSpan := db.entries.toList.flatMap db.spansOf

/-- The nearest enclosing scope of the entry with a key. -/
def outerOf (k : EntryKey) : Option EntryKey := (db.entry k).bind (·.outerScope)

/-- The spans of a database laid out as a tree of scopes lays them out: each is an interval, lies
inside a span of its entry's nearest enclosing scope, the spans of one entry are apart, and so are
the spans of entries neither of which encloses the other. -/
structure ScopeLayout : Prop where
  nonempty : ∀ s ∈ db.codeSpans, s.low < s.high
  nested : ∀ s ∈ db.codeSpans, ∀ p, db.outerOf s.owner = some p →
    ∃ u ∈ db.codeSpans, u.owner = p ∧ s.Within u
  own : ∀ e ∈ db.entries, (db.spansOf e).Pairwise ScopeSpan.Apart
  apart : ∀ s ∈ db.codeSpans, ∀ u ∈ db.codeSpans, s.owner ≠ u.owner →
    ¬ Encloses db.outerOf s.owner u.owner → ¬ Encloses db.outerOf u.owner s.owner → s.Apart u

end SymbolDatabase

/-! ## A loaded database as the visits of its entries -/

/-- A database holding the visits `vs`: their entries in order, each found by its key, the ranges
of each owner in the order added, and the transitions of their spans recorded in order. -/
structure Holds (db : SymbolDatabase) (vs : List Visit) : Prop where
  entries : db.entries.toList = vs.map (·.entry)
  slots : SlotsIndex db.slots db.entries Entry.key
  ranges : ∀ k, db.rangeList k = (vs.flatMap (·.ranges)).filter (·.owner = k)
  transitions : db.transitions = (vs.flatMap Visit.spans).foldl ScopeSpan.record ∅
  ordered : Visit.Ordered vs

/-- Visits of distinct keys add their entries one after the other. -/
theorem foldl_apply_entries {vs : List Visit} (hvs : vs.Pairwise fun v w => v.rank < w.rank) :
    ∀ b : DatabaseBuilder, SlotsIndex b.slots b.entries Entry.key →
      (∀ v ∈ vs, ∀ e ∈ b.entries, e.key ≠ v.entry.key) →
      (vs.foldl Visit.apply b).entries.toList = b.entries.toList ++ vs.map (·.entry) ∧
        SlotsIndex (vs.foldl Visit.apply b).slots (vs.foldl Visit.apply b).entries Entry.key := by
  induction vs with
  | nil => exact fun b hb _ => ⟨by simp, hb⟩
  | cons v vs ih =>
    intro b hb hfresh
    rw [List.pairwise_cons] at hvs
    -- the visit's key is new, so its entry is appended at the next slot
    have hslot : b.slots[v.entry.key]? = none := by
      cases hs : b.slots[v.entry.key]? with
      | none => rfl
      | some i =>
        obtain ⟨e, he, hkey⟩ := Option.map_eq_some_iff.1 ((hb _ i).1 hs)
        exact absurd hkey (hfresh v List.mem_cons_self e (Array.mem_of_getElem? he))
    have hnone : (Visit.apply b v).entries = b.entries.push v.entry ∧
        (Visit.apply b v).slots = b.slots.insert v.entry.key b.entries.size := by
      unfold Visit.apply DatabaseBuilder.addEntry
      simp [hslot]
    have hb' : SlotsIndex (Visit.apply b v).slots (Visit.apply b v).entries Entry.key := by
      rw [hnone.1, hnone.2]
      refine hb.push ?_
      rw [TreeMap.contains_eq_isSome_getElem?, hslot]
      rfl
    have hfresh' : ∀ w ∈ vs, ∀ e ∈ (Visit.apply b v).entries, e.key ≠ w.entry.key := by
      intro w hw e he
      rw [hnone.1] at he
      rcases Array.mem_push.1 he with he | rfl
      · exact hfresh w (List.mem_cons_of_mem v hw) e he
      · intro hkey
        have := hvs.1 w hw
        unfold Visit.rank at this
        rw [hkey] at this
        exact Nat.lt_irrefl _ this
    obtain ⟨hentries, hslots⟩ := ih hvs.2 (Visit.apply b v) hb' hfresh'
    refine ⟨?_, hslots⟩
    rw [List.foldl_cons, hentries, hnone.1]
    simp

/-- The ranges of a builder indexed by owner: the ranges of each owner, in the order added. -/
theorem rangeList_of_build {b : DatabaseBuilder} {db : SymbolDatabase} (h : b.build = .ok db)
    (k : EntryKey) : db.rangeList k = b.ranges.toList.filter (·.owner = k) := by
  obtain ⟨r, hr, hdb⟩ := (indexing_of_build h).ranges
  rw [← Array.foldlM_toList] at hr
  have hfold := foldlM_ok_eq_foldl _ (fun m (x : RangeListEntry) => push m x.owner x)
    (fun m x m' hm => by
      split at hm
      · exact (Except.ok.inj hm).symm
      · cases hm) _ _ _ hr
  unfold SymbolDatabase.rangeList
  rw [hdb, hfold, getD_foldl_push_of_some some RangeListEntry.owner id ?_]
  · simp
  · intro m x
    rfl

/-- A builder that agrees on scopes with ordered visits applied to the empty builder builds a
database holding those visits. -/
theorem holds_of_build {vs : List Visit} (hordered : Visit.Ordered vs) {b : DatabaseBuilder}
    (hb : SameScopes b (vs.foldl Visit.apply {})) {db : SymbolDatabase} (hbuild : b.build = .ok db) :
    Holds db vs := by
  have hbuilt := built_of_build hbuild
  obtain ⟨hentries, hslots⟩ := foldl_apply_entries hordered.increasing {} SlotsIndex.empty
    (fun _ _ _ he => absurd he (Array.not_mem_empty _))
  refine ⟨?_, ?_, fun k => ?_, ?_, hordered⟩
  · rw [hbuilt.entries, hb.entries, hentries]
    rfl
  · rw [hbuilt.slots, hbuilt.entries, hb.slots, hb.entries]
    exact hslots
  · rw [rangeList_of_build hbuild, hb.ranges, Visit.foldl_apply_ranges]
    simp
  · rw [hbuilt.transitions, hb.transitions, Visit.foldl_apply_transitions]

/-- Loading a module builds a database holding the visits of its entries. -/
theorem holds_of_load {bytes : ByteArray} {db : SymbolDatabase}
    (h : Loader.loadModule bytes = .ok (.ok db)) : ∃ vs, Holds db vs := by
  obtain ⟨vs, b, hb, hbuild, hordered⟩ := Loader.load_visits h
  exact ⟨vs, holds_of_build hordered hb hbuild⟩

/-! ## The lookup answers the innermost scope -/

/-- Each span of an entry's own bounds is the entry's, with its outer scope. -/
theorem Entry.ownSpan_owner {e : Entry} {s : ScopeSpan} (h : e.ownSpan = some s) :
    s.owner = e.key ∧ s.outer = e.outerScope := by
  unfold Entry.ownSpan at h
  split at h
  · split at h
    · split at h
      · cases h
        exact ⟨rfl, rfl⟩
      · cases h
    · cases h
  · cases h

/-- Following outer scope links that lower the rank of a key never raises it, and lowers it
after one link or more. -/
theorem rank_lt_of_encloses {link : EntryKey → Option EntryKey}
    (hlink : ∀ j p, link j = some p → p.raw.toNat < j.raw.toNat) {k j : EntryKey}
    (h : Encloses link k j) : k.raw.toNat < j.raw.toNat := by
  have hle : ∀ n m, follow link n j = some m → m.raw.toNat ≤ j.raw.toNat := by
    intro n
    induction n with
    | zero =>
      intro m hm
      cases hm
      exact Nat.le_refl _
    | succ n ih =>
      intro m hm
      obtain ⟨q, hq, hqm⟩ := Option.bind_eq_some_iff.1 hm
      exact Nat.le_of_lt (Nat.lt_of_lt_of_le (hlink q m hqm) (ih q hq))
  obtain ⟨n, hn, hk⟩ := h
  obtain ⟨n, rfl⟩ := Nat.exists_eq_add_of_lt hn
  obtain ⟨q, hq, hqk⟩ := Option.bind_eq_some_iff.1 hk
  exact Nat.lt_of_lt_of_le (hlink q k hqk) (hle _ q hq)

namespace Holds

variable {db : SymbolDatabase} {vs : List Visit}

theorem nodup_ranks (h : Holds db vs) : (vs.map Visit.rank).Nodup :=
  (List.pairwise_map.2 h.ordered.increasing).imp Nat.ne_of_lt

/-- No two visits share a key. -/
theorem eq_of_key (h : Holds db vs) {v w : Visit} (hv : v ∈ vs) (hw : w ∈ vs)
    (hkey : v.entry.key = w.entry.key) : v = w :=
  List.inj_on_of_nodup_map h.nodup_ranks hv hw (by unfold Visit.rank; rw [hkey])

theorem mem_entries (h : Holds db vs) {v : Visit} (hv : v ∈ vs) : v.entry ∈ db.entries := by
  rw [← Array.mem_toList_iff, h.entries]
  exact List.mem_map_of_mem hv

/-- The lookup of a visited key finds the visited entry. -/
theorem entry_key (h : Holds db vs) {v : Visit} (hv : v ∈ vs) : db.entry v.entry.key = some v.entry :=
  (h.slots.find_eq_some_iff _ _).2 ⟨h.mem_entries hv, rfl⟩

theorem outerOf_key (h : Holds db vs) {v : Visit} (hv : v ∈ vs) :
    db.outerOf v.entry.key = v.entry.outerScope := by
  simp [SymbolDatabase.outerOf, h.entry_key hv]

/-- An outer scope link goes to a smaller key. -/
theorem outerOf_rank (h : Holds db vs) {k p : EntryKey} (hp : db.outerOf k = some p) :
    p.raw.toNat < k.raw.toNat := by
  obtain ⟨e, he, hep⟩ := Option.bind_eq_some_iff.1 hp
  obtain ⟨hmem, rfl⟩ := (h.slots.find_eq_some_iff _ _).1 he
  rw [← Array.mem_toList_iff, h.entries] at hmem
  obtain ⟨v, hv, rfl⟩ := List.mem_map.1 hmem
  exact h.ordered.outer v hv p hep

/-- The ranges of a visited key are those its visit added. -/
theorem rangeList_key (h : Holds db vs) {v : Visit} (hv : v ∈ vs) :
    db.rangeList v.entry.key = v.ranges := by
  rw [h.ranges, List.filter_flatMap]
  -- a visit's ranges are all its own, and only `v` has its key
  have hsplit : ∀ w ∈ vs, w.ranges.filter (·.owner = v.entry.key) =
      if w.entry.key = v.entry.key then w.ranges else [] := by
    intro w hw
    split
    · rename_i hkey
      exact List.filter_eq_self.2 fun r hr => by simp [h.ordered.owners w hw r hr, hkey]
    · rename_i hkey
      refine List.filter_eq_nil_iff.2 fun r hr hown => hkey ?_
      rw [← h.ordered.owners w hw r hr]
      simpa using hown
  rw [List.flatMap_congr hsplit]
  obtain ⟨pre, post, rfl⟩ := List.append_of_mem hv
  have hnodup := List.nodup_cons.1 (List.nodup_middle.1 h.nodup_ranks.of_map)
  -- the visits before and after `v` have other keys
  have hnone : ∀ l ⊆ pre ++ post,
      (l.flatMap fun w => if w.entry.key = v.entry.key then w.ranges else []) = [] := by
    intro l hl
    refine List.flatMap_eq_nil_iff.2 fun w hw => if_neg fun hkey => hnodup.1 ?_
    have hmem : w ∈ pre ++ v :: post := by
      rcases List.mem_append.1 (hl hw) with hw' | hw'
      · exact List.mem_append_left _ hw'
      · exact List.mem_append_right _ (List.mem_cons_of_mem v hw')
    exact h.eq_of_key hmem hv hkey ▸ hl hw
  simp [List.flatMap_append, hnone pre (List.subset_append_left _ _),
    hnone post (List.subset_append_right _ _)]

theorem spansOf_entry (h : Holds db vs) {v : Visit} (hv : v ∈ vs) : db.spansOf v.entry = v.spans := by
  unfold SymbolDatabase.spansOf Visit.spans
  rw [h.rangeList_key hv]

/-- The code of the database is the spans its visits recorded, in order. -/
theorem codeSpans_eq (h : Holds db vs) : db.codeSpans = vs.flatMap Visit.spans := by
  unfold SymbolDatabase.codeSpans
  rw [h.entries, List.flatMap_map]
  exact List.flatMap_congr fun v hv => h.spansOf_entry hv

/-- A visit's spans are its entry's, with the entry's outer scope. -/
theorem mem_spans (h : Holds db vs) {v : Visit} (hv : v ∈ vs) {s : ScopeSpan} (hs : s ∈ v.spans) :
    s.owner = v.entry.key ∧ s.outer = v.entry.outerScope := by
  rcases List.mem_append.1 hs with hs | hs
  · obtain ⟨r, hr, rfl⟩ := List.mem_map.1 hs
    exact ⟨h.ordered.owners v hv r hr, rfl⟩
  · exact Entry.ownSpan_owner (Option.mem_toList.1 hs)

/-- The spans of a database laid out as a tree of scopes, in the order loading recorded them,
are laminar: the layout gives the intervals, and the increasing keys of the visits give the
order and the absence of cycles. -/
theorem laminar (h : Holds db vs) (hlayout : db.ScopeLayout) :
    Laminar db.outerOf (vs.flatMap Visit.spans) := by
  have hcode := h.codeSpans_eq
  have hacyclic : ∀ k, ¬ Encloses db.outerOf k k := fun k hk =>
    Nat.lt_irrefl _ (rank_lt_of_encloses (fun _ _ => h.outerOf_rank) hk)
  refine ⟨?outer, fun s hs => hlayout.nonempty s (hcode ▸ hs), ?nested, ?own,
    fun s hs u hu => hlayout.apart s (hcode ▸ hs) u (hcode ▸ hu), ?order, hacyclic⟩
  case outer =>
    intro s hs
    obtain ⟨v, hv, hsv⟩ := List.mem_flatMap.1 hs
    obtain ⟨howner, houter⟩ := h.mem_spans hv hsv
    rw [houter, howner, h.outerOf_key hv]
  case nested =>
    intro s hs p hp
    rw [← hcode]
    exact hlayout.nested s (hcode ▸ hs) p hp
  case own =>
    refine List.pairwise_flatMap.2 ⟨fun v hv => ?_, ?_⟩
    · -- the spans of one entry are apart by the layout
      have happart := hlayout.own v.entry (h.mem_entries hv)
      rw [h.spansOf_entry hv] at happart
      refine happart.imp ?_
      intro s u hap _
      exact hap
    · -- spans of different visits have different owners
      refine h.ordered.increasing.imp_of_mem fun {v w} hv hw hlt s hs u hu hown => ?_
      rw [(h.mem_spans hv hs).1, (h.mem_spans hw hu).1] at hown
      exact absurd (congrArg Visit.rank (h.eq_of_key hv hw hown)) (Nat.ne_of_lt hlt)
  case order =>
    refine List.pairwise_flatMap.2 ⟨fun v hv => ?_, ?_⟩
    · -- one owner does not enclose itself
      refine List.pairwise_of_forall_mem_list fun s hs u hu => ?_
      rw [(h.mem_spans hv hs).1, (h.mem_spans hv hu).1]
      exact hacyclic _
    · -- a later key is never the outer scope, however far, of an earlier one
      refine h.ordered.increasing.imp_of_mem fun {v w} hv hw hlt s hs u hu henc => ?_
      rw [(h.mem_spans hv hs).1, (h.mem_spans hw hu).1] at henc
      exact Nat.lt_asymm hlt (rank_lt_of_encloses (fun _ _ => h.outerOf_rank) henc)

end Holds

/-- The scope of an address is the entry of the transition in force there. -/
theorem scopeForAddress_eq_inForce (db : SymbolDatabase) (a : UInt64) :
    db.scopeForAddress a = (inForce db.transitions a).bind db.entry := by
  unfold SymbolDatabase.scopeForAddress inForce
  cases db.transitions.getEntryLE? a <;> rfl

/-- In a database holding visits whose code is laid out as a tree of scopes lays it out, the
scope of an address is the innermost entry one of whose spans holds the address. -/
theorem Holds.innermost {db : SymbolDatabase} {vs : List Visit} (hvs : Holds db vs)
    (hlayout : db.ScopeLayout) (a : UInt64) :
    Innermost db.outerOf db.codeSpans a ((db.scopeForAddress a).map (·.key)) := by
  have hin := innermost_inForce_foldl_record (hvs.laminar hlayout) a
  rw [← hvs.transitions, ← hvs.codeSpans_eq] at hin
  rw [scopeForAddress_eq_inForce]
  cases hk : inForce db.transitions a with
  | none =>
    rw [hk] at hin
    exact hin
  | some k =>
    rw [hk] at hin
    -- the scope in force owns a span, so it is a visited key and the lookup finds its entry
    obtain ⟨s, hs, hsk, -⟩ := hin.1
    rw [hvs.codeSpans_eq] at hs
    obtain ⟨v, hv, hsv⟩ := List.mem_flatMap.1 hs
    have hkey : v.entry.key = k := (hvs.mem_spans hv hsv).1 ▸ hsk
    rw [Option.bind_some, ← hkey, hvs.entry_key hv, Option.map_some, hkey]
    exact hin

/-- The scope of an address, over the entries the DWARF reader yields. Take the visits of the
entries in the order the reader yields them, each unit's tree in preorder: keys increase, each
entry's outer scope is visited before it, and each visit owns the ranges it adds. Build a
database from a builder that agrees on scopes with the visits applied in order, as loading does
with files, rows, location lists and call frames besides. When its code is laid out as a tree of
scopes lays it out, the scope of an address is the innermost entry one of whose spans holds the
address, and none when no span holds it. -/
theorem scopeForAddress_innermost {vs : List Visit} (hpreorder : Visit.Ordered vs)
    {b : DatabaseBuilder} (hb : SameScopes b (vs.foldl Visit.apply {})) {db : SymbolDatabase}
    (hbuild : b.build = .ok db) (hlayout : db.ScopeLayout) (a : UInt64) :
    Innermost db.outerOf db.codeSpans a ((db.scopeForAddress a).map (·.key)) :=
  (holds_of_build hpreorder hb hbuild).innermost hlayout a

/-- A loaded module is such a build: the scope of an address is the innermost one. -/
theorem scopeForAddress_innermost_of_load {bytes : ByteArray} {db : SymbolDatabase}
    (h : Loader.loadModule bytes = .ok (.ok db)) (hlayout : db.ScopeLayout) (a : UInt64) :
    Innermost db.outerOf db.codeSpans a ((db.scopeForAddress a).map (·.key)) := by
  obtain ⟨vs, hvs⟩ := holds_of_load h
  exact hvs.innermost hlayout a

/-! ### Two units of code -/

/-- A compile unit at key 11 whose code is `[0x10, 0x40)`, and a subprogram at key 20 inside it
whose code is `[0x18, 0x20)`. -/
def nestedVisits : List Visit :=
  [⟨{ key := ⟨11⟩, parent := none, tag := Dwarf.tagCompileUnit }, [⟨⟨11⟩, 0, 0x10, 0x40⟩]⟩,
   ⟨{ key := ⟨20⟩, parent := some ⟨11⟩, tag := Dwarf.tagSubprogram, outerScope := some ⟨11⟩ },
     [⟨⟨20⟩, 0, 0x18, 0x20⟩]⟩]

/-- Over the nested visits the layout holds, and the lookup answers the innermost scope: the
subprogram inside its code, the unit in the rest of the unit's code. -/
theorem scopeForAddress_innermost_nestedVisits : ∃ db,
    (nestedVisits.foldl Visit.apply {}).build = .ok db ∧ db.ScopeLayout ∧
      (db.scopeForAddress 0x1c).map (·.key) = some ⟨20⟩ ∧
      (db.scopeForAddress 0x30).map (·.key) = some ⟨11⟩ ∧
      ∀ a, Innermost db.outerOf db.codeSpans a ((db.scopeForAddress a).map (·.key)) := by
  have hcheck : ((nestedVisits.foldl Visit.apply {}).build.toOption).any (fun db => decide
      (db.codeSpans = [⟨⟨11⟩, none, 0x10, 0x40⟩, ⟨⟨20⟩, some ⟨11⟩, 0x18, 0x20⟩] ∧
        db.outerOf ⟨11⟩ = none ∧ db.outerOf ⟨20⟩ = some ⟨11⟩ ∧
        db.entries.toList.map db.spansOf = [[⟨⟨11⟩, none, 0x10, 0x40⟩], [⟨⟨20⟩, some ⟨11⟩, 0x18, 0x20⟩]] ∧
        (db.scopeForAddress 0x1c).map (·.key) = some ⟨20⟩ ∧
        (db.scopeForAddress 0x30).map (·.key) = some ⟨11⟩)) = true := by
    decide +kernel
  obtain ⟨db, hdb, hfacts⟩ := (Option.any_eq_true _ _).1 hcheck
  have hbuild := eq_ok_of_toOption hdb
  obtain ⟨hspans, hunit, hsub, hentries, h1c, h30⟩ := of_decide_eq_true hfacts
  -- keys increase, the subprogram's outer scope is the unit, and each visit owns its range
  have hordered : Visit.Ordered nestedVisits := by
    refine ⟨by decide, ?_, ?_⟩
    · intro v hv k hk
      simp only [nestedVisits, List.mem_cons, List.mem_nil_iff, or_false] at hv
      rcases hv with rfl | rfl
      · simp at hk
      · simp only [Option.mem_def, Option.some.injEq] at hk
        subst hk
        decide
    · intro v hv r hr
      simp only [nestedVisits, List.mem_cons, List.mem_nil_iff, or_false] at hv
      rcases hv with rfl | rfl <;> simp_all
  -- the subprogram's span lies in the unit's, and each entry has one span
  have hlayout : db.ScopeLayout := by
    refine ⟨by rw [hspans]; decide, ?_, ?_, ?_⟩
    · intro s hs p hp
      rw [hspans] at hs ⊢
      simp only [List.mem_cons, List.mem_nil_iff, or_false] at hs
      rcases hs with rfl | rfl
      · rw [hunit] at hp
        cases hp
      · rw [hsub] at hp
        cases hp
        exact ⟨_, List.mem_cons_self, rfl, by decide⟩
    · intro e he
      have hmem : db.spansOf e ∈ db.entries.toList.map db.spansOf :=
        List.mem_map_of_mem (Array.mem_toList_iff.2 he)
      rw [hentries] at hmem
      simp only [List.mem_cons, List.mem_nil_iff, or_false] at hmem
      rcases hmem with h | h <;> rw [h] <;> exact List.pairwise_singleton _ _
    · intro s hs u hu hne hsu hus
      rw [hspans] at hs hu
      simp only [List.mem_cons, List.mem_nil_iff, or_false] at hs hu
      rcases hs with rfl | rfl <;> rcases hu with rfl | rfl
      · exact absurd rfl hne
      · exact absurd (encloses_of_link hsub) hsu
      · exact absurd (encloses_of_link hsub) hus
      · exact absurd rfl hne
  exact ⟨db, hbuild, hlayout, h1c, h30,
    scopeForAddress_innermost hordered (SameScopes.refl _) hbuild hlayout⟩

/-- One compile unit at key 11 whose `DW_AT_ranges` list is `[0x10, 0x20)` then `[0x12, 0x14)`. -/
def overlappingVisits : List Visit :=
  [⟨{ key := ⟨11⟩, parent := none, tag := Dwarf.tagCompileUnit },
    [⟨⟨11⟩, 0, 0x10, 0x20⟩, ⟨⟨11⟩, 0, 0x12, 0x14⟩]⟩]

/-- A range inside an earlier range of the same entry hands the rest of the earlier range to the
entry's outer scope: the lookup misses a scope one of whose spans holds the address. -/
theorem scopeForAddress_misses_overlapping_range : ∃ db,
    (overlappingVisits.foldl Visit.apply {}).build = .ok db ∧
      db.codeSpans = [⟨⟨11⟩, none, 0x10, 0x20⟩, ⟨⟨11⟩, none, 0x12, 0x14⟩] ∧
      db.scopeForAddress 0x16 = none := by
  have hcheck : ((overlappingVisits.foldl Visit.apply {}).build.toOption).any (fun db => decide
      (db.codeSpans = [⟨⟨11⟩, none, 0x10, 0x20⟩, ⟨⟨11⟩, none, 0x12, 0x14⟩] ∧
        db.scopeForAddress 0x16 = none)) = true := by
    decide +kernel
  obtain ⟨db, hdb, hfacts⟩ := (Option.any_eq_true _ _).1 hcheck
  exact ⟨db, eq_ok_of_toOption hdb, of_decide_eq_true hfacts⟩

end RemoteDebugger
