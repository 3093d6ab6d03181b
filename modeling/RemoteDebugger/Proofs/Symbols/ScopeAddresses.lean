import RemoteDebugger.Proofs.Symbols.PositionRoundTrip

/-!
# The line rows of a function

Over disjoint rows, `addressesInScope` collects the starts of the rows that meet the function's
range, in increasing order (`addressesInScope_eq_rowsMeeting`).
-/

namespace RemoteDebugger

open Std

/-! ## The first entry above a key -/

/-- A lookup above a key scans the entries from the least key up. -/
theorem getEntryGT?_eq_find? {β : Type} (t : TreeMap UInt64 β compare) (a : UInt64) :
    t.getEntryGT? a = t.toList.find? (fun e => a < e.1) := by
  rw [TreeMap.getEntryGT?, DTreeMap.Const.getEntryGT?, DTreeMap.Internal.Impl.Const.getEntryGT?_eq_map,
    DTreeMap.Internal.Impl.getEntryGT?_eq_find? t.inner.wf.ordered, TreeMap.toList,
    DTreeMap.Const.toList, DTreeMap.Internal.Impl.Const.toList_eq_toListModel_map]
  simp only [List.find?_map, Function.comp_def]
  congr
  funext e
  rw [Bool.eq_iff_iff, Ordering.isGT_iff_eq_gt, decide_eq_true_iff]
  exact compare_eq_gt

/-! ## What a walk has still to collect -/

/-- Whether a walk from `cursor` up to `high` has still to collect a row: the cursor is below the
bound, and the row ends after the cursor and starts below the bound. -/
def SourceLocation.ahead (row : SourceLocation) (cursor high : UInt64) : Bool :=
  decide (cursor < high) && decide (cursor < row.stop) && decide (row.start < high)

/-- A row's end with the top of the address space written out, in the form `omega` reads. -/
theorem toNat_stop_eq_min (l : SourceLocation) :
    l.stop.toNat = min (l.start.toNat + l.length.toNat) 18446744073709551615 :=
  l.toNat_stop

theorem ahead_iff (row : SourceLocation) (cursor high : UInt64) :
    row.ahead cursor high = true ↔
      cursor.toNat < high.toNat ∧ cursor.toNat < row.stop.toNat ∧ row.start.toNat < high.toNat := by
  simp only [SourceLocation.ahead, Bool.and_eq_true, decide_eq_true_eq, UInt64.lt_iff_toNat_lt, and_assoc]

/-! ## Line rows in address order -/

namespace SymbolDatabase

variable {db : SymbolDatabase}

/-- Every row of a database sits under its own start. -/
theorem start_eq_key (hdb : db.Accepted) {e : UInt64 × SourceLocation} (he : e ∈ db.locations.toList) :
    e.2.start = e.1 :=
  (hdb.rows e.1 e.2 (TreeMap.mem_toList_iff_getElem?_eq_some.mp he)).1

theorem rows_sorted (hdb : db.Accepted) : db.rows.Pairwise (·.start < ·.start) := by
  rw [rows, values_eq_map_snd, List.pairwise_map]
  refine (toList_sorted db.locations).imp_of_mem fun hx hy hlt => ?_
  rwa [start_eq_key hdb hx, start_eq_key hdb hy]

theorem length_pos (hdb : db.Accepted) {row : SourceLocation} (hr : row ∈ db.rows) :
    0 < row.length.toNat := by
  have hlen := (hdb.rows row.start row (locations_start hdb hr)).2
  rw [Nat.pos_iff_ne_zero]
  exact fun h0 => hlen (UInt64.toNat_inj.mp (by simpa using h0))

/-- Of two disjoint rows, the one that starts first ends before the other starts. -/
theorem end_le_start (hdb : db.Accepted) (hdisj : db.RowsDisjoint) {r s : SourceLocation}
    (hr : r ∈ db.rows) (hs : s ∈ db.rows) (hlt : r.start < s.start) :
    r.start.toNat + r.length.toNat ≤ s.start.toNat := by
  have hne : r ≠ s := by rintro rfl; exact UInt64.lt_irrefl _ hlt
  have hpos := length_pos hdb hs
  rw [UInt64.lt_iff_toNat_lt] at hlt
  rcases hdisj r hr s hs hne with h | h <;> omega

/-- The first row that starts above an address. -/
theorem locationAfter_spec (hdb : db.Accepted) {a : UInt64} {next : SourceLocation}
    (h : db.locationAfter a = some next) :
    next ∈ db.rows ∧ a < next.start ∧ ∀ row ∈ db.rows, a < row.start → next.start ≤ row.start := by
  obtain ⟨e, he, rfl⟩ := Option.map_eq_some_iff.mp h
  rw [getEntryGT?_eq_find?] at he
  obtain ⟨hlt, pre, post, hsplit, hpre⟩ := List.find?_eq_some_iff_append.mp he
  have hmem : e ∈ db.locations.toList := by rw [hsplit]; simp
  have hkey := start_eq_key hdb hmem
  refine ⟨?_, ?_, fun row hrow hrow' => ?_⟩
  · rw [rows, values_eq_map_snd]
    exact List.mem_map_of_mem hmem
  · rw [hkey]
    exact of_decide_eq_true hlt
  · -- the rows before `next` in address order all start at or below `a`
    rw [rows, values_eq_map_snd, List.mem_map] at hrow
    obtain ⟨x, hx, rfl⟩ := hrow
    have hsorted := toList_sorted db.locations
    rw [hsplit, List.pairwise_append, List.pairwise_cons] at hsorted
    rw [hsplit] at hx
    rcases List.mem_append.mp hx with hx | hx
    · have := hpre x hx
      rw [start_eq_key hdb (hsplit ▸ List.mem_append_left _ hx)] at hrow'
      simp_all
    · rw [hkey, start_eq_key hdb (hsplit ▸ List.mem_append_right _ hx)]
      rcases List.mem_cons.mp hx with rfl | hx
      · exact UInt64.le_refl _
      · exact UInt64.le_of_lt (hsorted.2.1.1 x hx)

/-- When no row starts above an address, every row starts at or below it. -/
theorem locationAfter_eq_none (hdb : db.Accepted) {a : UInt64} (h : db.locationAfter a = none) :
    ∀ row ∈ db.rows, row.start ≤ a := by
  intro row hrow
  rw [locationAfter, Option.map_eq_none_iff, getEntryGT?_eq_find?, List.find?_eq_none] at h
  have hmem : (row.start, row) ∈ db.locations.toList :=
    TreeMap.mem_toList_iff_getElem?_eq_some.mpr (locations_start hdb hrow)
  simpa using h _ hmem

/-- When the floor lookup finds no row covering an address, no row covers it: a row covering it
and starting below the floor's start would overlap the floor's row. -/
theorem not_contains_of_floor (hdb : db.Accepted) (hdisj : db.RowsDisjoint) {a : UInt64}
    (h : (db.locationForAddress a).filter (·.contains a) = none) :
    ∀ row ∈ db.rows, row.contains a = false := by
  intro row hrow
  rw [Bool.eq_false_iff]
  intro hc
  have hspans := SourceLocation.spans_of_contains hc
  cases hfloor : db.locations.getEntryLE? a with
  | none =>
    have := (getEntryLE?_eq_none_iff _ _).mp hfloor row.start
      (TreeMap.isSome_getElem?_iff_mem.mp (by rw [locations_start hdb hrow]; rfl))
    rw [UInt64.lt_iff_toNat_lt] at this
    exact absurd hspans.1 (Nat.not_le.mpr this)
  | some e =>
    obtain ⟨he, hle, hmax⟩ := (getEntryLE?_eq_some_iff _ _ _ _).mp hfloor
    have hfmem : e.2 ∈ db.rows := (mem_rows_iff _).mpr ⟨e.1, he⟩
    have hkey : e.2.start = e.1 := (hdb.rows e.1 e.2 he).1
    have hfloorRow : db.locationForAddress a = some e.2 := by simp [locationForAddress, hfloor]
    have hno : e.2.contains a = false := by
      rw [hfloorRow] at h
      simpa using h
    have hrowle : row.start ≤ e.1 := hmax row.start
      (TreeMap.isSome_getElem?_iff_mem.mp (by rw [locations_start hdb hrow]; rfl))
      (UInt64.le_iff_toNat_le.mpr hspans.1)
    rcases UInt64.lt_or_eq_of_le hrowle with hlt | heq
    · -- a row starting below the floor row ends before it starts, so below `a`
      have hend := end_le_start hdb hdisj hrow hfmem (hkey ▸ hlt)
      have hfs := UInt64.le_iff_toNat_le.mp (hkey ▸ hle)
      have := hspans.2
      omega
    · have : row = e.2 := by
        have h1 := locations_start hdb hrow
        rw [heq] at h1
        exact Option.some.inj (h1.symm.trans he)
      rw [← this, hc] at hno
      exact Bool.noConfusion hno

/-! ## The walk, one step at a time -/

/-- The walk at a cursor inside a row: it collects the row, and what is left is what a walk from
the row's end collects. The rows before it end at or below its start, the rows after it start at
or above its end. -/
theorem filter_ahead_of_contains (hdb : db.Accepted) (hdisj : db.RowsDisjoint) {row : SourceLocation}
    (hr : row ∈ db.rows) {cursor high : UInt64} (hc : row.contains cursor = true) (hlt : cursor < high) :
    db.rows.filter (·.ahead cursor high) = row :: db.rows.filter (·.ahead row.stop high) := by
  obtain ⟨s, t, hsplit⟩ := List.append_of_mem hr
  have hsorted := rows_sorted hdb
  rw [hsplit, List.pairwise_append, List.pairwise_cons] at hsorted
  obtain ⟨hfrom, hto⟩ := SourceLocation.spans_of_contains hc
  have hpos := length_pos hdb hr
  have hstop := toNat_stop_eq_min row
  have hhigh : high.toNat < 18446744073709551616 := high.toNat_lt
  rw [UInt64.lt_iff_toNat_lt] at hlt
  have hbefore : ∀ b ∈ s, b.start.toNat + b.length.toNat ≤ row.start.toNat := fun b hb =>
    end_le_start hdb hdisj (by rw [hsplit]; exact List.mem_append_left _ hb) hr
      (hsorted.2.2 b hb row List.mem_cons_self)
  have hafter : ∀ x ∈ t, row.start.toNat + row.length.toNat ≤ x.start.toNat := fun x hx =>
    end_le_start hdb hdisj hr (by rw [hsplit]; exact List.mem_append_right _ (List.mem_cons_of_mem _ hx))
      (hsorted.2.1.1 x hx)
  -- the rows before it end at or below its start, so no walk from inside it collects them
  have hs : ∀ c ∈ [cursor, row.stop], s.filter (·.ahead c high) = [] := by
    intro c hcmem
    refine List.filter_eq_nil_iff.mpr fun b hb hahead => ?_
    have hb' := hbefore b hb
    have hbstop := toNat_stop_eq_min b
    rw [ahead_iff] at hahead
    simp only [List.mem_cons, List.not_mem_nil, or_false] at hcmem
    rcases hcmem with rfl | rfl <;> omega
  -- the rows after it start at or above its end, so both walks collect them the same way
  have ht : t.filter (·.ahead cursor high) = t.filter (·.ahead row.stop high) := by
    refine List.filter_congr fun x hx => ?_
    have hx' := hafter x hx
    have hxpos := length_pos hdb (by rw [hsplit]; exact List.mem_append_right _ (List.mem_cons_of_mem _ hx))
    have hxstop := toNat_stop_eq_min x
    rw [Bool.eq_iff_iff, ahead_iff, ahead_iff]
    omega
  have hrow : row.ahead cursor high = true := by
    rw [ahead_iff]
    omega
  have hrow' : row.ahead row.stop high = false := by
    simp [SourceLocation.ahead]
  rw [hsplit, List.filter_append, List.filter_append, hs cursor (by simp), hs row.stop (by simp),
    List.filter_cons, List.filter_cons, ht]
  simp [hrow, hrow']

/-- The walk at a cursor in a gap: skipping to the next row loses nothing, since every row that
starts at or below the cursor ends there too. -/
theorem filter_ahead_of_gap (hdb : db.Accepted) {cursor high : UInt64}
    (hnone : ∀ row ∈ db.rows, row.contains cursor = false) {next : SourceLocation}
    (hnext : cursor < next.start ∧ ∀ row ∈ db.rows, cursor < row.start → next.start ≤ row.start) :
    db.rows.filter (·.ahead cursor high) = db.rows.filter (·.ahead next.start high) := by
  refine List.filter_congr fun row hrow => ?_
  have hpos := length_pos hdb hrow
  have hstop := toNat_stop_eq_min row
  have hhigh : high.toNat < 18446744073709551616 := high.toNat_lt
  have hnext' := UInt64.lt_iff_toNat_lt.mp hnext.1
  rw [Bool.eq_iff_iff, ahead_iff, ahead_iff]
  by_cases hle : row.start ≤ cursor
  · -- the row does not cover the cursor, so it ends at or below it
    have hend : row.stop.toNat ≤ cursor.toNat := by
      simpa [SourceLocation.contains, hle, UInt64.le_iff_toNat_le] using hnone row hrow
    omega
  · have hge := UInt64.le_iff_toNat_le.mp (hnext.2 row hrow (UInt64.not_le.mp hle))
    rw [UInt64.le_iff_toNat_le] at hle
    omega

/-- The walk at a cursor that no row covers and no row starts after collects nothing. -/
theorem filter_ahead_of_last {cursor high : UInt64} (hnone : ∀ row ∈ db.rows, row.contains cursor = false)
    (hall : ∀ row ∈ db.rows, row.start ≤ cursor) : db.rows.filter (·.ahead cursor high) = [] := by
  refine List.filter_eq_nil_iff.mpr fun row hrow hahead => ?_
  have hc := hnone row hrow
  simp only [SourceLocation.contains, hall row hrow, decide_true, Bool.true_and,
    decide_eq_false_iff_not, UInt64.not_lt] at hc
  simp only [SourceLocation.ahead, Bool.and_eq_true, decide_eq_true_eq] at hahead
  exact UInt64.not_lt.mpr hc hahead.1.2

theorem filter_ahead_of_le {cursor high : UInt64} (hge : ¬ cursor < high) :
    db.rows.filter (·.ahead cursor high) = [] :=
  List.filter_eq_nil_iff.mpr fun row _ hahead => by
    simp only [SourceLocation.ahead, Bool.and_eq_true, decide_eq_true_eq] at hahead
    exact hge hahead.1.1

end SymbolDatabase

/-! ## The whole walk -/

namespace Resolver

open SymbolDatabase

/-- Over disjoint rows, the walk from a cursor up to a bound collects the starts of the rows
that end after the cursor and start below the bound, in address order. -/
theorem rowStarts_eq_filter (r : Resolver) (hdb : r.db.Accepted) (hdisj : r.db.RowsDisjoint)
    (high cursor : UInt64) :
    r.rowStarts high cursor = (r.db.rows.filter (·.ahead cursor high)).map (r.absolute ·.start) := by
  fun_induction r.rowStarts high cursor with
  | case1 cursor hlt row hfloor _ ih =>
    obtain ⟨hrow, hc⟩ := Option.filter_eq_some_iff.mp hfloor
    rw [filter_ahead_of_contains hdb hdisj (mem_rows_of_locationForAddress hrow) hc hlt, ih]
    rfl
  | case2 cursor _ row hfloor hstop =>
    have hc := (Option.filter_eq_some_iff.mp hfloor).2
    simp [SourceLocation.contains, hstop] at hc
  | case3 cursor _ hfloor next hnext _ ih =>
    have hspec := locationAfter_spec hdb hnext
    rw [filter_ahead_of_gap hdb (not_contains_of_floor hdb hdisj hfloor) hspec.2, ih]
  | case4 cursor _ _ next hnext hstart =>
    exact absurd (locationAfter_spec hdb hnext).2.1 hstart
  | case5 cursor _ hfloor hnext =>
    rw [filter_ahead_of_last (not_contains_of_floor hdb hdisj hfloor) (locationAfter_eq_none hdb hnext)]
    rfl
  | case6 cursor hge =>
    rw [filter_ahead_of_le hge]
    rfl

end Resolver

/-! ## The rows of a function -/

/-- The line rows that meet `[lo, hi)`: the range is not empty, and the row starts below `hi`
and ends, at `start + length`, above `lo`. -/
def SymbolDatabase.rowsMeeting (db : SymbolDatabase) (lo hi : UInt64) : List SourceLocation :=
  db.rows.filter fun row =>
    decide (lo < hi) && decide (row.start < hi) && decide (lo.toNat < row.start.toNat + row.length.toNat)

open SymbolDatabase Resolver

/-- A walk from the start of a range collects exactly the rows that meet the range. The walk's
test on a row's end saturates at the top address; below the range's end the two agree. -/
theorem filter_ahead_eq_rowsMeeting (db : SymbolDatabase) (lo hi : UInt64) :
    db.rows.filter (·.ahead lo hi) = db.rowsMeeting lo hi := by
  refine List.filter_congr fun row _ => ?_
  have hstop := toNat_stop_eq_min row
  have hhi : hi.toNat < 18446744073709551616 := hi.toNat_lt
  rw [Bool.eq_iff_iff, ahead_iff]
  simp only [Bool.and_eq_true, decide_eq_true_eq, UInt64.lt_iff_toNat_lt]
  omega

/-- Over a database built from builder operations with disjoint line rows, the addresses in the
scope of an address whose function's range `[low, high)` lies at or above the base are the starts,
moved by the base, of the rows that meet `[low - base, high - base)`, in increasing order. -/
theorem addressesInScope_eq_rowsMeeting {steps : List BuildStep} {db : SymbolDatabase}
    (h : (DatabaseBuilder.ofSteps steps).build = .ok db) (hdisj : db.RowsDisjoint) (base a : Address)
    {f : Function} {low high : Address} (hf : (ofDatabase db base).functionAt a = .ok f)
    (hrange : f.range = some (low, high)) (hlow : base ≤ low) (hhigh : base ≤ high) :
    (ofDatabase db base).addressesInScope a =
        .ok ((db.rowsMeeting (low - base) (high - base)).map (base + ·.start)) ∧
      ((db.rowsMeeting (low - base) (high - base)).map (base + ·.start)).Pairwise (· < ·) := by
  have hdb := accepted_of_build h
  constructor
  · have hwalk := rowStarts_eq_filter (ofDatabase db base) hdb hdisj (high - base) (low - base)
    rw [filter_ahead_eq_rowsMeeting] at hwalk
    have hbase : (ofDatabase db base).base = base := rfl
    simp only [addressesInScope, hf, bind, Except.bind, pure, Except.pure, hrange, relative,
      Address.relativeTo, hbase, hlow, hhigh, if_true, hwalk]
    rfl
  · -- every row collected starts below `high - base`, so moving it by the base does not wrap
    have hsorted : (db.rowsMeeting (low - base) (high - base)).Pairwise (·.start < ·.start) :=
      (rows_sorted hdb).sublist List.filter_sublist
    refine List.pairwise_map.mpr (hsorted.imp_of_mem fun hx hy hlt => ?_)
    have hbelow : ∀ {row}, row ∈ db.rowsMeeting (low - base) (high - base) →
        base.toNat + row.start.toNat < 18446744073709551616 := by
      intro row hrow
      simp only [rowsMeeting, List.mem_filter, Bool.and_eq_true, decide_eq_true_eq,
        UInt64.lt_iff_toNat_lt] at hrow
      have hsub := UInt64.toNat_sub_of_le high base hhigh
      have := high.toNat_lt
      omega
    have hx' := hbelow hx
    have hy' := hbelow hy
    rw [UInt64.lt_iff_toNat_lt] at hlt ⊢
    rw [UInt64.toNat_add, UInt64.toNat_add, Nat.mod_eq_of_lt hx', Nat.mod_eq_of_lt hy']
    omega

/-- A function at `0x1004..0x1010` with rows before, across and after its ends, and a gap. -/
def scopeRowSteps : List BuildStep :=
  [.entry { key := ⟨1⟩, parent := none, tag := Dwarf.tagSubprogram,
            attributes := [(Dwarf.atName, .string "f"), (Dwarf.atLowPc, .unsigned 0x1004),
              (Dwarf.atHighPc, .unsigned 0x1010)] },
   .file ⟨1⟩ "main.c" "/src", .transition 0x1004 (some ⟨1⟩), .transition 0x1010 none,
   .location ⟨0x1000, 6, ⟨1⟩, 1, 0⟩, .location ⟨0x1006, 4, ⟨1⟩, 2, 0⟩,
   .location ⟨0x100c, 8, ⟨1⟩, 3, 0⟩, .location ⟨0x1020, 4, ⟨1⟩, 4, 0⟩]

theorem addressesInScope_eq_rowsMeeting_scopeRows :
    ∃ db, (DatabaseBuilder.ofSteps scopeRowSteps).build = .ok db ∧ db.RowsDisjoint ∧
      (ofDatabase db 0x400000).functionAt 0x401008 = .ok ⟨some ⟨1⟩, "f", some (0x401004, 0x401010)⟩ ∧
      (0x400000 : Address) ≤ 0x401004 ∧ (0x400000 : Address) ≤ 0x401010 ∧
      ((ofDatabase db 0x400000).addressesInScope 0x401008 =
          .ok ((db.rowsMeeting (0x401004 - 0x400000) (0x401010 - 0x400000)).map (0x400000 + ·.start)) ∧
        ((db.rowsMeeting (0x401004 - 0x400000) (0x401010 - 0x400000)).map (0x400000 + ·.start)).Pairwise
          (· < ·)) :=
  ⟨_, rfl, by decide +kernel, by decide +kernel, by decide, by decide,
    @addressesInScope_eq_rowsMeeting scopeRowSteps _ rfl (by decide +kernel) 0x400000 0x401008
      ⟨some ⟨1⟩, "f", some (0x401004, 0x401010)⟩ 0x401004 0x401010 (by decide +kernel) rfl (by decide)
      (by decide)⟩

/-- A function whose range list gives the empty range `[0x1010, 0x1010)`, over a row at
`0x1000..0x1020` that straddles it. -/
def emptyRangeSteps : List BuildStep :=
  [.entry { key := ⟨1⟩, parent := none, tag := Dwarf.tagSubprogram,
            attributes := [(Dwarf.atName, .string "f")] },
   .range ⟨⟨1⟩, 0, 0x1010, 0x1010⟩, .transition 0x1000 (some ⟨1⟩), .file ⟨1⟩ "x.c" "/src",
   .location ⟨0x1000, 0x20, ⟨1⟩, 1, 0⟩]

/-- An empty range collects no row: the rows that start below its end and end above its start
are the row at `0x1000`, yet the walk, whose cursor starts at the range's end, collects nothing. -/
theorem addressesInScope_misses_straddling_row :
    ∃ db, (DatabaseBuilder.ofSteps emptyRangeSteps).build = .ok db ∧ db.RowsDisjoint ∧
      (ofDatabase db 0).functionAt 0x1000 = .ok ⟨some ⟨1⟩, "f", some (0x1010, 0x1010)⟩ ∧
      (ofDatabase db 0).addressesInScope 0x1000 = .ok [] ∧
      (db.rows.filter fun row => decide (row.start < 0x1010 - 0) &&
          decide ((0x1010 - 0 : UInt64).toNat < row.start.toNat + row.length.toNat)).map
        (0 + ·.start) = [0x1000] :=
  ⟨_, rfl, by decide +kernel⟩

end RemoteDebugger
