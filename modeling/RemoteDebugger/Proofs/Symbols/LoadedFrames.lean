import RemoteDebugger.Proofs.Symbols.FrameTables
import RemoteDebugger.Proofs.Symbols.Loading
import RemoteDebugger.Proofs.Dwarf.UnwindRows

/-!
# The call frames of a loaded module

Loading adds the FDE tables the unwinder yields one after the other (`addFrame`), after the units,
which add no call frame. The frame found at an address is then the FDE's, and its rules in force
are those of the table's row there (`rulesAt_of_unwindTables`).
-/

namespace RemoteDebugger

open Std DatabaseBuilder Dwarf

namespace Loader

/-! ## The units add no call frame -/

theorem callFrames_addEntry (b : DatabaseBuilder) (e : Entry) :
    (b.addEntry e).callFrames = b.callFrames := by
  unfold DatabaseBuilder.addEntry
  split <;> rfl

namespace UnitContext

variable (cx : UnitContext)

/-- A range list adds ranges and scope transitions only. -/
theorem keepsFrames_ranges (owner : EntryKey) (outer : Option EntryKey) (v : Value) :
    KeepsView (·.callFrames) (cx.ranges owner outer v) := by
  unfold UnitContext.ranges scopeRange
  repeat' first
    | exact keepsView_pure _
    | exact keepsView_lift _
    | exact keepsView_modify fun _ => rfl
    | exact keepsView_modify fun b => by dsimp only; split <;> rfl
    | refine keepsView_bind ?_ fun _ => ?_
    | refine keepsView_forIn_array (fun _ _ => ?_) _ _
    | split

/-- Reading an attribute adds ranges, scope transitions and location lists at most. -/
theorem keepsFrames_attribute (key : EntryKey) (outer : Option EntryKey)
    (st : Entry × Option Nat × Cursor) (spec : AttrSpec) :
    KeepsView (·.callFrames) (cx.attribute key outer st spec) := by
  unfold UnitContext.attribute
  repeat' first
    | exact keepsView_pure _
    | exact keepsView_lift _
    | exact cx.keepsFrames_ranges _ _ _
    | exact cx.keepsView_attributeValue (fun _ _ _ => rfl) _ _
    | refine keepsView_bind ?_ fun _ => ?_
    | split

/-- The walk over an entry and the entries below it adds no call frame. -/
theorem keepsFrames_walk (fuel : Nat) :
    (∀ c die parent outer, KeepsView (·.callFrames) (cx.entry fuel c die parent outer)) ∧
      ∀ c parent outer, KeepsView (·.callFrames) (cx.children fuel c parent outer) := by
  induction fuel with
  | zero =>
    refine ⟨fun _ _ _ _ => ?_, fun _ _ _ => ?_⟩
    · rw [UnitContext.entry]
      exact keepsView_pure _
    · rw [UnitContext.children]
      exact keepsView_pure _
  | succ fuel ih =>
    refine ⟨fun c die parent outer => ?_, fun c parent outer => ?_⟩
    · rw [UnitContext.entry]
      unfold ownRange scopeRange
      repeat' first
        | exact keepsView_pure _
        | exact keepsView_lift _
        | exact ih.2 _ _ _
        | exact keepsView_foldlM (fun _ _ => cx.keepsFrames_attribute _ _ _ _) _ _
        | exact keepsView_modify fun b => callFrames_addEntry b _
        | exact keepsView_modify fun b => by dsimp only; split <;> rfl
        | refine keepsView_bind ?_ fun _ => ?_
        | split
    · rw [UnitContext.children]
      repeat' first
        | exact keepsView_pure _
        | exact keepsView_lift _
        | exact ih.1 _ _ _ _
        | exact ih.2 _ _ _
        | refine keepsView_bind ?_ fun _ => ?_
        | split

/-- A unit's entries and line table add no call frame. -/
theorem keepsFrames_unit : KeepsView (·.callFrames) (do cx.entries; cx.lineTable) := by
  refine keepsView_bind ?_ fun _ => cx.keepsView_lineTable (fun _ _ _ _ => ?_) fun _ _ => ?_
  · unfold UnitContext.entries
    refine keepsView_bind (keepsView_lift _) fun _ => ?_
    repeat' first
      | exact keepsView_lift _
      | exact keepsView_bind ((cx.keepsFrames_walk _).1 _ _ _ _) fun _ => keepsView_pure _
      | split
  · unfold DatabaseBuilder.addFile
    split <;> rfl
  · unfold DatabaseBuilder.addLocation
    split <;> rfl

end UnitContext

/-- A loaded module's database is the build of FDE tables added, one after the other, to a builder
that holds no call frame, and the table of each FDE starts at the FDE's first address. -/
theorem frames_of_load {bytes : ByteArray} {db : SymbolDatabase}
    (h : loadModule bytes = .ok (.ok db)) :
    ∃ (b : DatabaseBuilder) (frames : List (Nat × Array UnwindRow)), b.callFrames = ∅ ∧
      (frames.foldl (fun b p => addFrame b p.1 p.2) b).build = .ok db ∧
      ∀ p ∈ frames, ∀ hp : 0 < p.2.size, p.2[0].start = p.1 := by
  change Loads (load bytes) db at h
  unfold load at h
  rw [loads_bind] at h
  obtain ⟨file, -, h⟩ := h
  rw [loads_bind] at h
  obtain ⟨s, -, h⟩ := h
  dsimp only at h
  rw [loads_bind] at h
  obtain ⟨units, -, h⟩ := h
  split at h
  · rw [loads_bind] at h
    obtain ⟨_, hthrow, -⟩ := h
    exact absurd hthrow not_loads_throw
  rw [loads_bind] at h
  obtain ⟨b, hwalk, h⟩ := h
  -- the units add no call frame
  obtain ⟨_, hb⟩ := loads_forIn_of_step units.toList.zipIdx (fun _ b => b.callFrames = ∅)
    (fun pre x post b r _ hb hr => by
      rw [loads_bind] at hr
      obtain ⟨p, hp, hr⟩ := hr
      obtain rfl := loads_pure.1 hr
      exact ((UnitContext.keepsFrames_unit _) _ _ _ (loads_run.1 hp)).trans hb)
    rfl hwalk
  -- then the FDEs of the frame source, if there is one, then the build
  rw [loads_bind] at h
  obtain ⟨src, -, h⟩ := h
  split at h
  · rename_i src
    split at h
    · rename_i frames hframes
      refine ⟨b, frames.toList, hb, by rw [Array.foldl_toList]; exact loads_lift.1 h, ?_⟩
      intro p hp
      exact FrameSource.first_start_of_frames hframes p (Array.mem_toList_iff.1 hp)
    · rw [loads_bind] at h
      obtain ⟨_, hthrow, -⟩ := h
      exact absurd hthrow not_loads_throw
  · exact ⟨b, [], hb, loads_lift.1 h, nofun⟩

end Loader

/-- After a build, the frame started at an address holds the rules added to it, sorted. -/
theorem DatabaseBuilder.callFrames_of_build {b : DatabaseBuilder} {db : SymbolDatabase}
    (h : b.build = .ok db) (k : UInt64) :
    db.callFrames[k]? = b.callFrames[k]?.map fun rules => ⟨k, sortRules rules.toList⟩ := by
  rw [(indexing_of_build h).callFrames, getElem?_foldl_insert]

open Loader

/-- The call frame at an address, over the FDE tables the unwinder yields. Take FDE tables added one
after the other to a builder that holds no call frame, as loading adds them after the units, and an
FDE among them at `f` that is the only one there. Suppose its table is as the unwinder gives it:
its first row starts at `f`, and its rows start at increasing 64-bit addresses with at most one
rule for each 16-bit register. Take an address `a` of row `i` of the table: at or past the row's
start and before the next row's. If no other FDE starts after `f` and at or below `a`, the frame
found at `a` is the FDE's, and its rules in force at `a` are those row `i` describes: the row's
CFA rule, its register rules, `SameValue` for each register an earlier row had a rule for and row
`i` has not, and nothing for any other register. -/
theorem rulesAt_of_unwindTables {frames : List (Nat × Array UnwindRow)} {b : DatabaseBuilder}
    (hempty : b.callFrames = ∅) {db : SymbolDatabase}
    (hbuild : (frames.foldl (fun b p => addFrame b p.1 p.2) b).build = .ok db)
    {f : Nat} {rows : Array UnwindRow} (honly : frames.filter (·.1.toUInt64 = f.toUInt64) = [(f, rows)])
    (hfirst : ∀ h : 0 < rows.size, rows[0].start = f) (hrows : WellFormedRows rows.toList)
    {i : Nat} (hi : i < rows.size) {a : UInt64} (hrow : rows[i].start ≤ a.toNat)
    (hnext : ∀ h : i + 1 < rows.size, a.toNat < rows[i + 1].start)
    (hgap : ∀ p ∈ frames, f.toUInt64 < p.1.toUInt64 → a < p.1.toUInt64) :
    ∃ frame, db.callFrameForAddress a = some frame ∧ frame.address = f.toUInt64 ∧
      RowInForce (frame.rulesAt a) (rows.toList.take i) rows[i] := by
  have hmem : (f, rows) ∈ frames := by
    have hfilter : (f, rows) ∈ frames.filter (·.1.toUInt64 = f.toUInt64) := by
      rw [honly]
      exact List.mem_singleton_self _
    exact (List.mem_filter.1 hfilter).1
  -- the FDE starts at its table's first row, at or below the address
  have hf : f ≤ a.toNat := by
    have hle := hrows.start_le (Nat.zero_le i) (by simpa using hi)
    simp only [Array.getElem_toList] at hle
    rw [← hfirst (show 0 < rows.size by omega)]
    omega
  have hfa : f.toUInt64 ≤ a := by
    rw [UInt64.le_iff_toNat_le, toNat_toUInt64 (Nat.lt_of_le_of_lt hf a.toNat_lt_size)]
    exact hf
  -- the frames of the database are the FDEs' first addresses
  have hframe : db.callFrames[f.toUInt64]? =
      some ⟨f.toUInt64, sortRules (tableRules [] rows.toList)⟩ := by
    rw [callFrames_of_build hbuild, getElem?_foldl_addFrame, if_pos ⟨(f, rows), hmem, rfl⟩, hempty,
      honly]
    simp
  have hkeys : ∀ k ∈ db.callFrames, ∃ p ∈ frames, p.1.toUInt64 = k := by
    intro k hk
    rw [← TreeMap.isSome_getElem?_iff_mem, callFrames_of_build hbuild, getElem?_foldl_addFrame] at hk
    by_contra hno
    rw [if_neg hno, hempty] at hk
    simp at hk
  -- no other frame starts between the FDE's and the address
  have hentry : db.callFrames.getEntryLE? a =
      some (f.toUInt64, ⟨f.toUInt64, sortRules (tableRules [] rows.toList)⟩) := by
    refine (getEntryLE?_eq_some_iff _ _ _ _).2 ⟨hframe, hfa, fun k hk hka => ?_⟩
    obtain ⟨p, hp, rfl⟩ := hkeys k hk
    by_contra hlt
    exact absurd hka (UInt64.not_le.2 (hgap p hp (UInt64.not_le.1 hlt)))
  refine ⟨_, by rw [SymbolDatabase.callFrameForAddress, hentry]; rfl, rfl, ?_⟩
  have hi' : i < rows.toList.length := by simpa using hi
  have hrow' : rows.toList[i].start ≤ a.toNat := by simpa using hrow
  have hnext' : ∀ h : i + 1 < rows.toList.length, a.toNat < rows.toList[i + 1].start :=
    fun h => by simpa using hnext (by simpa using h)
  simpa using rowInForce_rulesAt hrows hi' hrow' hnext' f.toUInt64

/-- The table of one FDE at `0x1000`: the CFA at register 7 plus 8 with register 16 saved, then
register 6 saved from `0x1001`, the CFA through register 6 from `0x1004`, and from `0x1009`
register 6 restored and the CFA back at register 7 plus 8. -/
def prologueRows : Array UnwindRow := #[
  { start := 0x1000, cfa := .regOffset 7 8, rules := #[(16, .offset (-8))] },
  { start := 0x1001, cfa := .regOffset 7 16, rules := #[(16, .offset (-8)), (6, .offset (-16))] },
  { start := 0x1004, cfa := .regOffset 6 16, rules := #[(16, .offset (-8)), (6, .offset (-16))] },
  { start := 0x1009, cfa := .regOffset 7 8, rules := #[(16, .offset (-8))] }]

/-- At `0x100a`, in the table's last row, the frame is the FDE's and register 6, which the rows
before saved, is back to its own value. -/
theorem rulesAt_of_unwindTables_prologue : ∃ db,
    ([(0x1000, prologueRows)].foldl (fun b p => addFrame b p.1 p.2) {}).build = .ok db ∧
      ∃ h : 3 < prologueRows.size, ∃ frame, db.callFrameForAddress 0x100a = some frame ∧
        frame.address = 0x1000 ∧ RowInForce (frame.rulesAt 0x100a) (prologueRows.toList.take 3)
          prologueRows[3] := by
  have hbuilt : (([(0x1000, prologueRows)].foldl (fun b p => addFrame b p.1 p.2)
      ({} : DatabaseBuilder)).build.toOption).isSome = true := by
    decide +kernel
  obtain ⟨db, hdb⟩ := Option.isSome_iff_exists.1 hbuilt
  have hbuild := eq_ok_of_toOption hdb
  have h3 : 3 < prologueRows.size := by decide
  -- the rows start at increasing addresses, with one rule for each of registers 6 and 16
  have hrows : WellFormedRows prologueRows.toList := ⟨by decide, by decide, by decide, by decide⟩
  exact ⟨db, hbuild, h3, rulesAt_of_unwindTables rfl hbuild (by simp) (fun _ => rfl) hrows h3
    (by decide +revert) (fun h => absurd h (by decide)) (by simp)⟩

end RemoteDebugger
