import RemoteDebugger.Proofs.Symbols.FileMatching

/-!
# Addresses and source positions

Over an accepted database with disjoint line rows, a resolver's positions and addresses answer
each other: an address of a row has the row's position, every address of a file line is on that
line, and a row's position leads back to the row's start when matching picks its file again. The
top address, a backslash in a file name and an earlier file whose path ends the file's path are
where this fails.
-/

namespace RemoteDebugger

/-- The addresses a row maps to its position: `[start, start + length)` over the naturals. -/
def SourceLocation.Spans (l : SourceLocation) (a : UInt64) : Prop :=
  l.start.toNat ≤ a.toNat ∧ a.toNat < l.start.toNat + l.length.toNat

instance (l : SourceLocation) (a : UInt64) : Decidable (l.Spans a) :=
  inferInstanceAs (Decidable (_ ∧ _))

namespace SymbolDatabase

/-- The line rows cover pairwise disjoint intervals. -/
def RowsDisjoint (db : SymbolDatabase) : Prop :=
  ∀ r ∈ db.rows, ∀ s ∈ db.rows, r ≠ s →
    r.start.toNat + r.length.toNat ≤ s.start.toNat ∨ s.start.toNat + s.length.toNat ≤ r.start.toNat

instance (db : SymbolDatabase) : Decidable db.RowsDisjoint :=
  inferInstanceAs (Decidable (∀ r ∈ db.rows, _))

/-- Every row, moved by the base, stays within the address space. -/
def RowsFitAt (db : SymbolDatabase) (base : Address) : Prop :=
  ∀ r ∈ db.rows, base.toNat + r.start.toNat + r.length.toNat ≤ UInt64.size

instance (db : SymbolDatabase) (base : Address) : Decidable (db.RowsFitAt base) :=
  inferInstanceAs (Decidable (∀ r ∈ db.rows, _))

end SymbolDatabase

/-! ## Rows at an address -/

/-- A row's end is its start plus its length, saturated at the top address. -/
theorem SourceLocation.toNat_stop (l : SourceLocation) :
    l.stop.toNat = min (l.start.toNat + l.length.toNat) (UInt64.size - 1) := by
  unfold SourceLocation.stop
  split
  · rename_i hfit
    rw [UInt64.toNat_add, Nat.mod_eq_of_lt hfit]
    omega
  · rename_i hfit
    have : (UInt64.ofNat (UInt64.size - 1)).toNat = UInt64.size - 1 := rfl
    omega

/-- A row contains the addresses it spans, except the top one. -/
theorem SourceLocation.contains_of_spans {l : SourceLocation} {a : UInt64} (h : l.Spans a)
    (htop : a.toNat + 1 < UInt64.size) : l.contains a = true := by
  obtain ⟨h1, h2⟩ := h
  have hstop := l.toNat_stop
  simp only [SourceLocation.contains, Bool.and_eq_true, decide_eq_true_eq, UInt64.le_iff_toNat_le,
    UInt64.lt_iff_toNat_lt]
  exact ⟨h1, by omega⟩

theorem SourceLocation.spans_of_contains {l : SourceLocation} {a : UInt64} (h : l.contains a = true) :
    l.Spans a := by
  have hstop := l.toNat_stop
  simp only [SourceLocation.contains, Bool.and_eq_true, decide_eq_true_eq, UInt64.le_iff_toNat_le,
    UInt64.lt_iff_toNat_lt] at h
  exact ⟨h.1, by omega⟩

namespace SymbolDatabase

variable {db : SymbolDatabase}

theorem mem_rows_of_locationForAddress {a : UInt64} {row : SourceLocation}
    (h : db.locationForAddress a = some row) : row ∈ db.rows := by
  obtain ⟨⟨k, v⟩, hk, rfl⟩ := Option.map_eq_some_iff.mp h
  exact (mem_rows_iff _).mpr ⟨k, ((getEntryLE?_eq_some_iff _ _ _ _).mp hk).1⟩

theorem locations_start (hdb : db.Accepted) {row : SourceLocation} (h : row ∈ db.rows) :
    db.locations[row.start]? = some row := by
  obtain ⟨a, ha⟩ := (mem_rows_iff row).mp h
  rw [(hdb.rows a row ha).1]
  exact ha

/-- The floor lookup at a row's start finds the row. -/
theorem locationForAddress_start (hdb : db.Accepted) {row : SourceLocation} (h : row ∈ db.rows) :
    db.locationForAddress row.start = some row := by
  simp [locationForAddress, getEntryLE?_self (locations_start hdb h)]

/-- With disjoint rows, the floor lookup at any address a row spans finds that row: a row
starting between the two would overlap it. -/
theorem locationForAddress_of_spans (hdb : db.Accepted) (hdisj : db.RowsDisjoint)
    {row : SourceLocation} (h : row ∈ db.rows) {a : UInt64} (ha : row.Spans a) :
    db.locationForAddress a = some row := by
  have hfloor : db.locations.getEntryLE? a = some (row.start, row) := by
    refine (getEntryLE?_eq_some_iff _ _ _ _).mpr ⟨locations_start hdb h, ?_, fun k hk hka => ?_⟩
    · exact UInt64.le_iff_toNat_le.mpr ha.1
    · obtain ⟨other, hother⟩ := Option.isSome_iff_exists.mp (Std.TreeMap.isSome_getElem?_iff_mem.mpr hk)
      have hmem : other ∈ db.rows := (mem_rows_iff _).mpr ⟨k, hother⟩
      obtain ⟨hstart, -⟩ := hdb.rows k other hother
      subst hstart
      rw [UInt64.le_iff_toNat_le] at hka ⊢
      by_contra hlt
      have hne : row ≠ other := by rintro rfl; omega
      have hspan := ha.2
      rcases hdisj row h other hmem hne with hd | hd <;> omega
  simp [locationForAddress, hfloor]

end SymbolDatabase

/-! ## Positions -/

namespace Resolver

theorem position_eq_some_iff (r : Resolver) (A : Address) (p : SourcePosition) :
    r.position A = some p ↔ ∃ rel row f, r.relative A = some rel ∧
      r.db.locationForAddress rel = some row ∧ row.contains rel = true ∧
      r.db.file row.file = some f ∧ p = ⟨f.current, row.line, row.column⟩ := by
  unfold position
  simp only [bind, Option.bind_eq_some_iff]
  constructor
  · rintro ⟨rel, hrel, row, hrow, h⟩
    cases hc : row.contains rel
    · simp [hc] at h
    · simp only [hc, Bool.not_true, Bool.false_eq_true, if_false] at h
      obtain ⟨f, hf, hp⟩ := Option.bind_eq_some_iff.mp h
      exact ⟨rel, row, f, hrel, hrow, hc, hf, (Option.some.inj hp).symm⟩
  · rintro ⟨rel, row, f, hrel, hrow, hc, hf, rfl⟩
    exact ⟨rel, hrel, row, hrow, by simp [hc, hf, pure]⟩

theorem relative_add (r : Resolver) {a : UInt64} (h : r.base.toNat + a.toNat < UInt64.size) :
    r.relative (r.base + a) = some a := by
  have hle : r.base ≤ r.base + a := by
    rw [UInt64.le_iff_toNat_le, UInt64.toNat_add, Nat.mod_eq_of_lt h]
    omega
  simp [relative, Address.relativeTo, hle]

theorem relative_eq_some {r : Resolver} {A : Address} {rel : UInt64} (h : r.relative A = some rel) :
    A = r.base + rel ∧ r.base.toNat + rel.toNat < UInt64.size := by
  unfold relative Address.relativeTo at h
  split at h
  · rename_i hle
    cases h
    rw [UInt64.le_iff_toNat_le] at hle
    refine ⟨by simp, ?_⟩
    rw [UInt64.toNat_sub_of_le _ _ (UInt64.le_iff_toNat_le.mpr hle)]
    have := A.toNat_lt
    simp only [UInt64.size]
    omega
  · cases h

end Resolver

/-! ## The round trip -/

open SymbolDatabase Resolver

/-- How positions and addresses answer each other over a database loaded at a base. -/
structure PositionsRoundTrip (db : SymbolDatabase) (base : Address) : Prop where
  /-- Every address a row spans, except the top one, has the row's line and its file's path. -/
  covered : ∀ r ∈ db.rows, ∀ a : UInt64, r.Spans a → base.toNat + a.toNat + 1 < UInt64.size →
    ∃ f, db.file r.file = some f ∧
      (ofDatabase db base).position (base + a) = some ⟨f.current, r.line, r.column⟩
  /-- An address that no row spans has no position. -/
  uncovered : ∀ A : Address, (∀ r ∈ db.rows, ∀ a : UInt64, r.Spans a → A ≠ base + a) →
    (ofDatabase db base).position A = none
  /-- Every address of a file line, except the top one, has that line in a file whose current
  path is the requested one. -/
  addresses : ∀ (path : String) (line : UInt32), ∀ A ∈ ((ofDatabase db base).addresses path line).2,
    A.toNat + 1 < UInt64.size → ∃ p, ((ofDatabase db base).addresses path line).1.position A = some p ∧
      p.line = line ∧ Path.same p.path path = true
  /-- The position of a row's address leads back to the row's start, when the row's file ends in
  its base name and no file added before it with that base name is declared with another path
  ending in all of its names. -/
  roundTrip : ∀ r ∈ db.rows, ∀ f, db.file r.file = some f → Path.fileName f.declared = some f.basename →
    (∀ pre post, db.files.toList = pre ++ f :: post → ∀ g ∈ pre, g.basename = f.basename →
      Path.names f.declared <:+ Path.names g.declared → Path.same g.declared f.declared = true) →
    ∀ a : UInt64, r.Spans a → ∀ P, (ofDatabase db base).position (base + a) = some P →
      base + r.start ∈ ((ofDatabase db base).addresses P.path P.line).2

section RoundTrip

variable {db : SymbolDatabase} {base : Address}

theorem position_of_spans (hdb : db.Accepted) (hdisj : db.RowsDisjoint) {r : SourceLocation}
    (hr : r ∈ db.rows) {a : UInt64} (ha : r.Spans a) (htop : base.toNat + a.toNat + 1 < UInt64.size) :
    ∃ f, db.file r.file = some f ∧
      (ofDatabase db base).position (base + a) = some ⟨f.current, r.line, r.column⟩ := by
  obtain ⟨f, hf⟩ := hdb.rowFiles r.start r (locations_start hdb hr)
  refine ⟨f, hf, (position_eq_some_iff _ _ _).mpr ⟨a, r, f, ?_, ?_, ?_, hf, rfl⟩⟩
  · exact relative_add (ofDatabase db base) (by simp only [ofDatabase]; omega)
  · exact locationForAddress_of_spans hdb hdisj hr ha
  · exact SourceLocation.contains_of_spans ha (by omega)

theorem position_eq_none_of_uncovered {A : Address}
    (h : ∀ r ∈ db.rows, ∀ a : UInt64, r.Spans a → A ≠ base + a) :
    (ofDatabase db base).position A = none := by
  rcases hp : (ofDatabase db base).position A with _ | p
  · rfl
  · obtain ⟨rel, row, f, hrel, hrow, hc, -, -⟩ := (position_eq_some_iff _ _ _).mp hp
    exact absurd (relative_eq_some hrel).1
      (h row (mem_rows_of_locationForAddress hrow) rel (SourceLocation.spans_of_contains hc))

/-- The position of an address a row spans, when there is one, is the row's. -/
theorem position_eq_of_spans (hdb : db.Accepted) (hdisj : db.RowsDisjoint) {r : SourceLocation}
    (hr : r ∈ db.rows) {a : UInt64} (ha : r.Spans a) {P : SourcePosition}
    (hP : (ofDatabase db base).position (base + a) = some P) :
    ∃ f, db.file r.file = some f ∧ P = ⟨f.current, r.line, r.column⟩ := by
  obtain ⟨rel, row, f, hrel, hrow, -, hf, rfl⟩ := (position_eq_some_iff _ _ _).mp hP
  have hrel' : rel = a := by
    have := (relative_eq_some hrel).1
    simpa [ofDatabase] using this.symm
  subst hrel'
  have : row = r := by
    change db.locationForAddress rel = some row at hrow
    rw [locationForAddress_of_spans hdb hdisj hr ha] at hrow
    exact (Option.some.inj hrow).symm
  subst this
  exact ⟨f, hf, rfl⟩

theorem position_of_addresses (hdb : db.Accepted) (hfit : db.RowsFitAt base) (path : String)
    (line : UInt32) {A : Address} (hA : A ∈ ((ofDatabase db base).addresses path line).2)
    (htop : A.toNat + 1 < UInt64.size) :
    ∃ p, ((ofDatabase db base).addresses path line).1.position A = some p ∧
      p.line = line ∧ Path.same p.path path = true := by
  obtain ⟨g, hg, row, hrow, hline, rfl⟩ := (mem_addresses _ _ _ _).mp hA
  obtain ⟨hgfile, hgpath⟩ := matchingFiles_file _ hdb.fileSlots hg
  obtain ⟨files, hres⟩ := matchingFiles_db (ofDatabase db base) path
  rw [addresses_fst, hres]
  rw [hres] at hrow hgfile htop
  -- matching changed only the files, so rows are read in the original database
  change row ∈ db.locationsForFile g.key at hrow
  rw [hdb.locationsForFile, List.mem_filter, decide_eq_true_eq] at hrow
  obtain ⟨hrows, hfile⟩ := hrow
  have hlen := (hdb.rows row.start row (locations_start hdb hrows)).2
  have hlen' : row.length.toNat ≠ 0 := fun h0 => hlen (UInt64.toNat_inj.mp (by simpa using h0))
  have hfit' := hfit row hrows
  have hstart : base.toNat + row.start.toNat < UInt64.size := by omega
  refine ⟨_, (position_eq_some_iff _ _ _).mpr ⟨row.start, row, g, ?_, ?_, ?_, hfile ▸ hgfile, rfl⟩,
    hline, hgpath⟩
  · exact relative_add _ hstart
  · exact locationForAddress_start hdb hrows
  · refine SourceLocation.contains_of_spans ⟨le_refl _, by omega⟩ ?_
    simp only [UInt64.toNat_add, ofDatabase] at htop
    rw [Nat.mod_eq_of_lt hstart] at htop
    omega

/-- A file wins the match for its own declared path when no file added before it with its base
name is declared with another path that ends with all of its names. -/
theorem addresses_of_position (hdb : db.Accepted) (hdisj : db.RowsDisjoint) {r : SourceLocation}
    (hr : r ∈ db.rows) {f : SourceFile} (hf : db.file r.file = some f)
    (hname : Path.fileName f.declared = some f.basename)
    (hsuffix : ∀ pre post, db.files.toList = pre ++ f :: post → ∀ g ∈ pre, g.basename = f.basename →
      Path.names f.declared <:+ Path.names g.declared → Path.same g.declared f.declared = true)
    {a : UInt64} (ha : r.Spans a) {P : SourcePosition}
    (hP : (ofDatabase db base).position (base + a) = some P) :
    base + r.start ∈ ((ofDatabase db base).addresses P.path P.line).2 := by
  obtain ⟨f', hf', rfl⟩ := position_eq_of_spans hdb hdisj hr ha hP
  rw [hf] at hf'
  cases hf'
  obtain ⟨hfmem, hfkey⟩ := (file_eq_some_iff hdb.fileSlots _ _).mp hf
  rw [hdb.filesDeclared f hfmem]
  obtain ⟨pre, post, hsplit⟩ := List.append_of_mem (Array.mem_toList_iff.mpr hfmem)
  have hnamed : db.filesNamed f.basename =
      pre.filter (·.basename = f.basename) ++ f :: post.filter (·.basename = f.basename) := by
    rw [hdb.filesNamed, hsplit, List.filter_append, List.filter_cons_of_pos (by simp)]
  -- the file's own path scores every one of its names: an earlier file that ties ends with all
  -- of them, and no later file can score higher
  have hbefore : ∀ g ∈ pre.filter (·.basename = f.basename),
      sharedSuffix f.declared f.declared ≤ sharedSuffix g.declared f.declared →
        Path.same g.declared f.declared = true := by
    intro g hg hle
    obtain ⟨hgpre, hgname⟩ := List.mem_filter.mp hg
    rw [sharedSuffix_self] at hle
    exact hsuffix pre post hsplit g hgpre (of_decide_eq_true hgname)
      (suffix_of_sharedSuffix (le_antisymm (sharedSuffix_le _ _) hle))
  have hafter : ∀ g ∈ post.filter (·.basename = f.basename),
      sharedSuffix f.declared f.declared < sharedSuffix g.declared f.declared →
        Path.same g.declared f.declared = true := by
    intro g _ hlt
    rw [sharedSuffix_self] at hlt
    exact absurd (sharedSuffix_le g.declared f.declared) (Nat.not_le.mpr hlt)
  obtain ⟨g, hg, hgkey⟩ := mem_matchingFiles (ofDatabase db base) hdb.fileSlots hname hnamed
    (hfkey ▸ hf) hbefore hafter
  refine (mem_addresses _ _ _ _).mpr ⟨g, hg, r, ?_, rfl, ?_⟩
  · obtain ⟨files, hres⟩ := matchingFiles_db (ofDatabase db base) f.declared
    rw [hres]
    change r ∈ db.locationsForFile g.key
    rw [hdb.locationsForFile, List.mem_filter, decide_eq_true_eq, hgkey, hfkey]
    exact ⟨hr, rfl⟩
  · obtain ⟨files, hres⟩ := matchingFiles_db (ofDatabase db base) f.declared
    rw [hres]
    rfl

end RoundTrip

/-- Over a database built from builder operations, with disjoint rows that fit above the base,
positions and addresses answer each other. -/
theorem positionsRoundTrip_of_build {steps : List BuildStep} {db : SymbolDatabase} {base : Address}
    (h : (DatabaseBuilder.ofSteps steps).build = .ok db) (hdisj : db.RowsDisjoint)
    (hfit : db.RowsFitAt base) : PositionsRoundTrip db base where
  covered _ hr _ ha htop := position_of_spans (accepted_of_build h) hdisj hr ha htop
  uncovered _ hA := position_eq_none_of_uncovered hA
  addresses path line _ hA htop := position_of_addresses (accepted_of_build h) hfit path line hA htop
  roundTrip _ hr _ hf hname hsuffix _ ha _ hP :=
    addresses_of_position (accepted_of_build h) hdisj hr hf hname hsuffix ha hP

/-- Two files in two directories, each with a line row. -/
def twoFileSteps : List BuildStep :=
  [.file ⟨1⟩ "main.c" "/src", .file ⟨2⟩ "util.c" "/src/lib", .location ⟨0x1000, 8, ⟨1⟩, 4, 2⟩,
   .location ⟨0x1008, 4, ⟨2⟩, 9, 0⟩]

theorem positionsRoundTrip_twoFiles :
    ∃ db, (DatabaseBuilder.ofSteps twoFileSteps).build = .ok db ∧ db.RowsDisjoint ∧
      db.RowsFitAt 0x400000 ∧ PositionsRoundTrip db 0x400000 :=
  ⟨_, rfl, by decide +kernel, by decide +kernel,
    @positionsRoundTrip_of_build twoFileSteps _ _ rfl (by decide +kernel) (by decide +kernel)⟩

/-- One file, `/src/x.c`, with a row at the top address of the address space. -/
def edgeRowSteps : List BuildStep :=
  [.file ⟨1⟩ "x.c" "/src", .location ⟨0xFFFFFFFFFFFFFFFF, 1, ⟨1⟩, 1, 0⟩]

/-- One file whose name `win\x.c` holds a backslash, in `/src`, with a row at `0x1000`. -/
def backslashFileSteps : List BuildStep :=
  [.file ⟨1⟩ "win\\x.c" "/src", .location ⟨0x1000, 4, ⟨1⟩, 3, 0⟩]

/-- Two files named `x.c`: `/src/lib/x.c` first, then `lib/x.c`, whose path ends the first. -/
def shadowedFileSteps : List BuildStep :=
  [.file ⟨1⟩ "x.c" "/src/lib", .file ⟨2⟩ "x.c" "lib", .location ⟨0x1000, 4, ⟨1⟩, 7, 0⟩,
   .location ⟨0x2000, 4, ⟨2⟩, 7, 0⟩]

/-- The round trip fails at its edges, on disjoint rows that fit at base `0`. The top address has
no position although a row spans it. The position of the row of `/src/win\x.c` leads to no
address, since matching looks a path up by its last component, `win\x.c`, while the file is
indexed under `x.c`. And the position of the row of `lib/x.c` leads to the rows of `/src/lib/x.c`,
added before it, which wins the match for `lib/x.c` as the first file with the most trailing names
in common. -/
theorem positions_roundTrip_fails_at_edges :
    (∃ db, (DatabaseBuilder.ofSteps edgeRowSteps).build = .ok db ∧ db.RowsDisjoint ∧ db.RowsFitAt 0 ∧
      (∃ r ∈ db.rows, r.Spans 0xFFFFFFFFFFFFFFFF) ∧
      (Resolver.ofDatabase db 0).position (0 + 0xFFFFFFFFFFFFFFFF) = none) ∧
    (∃ db, (DatabaseBuilder.ofSteps backslashFileSteps).build = .ok db ∧ db.RowsDisjoint ∧
      db.RowsFitAt 0 ∧
      (Resolver.ofDatabase db 0).position (0 + 0x1000) = some ⟨"/src/win\\x.c", 3, 0⟩ ∧
      ((Resolver.ofDatabase db 0).addresses "/src/win\\x.c" 3).2 = []) ∧
    (∃ db, (DatabaseBuilder.ofSteps shadowedFileSteps).build = .ok db ∧ db.RowsDisjoint ∧
      db.RowsFitAt 0 ∧
      (Resolver.ofDatabase db 0).position (0 + 0x2000) = some ⟨"lib/x.c", 7, 0⟩ ∧
      0 + 0x2000 ∉ ((Resolver.ofDatabase db 0).addresses "lib/x.c" 7).2) :=
  ⟨⟨_, rfl, by decide +kernel⟩, ⟨_, rfl, by decide +kernel⟩, ⟨_, rfl, by decide +kernel⟩⟩

end RemoteDebugger
