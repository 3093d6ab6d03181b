import RemoteDebugger.Proofs.Symbols.OrderedMaps

/-!
# Building a database from builder steps

`DatabaseBuilder.ofSteps` runs a sequence of builder operations. Every operation keeps the
builder `Sound`, and a successful build copies and indexes its data (`Built`).
-/

namespace RemoteDebugger

open Std

/-- One call of a builder operation. -/
inductive BuildStep where
  | entry (e : Entry)
  | file (key : FileKey) (name directory : String)
  | location (l : SourceLocation)
  | range (r : RangeListEntry)
  | locListEntry (offset : UInt64) (e : LocListEntry)
  | transition (address : UInt64) (entry : Option EntryKey)
  | callFrame (address : UInt64)
  | rule (frame : UInt64) (r : Rule)

namespace DatabaseBuilder

/-- The builder after one operation. -/
def perform (b : DatabaseBuilder) : BuildStep → DatabaseBuilder
  | .entry e => b.addEntry e
  | .file k name directory => b.addFile k name directory
  | .location l => (b.addLocation l).1
  | .range r => b.addRange r
  | .locListEntry offset e => b.addLocListEntry offset e
  | .transition a k => b.addTransition a k
  | .callFrame a => b.addCallFrame a
  | .rule frame r => b.addRule frame r

/-- The builder after a sequence of operations on the empty one. -/
def ofSteps (steps : List BuildStep) : DatabaseBuilder := steps.foldl perform {}

end DatabaseBuilder

/-! ## Slot maps -/

/-- A slot map is the inverse of its array: it maps a key to the position of the element with
that key, and to nothing else. -/
def SlotsIndex {κ α : Type} [Ord κ] (slots : TreeMap κ Nat compare) (xs : Array α) (key : α → κ) :
    Prop :=
  ∀ k i, slots[k]? = some i ↔ xs[i]?.map key = some k

section Slots

variable {κ α : Type} [Ord κ] {slots : TreeMap κ Nat compare} {xs : Array α} {key : α → κ}

theorem SlotsIndex.empty [TransOrd κ] : SlotsIndex (∅ : TreeMap κ Nat compare) (#[] : Array α) key := by
  intro k i
  simp

/-- Appending an element with a new key, at the next slot. -/
theorem SlotsIndex.push [TransOrd κ] [LawfulEqOrd κ] (h : SlotsIndex slots xs key) {x : α} (hnew : slots.contains (key x) = false) :
    SlotsIndex (slots.insert (key x) xs.size) (xs.push x) key := by
  intro k i
  rw [TreeMap.getElem?_insert, Array.getElem?_push]
  by_cases hk : key x = k
  · subst hk
    simp only [compare_self, if_true, Option.some.injEq]
    constructor
    · rintro rfl; simp
    · intro hi
      by_cases his : i = xs.size
      · exact his.symm
      · rw [if_neg his] at hi
        have := (h (key x) i).mpr hi
        rw [TreeMap.contains_eq_isSome_getElem?, this] at hnew
        cases hnew
  · have hc : compare (key x) k ≠ .eq := fun he => hk (LawfulEqCmp.eq_of_compare he)
    simp only [hc, if_false]
    by_cases his : i = xs.size
    · subst his
      simp only [if_true, Option.map_some, Option.some.injEq, hk, iff_false]
      intro hs
      have := (h k xs.size).mp hs
      simp at this
    · simp only [his, if_false]
      exact h k i

/-- Replacing an element by one with the same key. -/
theorem SlotsIndex.set (h : SlotsIndex slots xs key) {x : α} {i : Nat} (hi : slots[key x]? = some i) :
    SlotsIndex slots (xs.set! i x) key := by
  have hkeys : ∀ j : Nat, (xs.set! i x)[j]?.map key = xs[j]?.map key := by
    intro j
    have hxi := (h (key x) i).mp hi
    rw [Array.set!_eq_setIfInBounds, Array.getElem?_setIfInBounds]
    by_cases hij : i = j
    · subst hij
      have hlt : i < xs.size := by
        rcases hx : xs[i]? with _ | y
        · simp [hx] at hxi
        · exact (Array.getElem?_eq_some_iff.mp hx).1
      rw [Array.getElem?_eq_getElem hlt] at hxi
      simpa [hlt] using (Option.some.inj hxi).symm
    · simp [hij]
  intro k j
  rw [hkeys]
  exact h k j

/-- The element a slot map finds is the element with that key. -/
theorem SlotsIndex.find_eq_some_iff (h : SlotsIndex slots xs key) (k : κ) (x : α) :
    (slots[k]?.bind fun i => xs[i]?) = some x ↔ x ∈ xs ∧ key x = k := by
  constructor
  · intro hx
    obtain ⟨i, hi, hxi⟩ := Option.bind_eq_some_iff.mp hx
    have := (h k i).mp hi
    rw [hxi] at this
    exact ⟨Array.mem_of_getElem? hxi, Option.some.inj this⟩
  · rintro ⟨hx, rfl⟩
    obtain ⟨i, hxi⟩ := Array.getElem?_of_mem hx
    have hi := (h (key x) i).mpr (by rw [hxi]; rfl)
    rw [hi]
    exact hxi

end Slots

/-! ## Sound builders -/

namespace DatabaseBuilder

/-- What every sequence of builder operations keeps. -/
structure Sound (b : DatabaseBuilder) : Prop where
  /-- A line row is stored under its start and covers at least one address. -/
  rows : ∀ (a : UInt64) (l : SourceLocation), b.locations[a]? = some l → l.start = a ∧ l.length ≠ 0
  /-- Entry slots index the entries by key. -/
  entrySlots : SlotsIndex b.slots b.entries Entry.key
  /-- File slots index the files by key. -/
  fileSlots : SlotsIndex b.fileSlots b.files SourceFile.key
  /-- A file's current path is still the path it was declared with. -/
  filesDeclared : ∀ f ∈ b.files, f.current = f.declared

theorem sound_empty : ({} : DatabaseBuilder).Sound where
  rows a l h := by simp at h
  entrySlots := SlotsIndex.empty
  fileSlots := SlotsIndex.empty
  filesDeclared f h := by simp at h

theorem Sound.addEntry {b : DatabaseBuilder} (h : b.Sound) (e : Entry) : (b.addEntry e).Sound := by
  unfold DatabaseBuilder.addEntry
  cases hs : b.slots[e.key]? with
  | some i => exact { h with entrySlots := h.entrySlots.set hs }
  | none =>
    refine { h with entrySlots := h.entrySlots.push ?_ }
    rw [TreeMap.contains_eq_isSome_getElem?, hs]
    rfl

theorem Sound.addFile {b : DatabaseBuilder} (h : b.Sound) (k : FileKey) (name directory : String) :
    (b.addFile k name directory).Sound := by
  unfold DatabaseBuilder.addFile
  split
  · exact h
  · rename_i hk
    refine { h with fileSlots := h.fileSlots.push (x := SourceFile.make k name directory) ?_,
                    filesDeclared := ?_ }
    · exact Bool.eq_false_iff.mpr hk
    · intro f hf
      rcases Array.mem_push.mp hf with hf | rfl
      · exact h.filesDeclared f hf
      · rfl

theorem Sound.addLocation {b : DatabaseBuilder} (h : b.Sound) (l : SourceLocation) :
    (b.addLocation l).1.Sound := by
  unfold DatabaseBuilder.addLocation
  split
  · exact h
  · rename_i hl
    refine { h with rows := fun a r hr => ?_ }
    rw [TreeMap.getElem?_insert] at hr
    split at hr
    · rename_i ha
      cases hr
      exact ⟨LawfulEqCmp.eq_of_compare ha, fun h0 => hl (Or.inl h0)⟩
    · exact h.rows a r hr

theorem Sound.addCallFrame {b : DatabaseBuilder} (h : b.Sound) (a : UInt64) :
    (b.addCallFrame a).Sound := by
  unfold DatabaseBuilder.addCallFrame
  split
  · exact h
  · exact { h with }

theorem Sound.addRule {b : DatabaseBuilder} (h : b.Sound) (frame : UInt64) (r : Rule) :
    (b.addRule frame r).Sound := by
  unfold DatabaseBuilder.addRule
  split
  · exact { h with }
  · exact { h with }

/-- One operation keeps a builder sound. -/
theorem Sound.perform {b : DatabaseBuilder} (h : b.Sound) : ∀ s : BuildStep, (b.perform s).Sound
  | .entry e => h.addEntry e
  | .file k name directory => h.addFile k name directory
  | .location l => h.addLocation l
  | .range _ => { h with }
  | .locListEntry _ _ => { h with }
  | .transition _ _ => { h with }
  | .callFrame a => h.addCallFrame a
  | .rule frame r => h.addRule frame r

/-- Every sequence of operations leaves a sound builder. -/
theorem sound_ofSteps (steps : List BuildStep) : (ofSteps steps).Sound := by
  unfold ofSteps
  -- the invariant is carried along the fold from the empty builder
  suffices ∀ b : DatabaseBuilder, b.Sound → (steps.foldl perform b).Sound from this _ sound_empty
  induction steps with
  | nil => exact fun _ h => h
  | cons s ss ih => exact fun b h => ih _ (h.perform s)

/-! ## What a successful build leaves -/

/-- A loop that stops at the first bad item with that item's error, and otherwise goes on. -/
theorem forIn_check {ε α : Type} (l : List α) (f : α → PUnit → Except ε (ForInStep PUnit))
    (bad : α → Bool) (err : α → ε)
    (hf : ∀ x, f x ⟨⟩ = if bad x then .error (err x) else .ok (.yield ⟨⟩)) :
    forIn l ⟨⟩ f = match l.find? bad with
      | some x => .error (err x)
      | none => .ok ⟨⟩ := by
  induction l with
  | nil => rfl
  | cons x xs ih =>
    rw [List.forIn_cons, hf x, List.find?_cons]
    cases bad x
    · exact ih
    · rfl

/-- A checking loop that succeeds met no bad item. -/
theorem forIn_check_ok {ε α : Type} {l : List α} {f : α → PUnit → Except ε (ForInStep PUnit)}
    (bad : α → Bool) (err : α → ε)
    (hf : ∀ x, f x ⟨⟩ = if bad x then .error (err x) else .ok (.yield ⟨⟩)) {u : PUnit}
    (h : forIn l ⟨⟩ f = .ok u) : ∀ x ∈ l, bad x = false := by
  rw [forIn_check l f bad err hf] at h
  split at h
  · cases h
  · rename_i hnone
    intro x hx
    simpa using List.find?_eq_none.mp hnone x hx

/-- The parts of a database that a successful build copies from the builder or computes from
it, and what its checks established. -/
structure Built (b : DatabaseBuilder) (db : SymbolDatabase) : Prop where
  entries : db.entries = b.entries
  slots : db.slots = b.slots
  files : db.files = b.files
  fileSlots : db.fileSlots = b.fileSlots
  locations : db.locations = b.locations
  transitions : db.transitions = b.transitions
  filesByName : db.filesByName = b.files.zipIdx.foldl (fun m (f, i) => push m f.basename i) ∅
  locationsByFile : db.locationsByFile = b.locations.foldl (fun m _ l => push m l.file l) ∅
  /-- Every line row names a file that was added. -/
  rowFiles : ∀ (a : UInt64) (l : SourceLocation), b.locations[a]? = some l →
    b.fileSlots.contains l.file = true

theorem built_of_build {b : DatabaseBuilder} {db : SymbolDatabase} (h : b.build = .ok db) :
    Built b db := by
  unfold build at h
  simp only [bind, Except.bind] at h
  repeat' split at h
  all_goals try contradiction
  rename_i hrows
  simp only [pure, Except.pure, Except.ok.injEq] at h
  subst h
  refine ⟨rfl, rfl, rfl, rfl, rfl, rfl, rfl, rfl, fun a l hl => ?_⟩
  have hgood := forIn_check_ok (fun x => !b.fileSlots.contains x.2.file) _ (fun x => by split <;> rfl)
    hrows (a, l) (TreeMap.mem_toList_iff_getElem?_eq_some.mpr hl)
  simpa using hgood

end DatabaseBuilder

/-! ## Files and rows of an accepted database -/

namespace SymbolDatabase

/-- What every database that `build` accepted from a sequence of builder operations satisfies:
the builder's invariants, carried over, and its checks and indices read as plain filters. -/
structure Accepted (db : SymbolDatabase) : Prop where
  rows : ∀ (a : UInt64) (l : SourceLocation), db.locations[a]? = some l → l.start = a ∧ l.length ≠ 0
  fileSlots : SlotsIndex db.fileSlots db.files SourceFile.key
  filesDeclared : ∀ f ∈ db.files, f.current = f.declared
  /-- Every line row names a file of the database. -/
  rowFiles : ∀ (a : UInt64) (l : SourceLocation), db.locations[a]? = some l → ∃ f, db.file l.file = some f
  /-- The files with a base name are those files, in the order they were added. -/
  filesNamed : ∀ n, db.filesNamed n = db.files.toList.filter (·.basename = n)
  /-- The rows of a file are its rows, in address order. -/
  locationsForFile : ∀ k, db.locationsForFile k = db.rows.filter (·.file = k)

theorem file_eq_some_iff {db : SymbolDatabase} (h : SlotsIndex db.fileSlots db.files SourceFile.key)
    (k : FileKey) (f : SourceFile) : db.file k = some f ↔ f ∈ db.files ∧ f.key = k :=
  h.find_eq_some_iff k f

theorem mem_rows_iff {db : SymbolDatabase} (l : SourceLocation) :
    l ∈ db.rows ↔ ∃ a : UInt64, db.locations[a]? = some l := by
  rw [rows, values_eq_map_snd, List.mem_map]
  constructor
  · rintro ⟨e, he, rfl⟩
    exact ⟨e.1, TreeMap.mem_toList_iff_getElem?_eq_some.mp he⟩
  · rintro ⟨a, ha⟩
    exact ⟨(a, l), TreeMap.mem_toList_iff_getElem?_eq_some.mpr ha, rfl⟩

/-- The position of each file among the positions listed under a base name, read back through
the files array, is the files with that base name. -/
theorem filterMap_getElem?_zipIdx {α : Type} (xs : Array α) (p : α → Bool) :
    ((xs.toList.zipIdx.filter fun x => p x.1).map (·.2)).filterMap (fun i => xs[i]?) =
      xs.toList.filter p := by
  rw [List.filterMap_map]
  have hcongr : ∀ x ∈ xs.toList.zipIdx.filter (fun x => p x.1),
      ((fun i => xs[i]?) ∘ (·.2)) x = (some ∘ (·.1)) x := by
    intro x hx
    have := List.mem_zipIdx_iff_getElem?.mp (List.mem_filter.mp hx).1
    simpa [Function.comp_def] using this
  rw [List.filterMap_congr hcongr, List.filterMap_eq_map,
    show (fun x : α × Nat => p x.1) = p ∘ (·.1) from rfl, ← List.filter_map, List.zipIdx_map_fst]

theorem filesNamed_of_built {b : DatabaseBuilder} {db : SymbolDatabase} (h : DatabaseBuilder.Built b db)
    (n : String) : db.filesNamed n = db.files.toList.filter (·.basename = n) := by
  rw [filesNamed, h.filesByName, ← Array.foldl_toList, Array.toList_zipIdx,
    getD_foldl_push (fun x : SourceFile × Nat => x.1.basename) (·.2), h.files]
  simpa using filterMap_getElem?_zipIdx b.files (·.basename = n)

theorem locationsForFile_of_built {b : DatabaseBuilder} {db : SymbolDatabase}
    (h : DatabaseBuilder.Built b db) (k : FileKey) :
    db.locationsForFile k = db.rows.filter (·.file = k) := by
  rw [locationsForFile, h.locationsByFile, TreeMap.foldl_eq_foldl_toList,
    getD_foldl_push (fun x : UInt64 × SourceLocation => x.2.file) (·.2), rows, values_eq_map_snd,
    h.locations, List.filter_map]
  simp [Function.comp_def]

theorem accepted_of_built {b : DatabaseBuilder} {db : SymbolDatabase} (hb : b.Sound)
    (h : DatabaseBuilder.Built b db) : db.Accepted where
  rows a l hl := hb.rows a l (h.locations ▸ hl)
  fileSlots := h.fileSlots ▸ h.files ▸ hb.fileSlots
  filesDeclared f hf := hb.filesDeclared f (h.files ▸ hf)
  rowFiles a l hl := by
    have hc := h.rowFiles a l (h.locations ▸ hl)
    rw [TreeMap.contains_eq_isSome_getElem?] at hc
    obtain ⟨i, hi⟩ := Option.isSome_iff_exists.mp hc
    have hfi := (hb.fileSlots l.file i).mp hi
    obtain ⟨f, hf, -⟩ := Option.map_eq_some_iff.mp hfi
    exact ⟨f, by rw [file, h.fileSlots, hi, h.files]; exact hf⟩
  filesNamed := filesNamed_of_built h
  locationsForFile := locationsForFile_of_built h

/-- Every database built from builder operations is accepted in the sense above. -/
theorem accepted_of_build {steps : List BuildStep} {db : SymbolDatabase}
    (h : (DatabaseBuilder.ofSteps steps).build = .ok db) : db.Accepted :=
  accepted_of_built (DatabaseBuilder.sound_ofSteps steps) (DatabaseBuilder.built_of_build h)

end SymbolDatabase

end RemoteDebugger
