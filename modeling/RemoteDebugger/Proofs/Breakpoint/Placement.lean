import RemoteDebugger.Breakpoint.Locator
import RemoteDebugger.Proofs.Symbols.FileMatching
import RemoteDebugger.Proofs.Symbols.Indices

/-!
# Placing a breakpoint on a line

A request for a line binds to the least line at or after it that has a row of the matched files
in a suitable scope, and takes the addresses of all its rows; with none, it fails with one error
(`placesBreakpoints_of_build`).
-/

namespace RemoteDebugger

open DatabaseBuilder Collected Resolver

/-! ## Ascending lists built by insertion -/

section Ascending

theorem mem_insertLine {x : UInt32} (l : UInt32) (ms : List UInt32) :
    x ∈ insertLine l ms ↔ x = l ∨ x ∈ ms := by
  induction ms with
  | nil => simp [insertLine]
  | cons m ms ih =>
    unfold insertLine
    split
    · simp
    · split
      · rename_i hlm
        subst hlm
        simp
      · simp only [List.mem_cons, ih]
        exact or_left_comm

theorem insertLine_sorted (l : UInt32) {ms : List UInt32} (h : ms.Pairwise (· < ·)) :
    (insertLine l ms).Pairwise (· < ·) := by
  induction ms with
  | nil => simp [insertLine]
  | cons m ms ih =>
    rw [List.pairwise_cons] at h
    unfold insertLine
    split
    · rename_i hlm
      exact List.pairwise_cons.2
        ⟨fun y hy => (List.mem_cons.1 hy).elim (· ▸ hlm) fun hy => UInt32.lt_trans hlm (h.1 y hy),
          List.pairwise_cons.2 h⟩
    · split
      · exact List.pairwise_cons.2 h
      · rename_i hnlt hne
        -- the line goes after `m`, which is then below every line of the result
        have hml : m < l := by
          simp only [UInt32.lt_iff_toNat_lt, ← UInt32.toNat_inj] at hnlt hne ⊢
          omega
        refine List.pairwise_cons.2 ⟨fun y hy => ?_, ih h.2⟩
        rcases (mem_insertLine l ms).1 hy with rfl | hy
        · exact hml
        · exact h.1 y hy

theorem mem_foldr_insertLine {x : UInt32} (L : List UInt32) :
    x ∈ L.foldr insertLine [] ↔ x ∈ L := by
  induction L with
  | nil => simp
  | cons l L ih => simp only [List.foldr_cons, mem_insertLine, ih, List.mem_cons]

theorem foldr_insertLine_sorted (L : List UInt32) : (L.foldr insertLine []).Pairwise (· < ·) := by
  induction L with
  | nil => exact List.Pairwise.nil
  | cons l L ih => exact insertLine_sorted l ih

/-- The first of the lines sorted by insertion is the least of them. -/
theorem head?_foldr_insertLine {L : List UInt32} {m : UInt32} :
    (L.foldr insertLine []).head? = some m ↔ m ∈ L ∧ ∀ x ∈ L, m ≤ x := by
  have hsorted := foldr_insertLine_sorted L
  constructor
  · intro h
    obtain ⟨rest, hrest⟩ := List.head?_eq_some_iff.1 h
    have hm : m ∈ L.foldr insertLine [] := hrest ▸ List.mem_cons_self
    refine ⟨(mem_foldr_insertLine L).1 hm, fun x hx => ?_⟩
    have hx' := (mem_foldr_insertLine L).2 hx
    rw [hrest] at hx' hsorted
    rcases List.mem_cons.1 hx' with rfl | hx'
    · exact UInt32.le_refl _
    · exact UInt32.le_of_lt ((List.pairwise_cons.1 hsorted).1 x hx')
  · rintro ⟨hm, hmin⟩
    cases hs : L.foldr insertLine [] with
    | nil =>
      have := (mem_foldr_insertLine L).2 hm
      rw [hs] at this
      cases this
    | cons y ys =>
      have hy : y ∈ L := (mem_foldr_insertLine L).1 (hs ▸ List.mem_cons_self)
      have hmy : m ∈ y :: ys := hs ▸ (mem_foldr_insertLine L).2 hm
      rw [hs] at hsorted
      rcases List.mem_cons.1 hmy with rfl | hmy
      · rfl
      · exact absurd (hmin y hy) (UInt32.not_le.2 ((List.pairwise_cons.1 hsorted).1 m hmy))

theorem foldr_insertLine_eq_nil {L : List UInt32} : L.foldr insertLine [] = [] ↔ L = [] := by
  constructor
  · intro h
    rw [List.eq_nil_iff_forall_not_mem]
    intro x hx
    have := (mem_foldr_insertLine L).2 hx
    rw [h] at this
    cases this
  · rintro rfl
    rfl

theorem insertSorted_sorted (a : Address) {bs : List Address} (h : bs.Pairwise (· < ·)) :
    (insertSorted a bs).Pairwise (· < ·) := by
  induction bs with
  | nil => simp [insertSorted]
  | cons b bs ih =>
    rw [List.pairwise_cons] at h
    unfold insertSorted
    split
    · rename_i hab
      exact List.pairwise_cons.2
        ⟨fun y hy => (List.mem_cons.1 hy).elim (· ▸ hab) fun hy => UInt64.lt_trans hab (h.1 y hy),
          List.pairwise_cons.2 h⟩
    · split
      · exact List.pairwise_cons.2 h
      · rename_i hnlt hne
        have hba : b < a := by
          simp only [UInt64.lt_iff_toNat_lt, ← UInt64.toNat_inj] at hnlt hne ⊢
          omega
        refine List.pairwise_cons.2 ⟨fun y hy => ?_, ih h.2⟩
        rcases (mem_insertSorted a bs).1 hy with rfl | hy
        · exact hba
        · exact h.1 y hy

theorem foldr_insertSorted_sorted (L : List Address) : (L.foldr insertSorted []).Pairwise (· < ·) := by
  induction L with
  | nil => exact List.Pairwise.nil
  | cons a L ih => exact insertSorted_sorted a ih

end Ascending

/-! ## Matching the same path twice -/

namespace SymbolDatabase

/-- What matching reads of a file: its key and its declared path. -/
def keyDeclared (f : SourceFile) : FileKey × String := (f.key, f.declared)

/-- Two databases whose files differ at most in their current paths. -/
structure SameFiles (db' db : SymbolDatabase) : Prop where
  filesByName : db'.filesByName = db.filesByName
  fileSlots : db'.fileSlots = db.fileSlots
  files : ∀ i : Nat, db'.files[i]?.map keyDeclared = db.files[i]?.map keyDeclared

theorem SameFiles.refl (db : SymbolDatabase) : SameFiles db db := ⟨rfl, rfl, fun _ => rfl⟩

theorem SameFiles.trans {db'' db' db : SymbolDatabase} (h₁ : SameFiles db'' db')
    (h₂ : SameFiles db' db) : SameFiles db'' db :=
  ⟨h₁.filesByName.trans h₂.filesByName, h₁.fileSlots.trans h₂.fileSlots,
    fun i => (h₁.files i).trans (h₂.files i)⟩

/-- Recording a current path changes no file's key or declared path. -/
theorem sameFiles_setCurrentPath (db : SymbolDatabase) (k : FileKey) (p : String) :
    SameFiles (db.setCurrentPath k p) db := by
  unfold setCurrentPath
  split
  · exact SameFiles.refl db
  · refine ⟨rfl, rfl, fun j => ?_⟩
    simp only [Array.getElem?_modify]
    split
    · rw [Option.map_map]
      congr 1
      funext f
      simp only [Function.comp_apply]
      split <;> rfl
    · rfl

theorem sameFiles_foldl_setCurrentPath (db : SymbolDatabase) (fs : List SourceFile) (p : String) :
    SameFiles (fs.foldl (fun db f => db.setCurrentPath f.key p) db) db := by
  induction fs generalizing db with
  | nil => exact SameFiles.refl db
  | cons f fs ih => exact (ih _).trans (sameFiles_setCurrentPath db f.key p)

theorem mem_files_of_mem_filesNamed {db : SymbolDatabase} {n : String} {f : SourceFile}
    (h : f ∈ db.filesNamed n) : f ∈ db.files := by
  obtain ⟨i, -, hi⟩ := List.mem_filterMap.1 h
  exact Array.mem_of_getElem? hi

theorem SameFiles.filesNamed {db' db : SymbolDatabase} (h : SameFiles db' db) (n : String) :
    (db'.filesNamed n).map keyDeclared = (db.filesNamed n).map keyDeclared := by
  simp only [SymbolDatabase.filesNamed, List.map_filterMap, h.filesByName]
  exact List.filterMap_congr fun i _ => h.files i

end SymbolDatabase

namespace Resolver

open SymbolDatabase

/-- Candidates that agree on keys and declared paths have the same best one, up to its current
path. -/
theorem best_congr (path : String) :
    ∀ {l l' : List SourceFile}, l'.map keyDeclared = l.map keyDeclared →
      (best (fun f => sharedSuffix f.declared path) l').map (fun p => (keyDeclared p.1, p.2)) =
        (best (fun f => sharedSuffix f.declared path) l).map (fun p => (keyDeclared p.1, p.2))
  | [], [], _ => rfl
  | [], _ :: _, h => by simp at h
  | _ :: _, [], h => by simp at h
  | f :: fs, f' :: fs', h => by
    simp only [List.map_cons, List.cons.injEq] at h
    have hdecl : f'.declared = f.declared := congrArg Prod.snd h.1
    have ih := best_congr path h.2
    unfold best
    cases hb : best (fun f => sharedSuffix f.declared path) fs with
    | none =>
      cases hb' : best (fun f => sharedSuffix f.declared path) fs' with
      | none => simp [h.1, hdecl]
      | some p' => rw [hb, hb'] at ih; cases ih
    | some p =>
      cases hb' : best (fun f => sharedSuffix f.declared path) fs' with
      | none => rw [hb, hb'] at ih; cases ih
      | some p' =>
        rw [hb, hb'] at ih
        simp only [Option.map_some, Option.some.injEq, Prod.mk.injEq] at ih
        obtain ⟨g, s⟩ := p
        obtain ⟨g', s'⟩ := p'
        simp only at ih ⊢
        rw [ih.2, hdecl]
        split <;> simp [ih.1, h.1]

/-- The keys of the files matching returns, read off the candidates: every candidate declared with
the path of the best one. -/
theorem matchingFiles_keys (r : Resolver) (h : SlotsIndex r.db.fileSlots r.db.files SourceFile.key)
    (path : String) :
    (r.matchingFiles path).2.map (·.key) =
      match Path.fileName path with
      | none => []
      | some name =>
        match best (fun f => sharedSuffix f.declared path) (r.db.filesNamed name) with
        | none => []
        | some (c, _) =>
          ((r.db.filesNamed name).filter fun f => Path.same f.declared c.declared).map (·.key) := by
  unfold matchingFiles
  cases Path.fileName path with
  | none => rfl
  | some name =>
    dsimp only
    cases best (fun f => sharedSuffix f.declared path) (r.db.filesNamed name) with
    | none => rfl
    | some p =>
      obtain ⟨c, s⟩ := p
      let fs := (r.db.filesNamed name).filter fun f => Path.same f.declared c.declared
      -- each picked file is found under its key once the paths are recorded
      have hfound : ∀ f ∈ fs,
          ((fs.foldl (fun db f => db.setCurrentPath f.key path) r.db).file f.key).map (·.key) =
            some f.key := by
        intro f hf
        have hfile : r.db.file f.key = some f := (file_eq_some_iff h _ _).2
          ⟨mem_files_of_mem_filesNamed (List.mem_filter.1 hf).1, rfl⟩
        rw [file_foldl_setCurrentPath h, hfile]
        simp only [Option.map_some]
        split <;> rfl
      change (fs.filterMap _).map (fun g : SourceFile => g.key) = fs.map (fun g : SourceFile => g.key)
      rw [List.map_filterMap, List.filterMap_congr hfound]
      exact congrFun List.filterMap_eq_map fs

/-- Databases whose files differ only in their current paths match a path to files with the same
keys. -/
theorem matchingFiles_keys_congr {r r' : Resolver}
    (h : SlotsIndex r.db.fileSlots r.db.files SourceFile.key)
    (h' : SlotsIndex r'.db.fileSlots r'.db.files SourceFile.key) (hsame : SameFiles r'.db r.db)
    (path : String) :
    (r'.matchingFiles path).2.map (·.key) = (r.matchingFiles path).2.map (·.key) := by
  rw [matchingFiles_keys r h, matchingFiles_keys r' h']
  cases Path.fileName path with
  | none => rfl
  | some name =>
    dsimp only
    have hnamed := hsame.filesNamed name
    have hbest := best_congr path hnamed
    -- the keys of the picked files are the keys of the filtered candidates, read through `keyDeclared`
    have hkeys : ∀ (l : List SourceFile) (d : String),
        (l.filter fun f => Path.same f.declared d).map (·.key) =
          ((l.map keyDeclared).filter fun x => Path.same x.2 d).map Prod.fst := by
      intro l d
      rw [List.filter_map, List.map_map]
      rfl
    cases hb : best (fun f => sharedSuffix f.declared path) (r.db.filesNamed name) with
    | none =>
      rw [hb] at hbest
      cases hb' : best (fun f => sharedSuffix f.declared path) (r'.db.filesNamed name) with
      | none => rfl
      | some p => rw [hb'] at hbest; cases hbest
    | some p =>
      rw [hb] at hbest
      cases hb' : best (fun f => sharedSuffix f.declared path) (r'.db.filesNamed name) with
      | none => rw [hb'] at hbest; cases hbest
      | some p' =>
        rw [hb'] at hbest
        simp only [Option.map_some, Option.some.injEq, Prod.mk.injEq] at hbest
        obtain ⟨c, s⟩ := p
        obtain ⟨c', s'⟩ := p'
        have hc : c'.declared = c.declared := congrArg Prod.snd hbest.1
        simp only
        rw [hkeys, hkeys, hnamed, hc]

/-- Matching a path a second time picks files with the same keys as the first time. -/
theorem matchingFiles_again_keys (r : Resolver)
    (h : SlotsIndex r.db.fileSlots r.db.files SourceFile.key) (path : String) :
    ((r.matchingFiles path).1.matchingFiles path).2.map (·.key) = (r.matchingFiles path).2.map (·.key) := by
  obtain ⟨fs, hres, -⟩ := matchingFiles_eq r path
  apply matchingFiles_keys_congr h
  · rw [hres]
    exact SymbolDatabase.slotsIndex_foldl_setCurrentPath h fs path
  · rw [hres]
    exact sameFiles_foldl_setCurrentPath r.db fs path

end Resolver

/-! ## Suitable scopes and candidate lines -/

namespace SymbolDatabase

variable (db : SymbolDatabase)

/-- A scope has begun by a line when a row whose start it owns lies at or before that line. -/
def BegunBy (k : EntryKey) (line : UInt32) : Prop :=
  ∃ row ∈ db.rows, (db.scopeForAddress row.start).map (·.key) = some k ∧ row.line ≤ line

/-- The code of a scope can take a breakpoint requested for a line: the scope has begun by the
line, or it is a block directly inside a scope that has. -/
def Suitable (S : Entry) (line : UInt32) : Prop :=
  db.BegunBy S.key line ∨
    (S.isBlock = true ∧ ∃ o, S.outerScope = some o ∧ (db.entry o).isSome ∧ db.BegunBy o line)

/-- A line a request for `line` can bind to: at or after it, with a row of one of the files that
starts in a suitable scope. -/
def Candidate (files : List SourceFile) (line L : UInt32) : Prop :=
  line ≤ L ∧ ∃ row ∈ db.rows, (∃ f ∈ files, row.file = f.key) ∧ row.line = L ∧
    ∃ S, db.scopeForAddress row.start = some S ∧ db.Suitable S line

end SymbolDatabase

namespace DatabaseBuilder

variable {steps : List BuildStep} {db : SymbolDatabase}

/-- A scope's first line is at or before a line exactly when a row whose start it owns is: the rows
of a scope are sorted by line, so the first is the least. -/
theorem firstLineOfScope_le_iff (h : (ofSteps steps).build = .ok db) (k : EntryKey) (line : UInt32) :
    (db.firstLineOfScope k).any (· ≤ line) = true ↔ db.BegunBy k line := by
  obtain ⟨hsorted, hmem⟩ := locationsInScope_of_build h k
  have hmem' : ∀ l, l ∈ db.locationsInScope k ↔
      l ∈ db.rows ∧ (db.scopeForAddress l.start).map (·.key) = some k := by
    intro l
    rw [hmem, rows_of_build h, scopeForAddress_of_build h]
  unfold SymbolDatabase.firstLineOfScope SymbolDatabase.BegunBy
  cases hs : db.locationsInScope k with
  | nil =>
    simp only [List.head?_nil, Option.map_none, Option.any_none, Bool.false_eq_true, false_iff]
    rintro ⟨row, hrow, hk, -⟩
    have := (hmem' row).2 ⟨hrow, hk⟩
    rw [hs] at this
    cases this
  | cons first rest =>
    rw [hs] at hsorted
    simp only [List.head?_cons, Option.map_some, Option.any_some, decide_eq_true_eq]
    constructor
    · intro hle
      obtain ⟨hrow, hk⟩ := (hmem' first).1 (hs ▸ List.mem_cons_self)
      exact ⟨first, hrow, hk, hle⟩
    · rintro ⟨row, hrow, hk, hle⟩
      have hin : row ∈ first :: rest := hs ▸ (hmem' row).2 ⟨hrow, hk⟩
      rcases List.mem_cons.1 hin with rfl | hin
      · exact hle
      · -- the first row comes before every other row of the scope, so its line is no later
        rcases (List.pairwise_cons.1 hsorted).1 row hin with hlt | ⟨heq, -⟩
        · exact UInt32.le_trans (UInt32.le_of_lt hlt) hle
        · exact heq ▸ hle

/-- The locator's suitability test decides `Suitable`. -/
theorem isSuitable_iff (h : (ofSteps steps).build = .ok db) (S : Entry) (line : UInt32) :
    isSuitable db S line = true ↔ db.Suitable S line := by
  unfold isSuitable isSuitable.beginsBy SymbolDatabase.Suitable
  rw [Bool.or_eq_true, firstLineOfScope_le_iff h, Bool.and_eq_true]
  apply or_congr_right
  apply and_congr_right
  intro _
  cases ho : S.outerScope with
  | none => simp
  | some o =>
    cases he : db.entry o with
    | none => simp [he]
    | some E =>
      -- the entry found under a key has that key
      have hkey : E.key = o := by
        rw [entry_of_build h] at he
        exact final_key steps he
      simp only [Option.bind_some, he, Option.any_some, firstLineOfScope_le_iff h, Option.some.injEq,
        Option.isSome_some, true_and, exists_eq_left', hkey]

end DatabaseBuilder

/-! ## Placing a breakpoint -/

namespace SymbolDatabase

variable (db : SymbolDatabase) (fs : Array SourceFile)

/-- Queries that read no file are the same once matching has recorded current paths. -/
theorem locationsForFile_withFiles : ({ db with files := fs } : SymbolDatabase).locationsForFile =
    db.locationsForFile := rfl

theorem scopeForAddress_withFiles : ({ db with files := fs } : SymbolDatabase).scopeForAddress =
    db.scopeForAddress := rfl

theorem isSuitable_withFiles : isSuitable ({ db with files := fs } : SymbolDatabase) =
    isSuitable db := rfl

end SymbolDatabase

namespace DatabaseBuilder

open SymbolDatabase

variable {steps : List BuildStep} {db : SymbolDatabase}

/-- The lines the locator collects are the candidate lines. -/
theorem mem_candidateLines (h : (ofSteps steps).build = .ok db) (files : List SourceFile)
    (line L : UInt32) :
    L ∈ files.flatMap (fun f => (db.locationsForFile f.key).filterMap fun row =>
        if row.line ≥ line ∧ (db.scopeForAddress row.start).any (isSuitable db · line) = true then
          some row.line
        else none) ↔ db.Candidate files line L := by
  have hdb := accepted_of_build h
  simp only [List.mem_flatMap, List.mem_filterMap, hdb.locationsForFile, List.mem_filter,
    decide_eq_true_eq, Option.ite_none_right_eq_some, Option.some.injEq, SymbolDatabase.Candidate]
  constructor
  · rintro ⟨f, hf, row, ⟨hrow, hfile⟩, ⟨hge, hscope⟩, rfl⟩
    obtain ⟨S, hS, hsuit⟩ := (Option.any_eq_true _ _).1 hscope
    exact ⟨hge, row, hrow, ⟨f, hf, hfile⟩, rfl, S, hS, (isSuitable_iff h S line).1 hsuit⟩
  · rintro ⟨hge, row, hrow, ⟨f, hf, hfile⟩, rfl, S, hS, hsuit⟩
    exact ⟨f, hf, row, ⟨hrow, hfile⟩, ⟨hge, (Option.any_eq_true _ _).2 ⟨S, hS, (isSuitable_iff h S line).2 hsuit⟩⟩, rfl⟩

end DatabaseBuilder

/-! ## The placement of a request -/

namespace DatabaseBuilder

open SymbolDatabase

variable {steps : List BuildStep} {db : SymbolDatabase}

/-- With no candidate line the request fails with one error: no code for the path when nothing
matched it, no code for the line otherwise. -/
theorem resolveLine_unbound (h : (ofSteps steps).build = .ok db) (base : Address) (path : String)
    (line : UInt32) (hnone : ∀ L, ¬ db.Candidate ((ofDatabase db base).matchingFiles path).2 line L) :
    (resolveLine (ofDatabase db base) path line).2 = Resolution.error
      (if ((ofDatabase db base).matchingFiles path).2 = [] then
        "No code is compiled for " ++ path ++ " in the loaded module"
      else "The breakpoint at " ++ path ++ ":" ++ toString line ++ " does not map to any code") := by
  obtain ⟨files', hr1⟩ := matchingFiles_db (ofDatabase db base) path
  unfold resolveLine
  rcases hm : (ofDatabase db base).matchingFiles path with ⟨r1, files⟩
  rw [hm] at hr1 hnone
  cases hr1
  simp only [ofDatabase, locationsForFile_withFiles, scopeForAddress_withFiles, isSuitable_withFiles]
  by_cases hempty : files = []
  · simp [hempty]
  · simp only [List.isEmpty_iff, hempty, if_false]
    split
    · simp
    · -- a line was collected, so it is a candidate
      rename_i resolved heq
      exact absurd ((mem_candidateLines h files line resolved).1 (head?_foldr_insertLine.1 heq).1)
        (hnone resolved)

/-- The least candidate line binds the request: its addresses are every row start of the matched
files on that line, moved by the base, strictly increasing, and a diagnostic of low severity says
where the breakpoint moved, unless it stayed. -/
theorem resolveLine_bound (h : (ofSteps steps).build = .ok db) (base : Address) (path : String)
    (line L : UInt32) (hL : db.Candidate ((ofDatabase db base).matchingFiles path).2 line L)
    (hleast : ∀ L', db.Candidate ((ofDatabase db base).matchingFiles path).2 line L' → L ≤ L') :
    let res := (resolveLine (ofDatabase db base) path line).2
    res.resolvedLine = some L ∧ res.addresses ≠ [] ∧ res.addresses.Pairwise (· < ·) ∧
      (∀ A, A ∈ res.addresses ↔ ∃ row ∈ db.rows,
        (∃ f ∈ ((ofDatabase db base).matchingFiles path).2, row.file = f.key) ∧ row.line = L ∧
          A = base + row.start) ∧
      res.diagnostics = if L = line then [] else
        [⟨.low, "Breakpoint moved from line " ++ toString line ++ " to line " ++ toString L,
          some ⟨path, L, 0⟩⟩] := by
  have hdb := accepted_of_build h
  obtain ⟨files', hr1⟩ := matchingFiles_db (ofDatabase db base) path
  -- a second match of the path finds files with the same keys
  have hkeys := matchingFiles_again_keys (ofDatabase db base) hdb.fileSlots path
  unfold resolveLine
  rcases hm : (ofDatabase db base).matchingFiles path with ⟨r1, files⟩
  rw [hm] at hr1 hL hleast hkeys
  cases hr1
  simp only
  have hfiles : files ≠ [] := by
    rintro rfl
    obtain ⟨-, row, -, ⟨f, hf, -⟩, -⟩ := hL
    cases hf
  simp only [ofDatabase, locationsForFile_withFiles, scopeForAddress_withFiles, isSuitable_withFiles,
    List.isEmpty_iff, hfiles, if_false]
  have hcand := (mem_candidateLines h files line L).2 hL
  split
  · -- the candidate `L` was collected, so some line comes first
    rename_i heq
    exact absurd (List.eq_nil_iff_forall_not_mem.1
      (foldr_insertLine_eq_nil.1 (List.head?_eq_none_iff.1 heq)) L hcand) (fun h => h)
  rename_i resolved heq
  -- the first collected line is the least candidate
  obtain ⟨hmem, hmin⟩ := head?_foldr_insertLine.1 heq
  obtain rfl : L = resolved := UInt32.le_antisymm
    (hleast resolved ((mem_candidateLines h files line resolved).1 hmem)) (hmin L hcand)
  -- the addresses of line `L`, read through the second match
  have hmem : ∀ A, A ∈ (({ db := { db with files := files' }, base } : Resolver).addresses path L).2 ↔
      ∃ row ∈ db.rows, (∃ f ∈ files, row.file = f.key) ∧ row.line = L ∧ A = base + row.start := by
    intro A
    obtain ⟨files'', hr2⟩ := matchingFiles_db ({ db := { db with files := files' }, base } : Resolver) path
    rw [mem_addresses, hr2]
    simp only [locationsForFile_withFiles, hdb.locationsForFile, List.mem_filter, decide_eq_true_eq]
    constructor
    · rintro ⟨g, hg, row, ⟨hrow, hfile⟩, hline, rfl⟩
      have hgk : g.key ∈ files.map (·.key) := hkeys ▸ List.mem_map.2 ⟨g, hg, rfl⟩
      obtain ⟨f, hf, hfg⟩ := List.mem_map.1 hgk
      exact ⟨row, hrow, ⟨f, hf, hfile.trans hfg.symm⟩, hline, rfl⟩
    · rintro ⟨row, hrow, ⟨f, hf, hfile⟩, hline, rfl⟩
      have hfk : f.key ∈ (({ db := { db with files := files' }, base } : Resolver).matchingFiles
          path).2.map (·.key) := hkeys.symm ▸ List.mem_map.2 ⟨f, hf, rfl⟩
      obtain ⟨g, hg, hgf⟩ := List.mem_map.1 hfk
      exact ⟨g, hg, row, ⟨hrow, hfile.trans hgf.symm⟩, hline, rfl⟩
  refine ⟨rfl, ?_, ?_, hmem, rfl⟩
  · obtain ⟨-, row, hrow, hf, hline, -⟩ := hL
    exact List.ne_nil_of_mem ((hmem _).2 ⟨row, hrow, hf, hline, rfl⟩)
  · unfold Resolver.addresses
    rcases (({ db := { db with files := files' }, base } : Resolver).matchingFiles path) with ⟨r2, gs⟩
    exact foldr_insertSorted_sorted _

end DatabaseBuilder

/-- An editor line is the next line counted from one, saturating at the top of the 32-bit range. -/
theorem dwarfLine_eq_min (l : UInt32) :
    dwarfLine l = UInt32.ofNat (min (l.toNat + 1) (UInt32.size - 1)) := by
  have hl : l.toNat < UInt32.size := l.toNat_lt
  unfold dwarfLine
  split
  · rename_i htop
    have : l.toNat = UInt32.size - 1 := by rw [htop]; rfl
    rw [Nat.min_eq_right (by omega), ← this, UInt32.ofNat_toNat]
  · rename_i hne
    have hlt : l.toNat + 1 < UInt32.size := by
      have : l.toNat ≠ UInt32.size - 1 := fun e => hne (UInt32.toNat_inj.mp (by rw [e]; rfl))
      omega
    rw [Nat.min_eq_left (by omega)]
    apply UInt32.toNat_inj.mp
    rw [UInt32.toNat_add, UInt32.toNat_ofNat, UInt32.toNat_ofNat']

open SymbolDatabase in
/-- How the resolver over a database loaded at a base places breakpoints on lines. For a path and
a line, `Fs` below is the files the path matches, and the candidate lines are those of
`Candidate`. -/
structure PlacesBreakpoints (db : SymbolDatabase) (base : Address) : Prop where
  /-- The locator's test of a scope, which reads the scope's first line, is `Suitable`. -/
  suitable : ∀ S line, isSuitable db S line = true ↔ db.Suitable S line
  /-- Without a candidate line the request fails with one error, no addresses and no line. -/
  unbound : ∀ path line, (∀ L, ¬ db.Candidate ((ofDatabase db base).matchingFiles path).2 line L) →
    (resolveLine (ofDatabase db base) path line).2.addresses = [] ∧
      (resolveLine (ofDatabase db base) path line).2.resolvedLine = none ∧
      (resolveLine (ofDatabase db base) path line).2.diagnostics =
        [⟨.generalError, if ((ofDatabase db base).matchingFiles path).2 = [] then
            "No code is compiled for " ++ path ++ " in the loaded module"
          else "The breakpoint at " ++ path ++ ":" ++ toString line ++ " does not map to any code",
          none⟩]
  /-- Otherwise the least candidate line `L` binds the request: the addresses are every row start
  of the matched files on `L`, moved by the base, strictly increasing and not empty, and a
  diagnostic of low severity says where the breakpoint moved, unless it stayed. -/
  bound : ∀ path line L, db.Candidate ((ofDatabase db base).matchingFiles path).2 line L →
    (∀ L', db.Candidate ((ofDatabase db base).matchingFiles path).2 line L' → L ≤ L') →
    (resolveLine (ofDatabase db base) path line).2.resolvedLine = some L ∧
      (resolveLine (ofDatabase db base) path line).2.addresses ≠ [] ∧
      (resolveLine (ofDatabase db base) path line).2.addresses.Pairwise (· < ·) ∧
      (∀ A, A ∈ (resolveLine (ofDatabase db base) path line).2.addresses ↔ ∃ row ∈ db.rows,
        (∃ f ∈ ((ofDatabase db base).matchingFiles path).2, row.file = f.key) ∧ row.line = L ∧
          A = base + row.start) ∧
      (resolveLine (ofDatabase db base) path line).2.diagnostics = if L = line then [] else
        [⟨.low, "Breakpoint moved from line " ++ toString line ++ " to line " ++ toString L,
          some ⟨path, L, 0⟩⟩]
  /-- A row of the matched files on the requested line that lies in a scope binds the request
  there, with no diagnostic. -/
  exact : ∀ path line, (∃ row ∈ db.rows, (∃ f ∈ ((ofDatabase db base).matchingFiles path).2,
      row.file = f.key) ∧ row.line = line ∧ (db.scopeForAddress row.start).isSome) →
    (resolveLine (ofDatabase db base) path line).2.resolvedLine = some line ∧
      (resolveLine (ofDatabase db base) path line).2.diagnostics = [] ∧
      (resolveLine (ofDatabase db base) path line).2.addresses ≠ []
  /-- An editor's line, counted from zero, is placed as the next line counted from one. -/
  ide : ∀ path l, resolveIdeLine (ofDatabase db base) path l =
    resolveLine (ofDatabase db base) path (UInt32.ofNat (min (l.toNat + 1) (UInt32.size - 1)))

namespace DatabaseBuilder

open SymbolDatabase

variable {steps : List BuildStep} {db : SymbolDatabase}

/-- A row on the requested line that lies in a scope makes the requested line the least
candidate: the scope has begun by that line through the row itself. -/
theorem candidate_of_row_in_scope (files : List SourceFile) (line : UInt32) {row : SourceLocation}
    (hrow : row ∈ db.rows) (hfile : ∃ f ∈ files, row.file = f.key) (hline : row.line = line)
    (hscope : (db.scopeForAddress row.start).isSome) :
    db.Candidate files line line ∧ ∀ L', db.Candidate files line L' → line ≤ L' := by
  obtain ⟨S, hS⟩ := Option.isSome_iff_exists.1 hscope
  have hbegun : db.BegunBy S.key line := ⟨row, hrow, by rw [hS]; rfl, hline ▸ UInt32.le_refl _⟩
  exact ⟨⟨UInt32.le_refl line, row, hrow, hfile, hline, S, hS, .inl hbegun⟩, fun _ hL' => hL'.1⟩

/-- Over a database built from builder operations, the resolver places breakpoints on lines as
`PlacesBreakpoints` says. -/
theorem placesBreakpoints_of_build (h : (ofSteps steps).build = .ok db) (base : Address) :
    PlacesBreakpoints db base where
  suitable := isSuitable_iff h
  unbound path line hnone := by
    rw [resolveLine_unbound h base path line hnone]
    exact ⟨rfl, rfl, rfl⟩
  bound path line L hL hleast := resolveLine_bound h base path line L hL hleast
  exact path line := by
    rintro ⟨row, hrow, hfile, hline, hscope⟩
    obtain ⟨hcand, hleast⟩ := candidate_of_row_in_scope _ line hrow hfile hline hscope
    obtain ⟨hres, haddr, -, -, hdiag⟩ := resolveLine_bound h base path line line hcand hleast
    exact ⟨hres, by simpa using hdiag, haddr⟩
  ide path l := by rw [resolveIdeLine, dwarfLine_eq_min]

/-- A function `main` from line 2 to 3 with a block from line 4, in `/src/main.c`: its rows at
`0x10` (line 2), `0x18` (line 4) and `0x20` (line 4 again). -/
def blockSteps : List BuildStep :=
  [.entry { key := ⟨1⟩, parent := none, tag := 0x2e },
   .entry { key := ⟨2⟩, parent := some ⟨1⟩, tag := 0x0b, outerScope := some ⟨1⟩ },
   .file ⟨1⟩ "main.c" "/src",
   .transition 0x10 (some ⟨1⟩), .transition 0x18 (some ⟨2⟩), .transition 0x28 none,
   .location ⟨0x10, 8, ⟨1⟩, 2, 0⟩, .location ⟨0x18, 8, ⟨1⟩, 4, 0⟩, .location ⟨0x20, 8, ⟨1⟩, 4, 3⟩]

theorem placesBreakpoints_blockSteps :
    ∃ db, (ofSteps blockSteps).build = .ok db ∧ PlacesBreakpoints db 0x400000 :=
  ⟨_, rfl, @placesBreakpoints_of_build blockSteps _ rfl 0x400000⟩

end DatabaseBuilder

end RemoteDebugger
