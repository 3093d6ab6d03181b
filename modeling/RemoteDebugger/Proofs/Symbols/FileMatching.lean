import RemoteDebugger.Proofs.Symbols.Building
import RemoteDebugger.Symbols.Resolver

/-!
# Matching request paths to files

Matching a request path picks, among the files with its base name, the first that shares the
most trailing names with it, with every file declared with the same path, and records the
request as their current path.
-/

namespace RemoteDebugger

/-! ## Shared suffixes -/

section Suffix

variable {α : Type} [BEq α]

theorem takeWhile_zip_length_le (u v : List α) :
    ((u.zip v).takeWhile fun x => x.1 == x.2).length ≤ v.length :=
  le_trans (List.takeWhile_prefix _).length_le (by simp [List.length_zip])

theorem takeWhile_zip_self [LawfulBEq α] (v : List α) :
    ((v.zip v).takeWhile fun x => x.1 == x.2).length = v.length := by
  induction v with
  | nil => rfl
  | cons y ys ih => simp [ih]

/-- Two lists agree on a run as long as the second one only when the second is a prefix. -/
theorem prefix_of_takeWhile_zip [LawfulBEq α] (u v : List α)
    (h : ((u.zip v).takeWhile fun x => x.1 == x.2).length = v.length) : v <+: u := by
  induction v generalizing u with
  | nil => exact List.nil_prefix
  | cons y ys ih =>
    cases u with
    | nil => simp at h
    | cons x xs =>
      rw [List.zip_cons_cons, List.takeWhile_cons] at h
      by_cases hxy : x = y
      · subst hxy
        simp only [beq_self_eq_true, if_true, List.length_cons, Nat.add_right_cancel_iff] at h
        exact (List.prefix_cons_inj x).mpr (ih xs h)
      · simp [hxy] at h

end Suffix

theorem Path.same_self (p : String) : Path.same p p = true := by
  simp [Path.same]

theorem Path.same_comm (a b : String) : Path.same a b = Path.same b a := by
  unfold Path.same
  by_cases h : Path.components a = Path.components b
  · rw [h]
  · have h' : Path.components b ≠ Path.components a := Ne.symm h
    simp [h, h']

namespace Resolver

theorem sharedSuffix_le (declared requested : String) :
    sharedSuffix declared requested ≤ (Path.names requested).length := by
  unfold sharedSuffix
  simpa using takeWhile_zip_length_le (Path.names declared).reverse (Path.names requested).reverse

theorem sharedSuffix_self (p : String) : sharedSuffix p p = (Path.names p).length := by
  unfold sharedSuffix
  simpa using takeWhile_zip_self (Path.names p).reverse

/-- A declared path scores every name of the request only when it ends with all of them. -/
theorem suffix_of_sharedSuffix {declared requested : String}
    (h : sharedSuffix declared requested = (Path.names requested).length) :
    Path.names requested <:+ Path.names declared := by
  unfold sharedSuffix at h
  rw [← List.reverse_prefix]
  exact prefix_of_takeWhile_zip _ _ (by simpa using h)

/-! ## The best candidate -/

theorem best_cons_ne_none (score : SourceFile → Nat) (f : SourceFile) (fs : List SourceFile) :
    best score (f :: fs) ≠ none := by
  unfold best
  split
  · split <;> simp
  · simp

/-- The candidate `best` picks is the first with the greatest score: every candidate before it
scores lower, and none after it scores higher. -/
theorem best_first {score : SourceFile → Nat} :
    ∀ {l : List SourceFile} {c : SourceFile} {s : Nat}, best score l = some (c, s) →
      s = score c ∧ ∃ pre post, l = pre ++ c :: post ∧ (∀ g ∈ pre, score g < s) ∧
        ∀ g ∈ post, score g ≤ s
  | [], _, _, h => by simp [best] at h
  | f :: fs, c, s, h => by
    unfold best at h
    cases hb : best score fs with
    | none =>
      rw [hb] at h
      cases h
      have hfs : fs = [] := by
        cases fs with
        | nil => rfl
        | cons g gs => exact absurd hb (best_cons_ne_none score g gs)
      subst hfs
      exact ⟨rfl, [], [], rfl, by simp, by simp⟩
    | some p =>
      obtain ⟨g, t⟩ := p
      obtain ⟨ht, pre, post, hfs, hlt, hle⟩ := best_first hb
      rw [hb] at h
      simp only at h
      split at h
      · rename_i hgt
        cases h
        refine ⟨ht, f :: pre, post, by rw [hfs]; rfl, fun x hx => ?_, hle⟩
        rcases List.mem_cons.mp hx with rfl | hx
        · omega
        · exact hlt x hx
      · rename_i hge
        cases h
        refine ⟨rfl, [], fs, rfl, by simp, fun x hx => ?_⟩
        -- every later candidate scores at most `t`, which is at most the head's score
        rw [hfs] at hx
        rcases List.mem_append.mp hx with hx | hx
        · have := hlt x hx
          omega
        · rcases List.mem_cons.mp hx with rfl | hx
          · omega
          · have := hle x hx
            omega

/-- Against any candidate `f`, the pick of `best` is `f` itself, one before it that scores at
least as high, or one after it that scores higher. -/
theorem best_cases {score : SourceFile → Nat} {l pre post : List SourceFile} {f c : SourceFile}
    {s : Nat} (hsplit : l = pre ++ f :: post) (hbest : best score l = some (c, s)) :
    c = f ∨ (c ∈ pre ∧ score f ≤ score c) ∨ (c ∈ post ∧ score f < score c) := by
  obtain ⟨hs, pre', post', hsplit', hlt, hle⟩ := best_first hbest
  subst hs
  rcases List.append_eq_append_iff.mp (hsplit.symm.trans hsplit') with ⟨a, hpre', hrest⟩ | ⟨a, hpre, hrest⟩
  · -- `f` comes first: it lies before the pick, which then scores higher
    cases a with
    | nil =>
      left
      exact (List.cons.inj hrest).1.symm
    | cons x a =>
      obtain ⟨rfl, rfl⟩ := List.cons.inj hrest
      exact .inr (.inr ⟨by simp, hlt _ (by simp [hpre'])⟩)
  · -- the pick comes first: it lies before `f`, which scores no higher
    cases a with
    | nil =>
      left
      exact (List.cons.inj (by simpa using hrest)).1
    | cons x a =>
      obtain ⟨rfl, rfl⟩ := List.cons.inj hrest
      exact .inr (.inl ⟨by simp [hpre], hle _ (by simp)⟩)

theorem best_isSome {score : SourceFile → Nat} {l : List SourceFile} {f : SourceFile} (hf : f ∈ l) :
    ∃ c s, best score l = some (c, s) := by
  cases l with
  | nil => simp at hf
  | cons g gs =>
    obtain ⟨⟨c, s⟩, h⟩ := Option.ne_none_iff_exists'.mp (best_cons_ne_none score g gs)
    exact ⟨c, s, h⟩

end Resolver

/-! ## Recording current paths -/

namespace SymbolDatabase

variable {db : SymbolDatabase}

theorem setCurrentPath_eq (db : SymbolDatabase) (k : FileKey) (p : String) :
    ∃ files, db.setCurrentPath k p = { db with files } := by
  unfold setCurrentPath
  split
  · exact ⟨db.files, rfl⟩
  · exact ⟨_, rfl⟩

/-- Recording current paths only replaces the files. -/
theorem foldl_setCurrentPath_eq (db : SymbolDatabase) (fs : List SourceFile) (p : String) :
    ∃ files, fs.foldl (fun db f => db.setCurrentPath f.key p) db = { db with files } := by
  induction fs generalizing db with
  | nil => exact ⟨db.files, rfl⟩
  | cons f fs ih =>
    obtain ⟨files, hfiles⟩ := setCurrentPath_eq db f.key p
    obtain ⟨files', h'⟩ := ih (db.setCurrentPath f.key p)
    rw [List.foldl_cons, h', hfiles]
    exact ⟨files', rfl⟩

/-- A file's lookup after recording a current path for a key: the file with that key takes the
path unless its current path already has the same components. -/
theorem file_setCurrentPath (h : SlotsIndex db.fileSlots db.files SourceFile.key)
    (k₀ : FileKey) (p : String) (k : FileKey) :
    (db.setCurrentPath k₀ p).file k = (db.file k).map fun f =>
      if k = k₀ ∧ Path.same f.current p = false then { f with current := p } else f := by
  unfold setCurrentPath file
  cases h₀ : db.fileSlots[k₀]? with
  | none =>
    simp only
    cases hk : db.fileSlots[k]? with
    | none => rfl
    | some j =>
      have hne : k ≠ k₀ := by rintro rfl; rw [h₀] at hk; cases hk
      simp [hne]
  | some i =>
    simp only
    cases hk : db.fileSlots[k]? with
    | none => rfl
    | some j =>
      simp only [Option.bind_some, Array.getElem?_modify]
      by_cases hkk : k = k₀
      · subst hkk
        rw [h₀] at hk
        cases hk
        rw [if_pos rfl]
        cases db.files[i]? with
        | none => rfl
        | some f => by_cases hs : Path.same f.current p <;> simp [hs]
      · have hij : i ≠ j := by
          rintro rfl
          have e₀ := (h k₀ i).mp h₀
          have e := (h k i).mp hk
          rw [e₀] at e
          exact hkk (Option.some.inj e).symm
        simp [hij, hkk]

theorem slotsIndex_setCurrentPath (h : SlotsIndex db.fileSlots db.files SourceFile.key)
    (k₀ : FileKey) (p : String) :
    SlotsIndex (db.setCurrentPath k₀ p).fileSlots (db.setCurrentPath k₀ p).files SourceFile.key := by
  unfold setCurrentPath
  split
  · exact h
  · intro k j
    simp only [Array.getElem?_modify]
    split
    · rw [Option.map_map]
      convert h k j using 2
      cases db.files[j]? with
      | none => rfl
      | some f => simp only [Option.map_some, Function.comp_apply]; split <;> rfl
    · exact h k j

/-- A file's lookup after recording one path for several keys. -/
theorem file_foldl_setCurrentPath (h : SlotsIndex db.fileSlots db.files SourceFile.key)
    (fs : List SourceFile) (p : String) (k : FileKey) :
    (fs.foldl (fun db f => db.setCurrentPath f.key p) db).file k = (db.file k).map fun f =>
      if k ∈ fs.map (·.key) ∧ Path.same f.current p = false then { f with current := p } else f := by
  induction fs generalizing db with
  | nil => simp
  | cons f₀ fs ih =>
    rw [List.foldl_cons, ih (slotsIndex_setCurrentPath h f₀.key p), file_setCurrentPath h,
      Option.map_map]
    congr 1
    funext f
    by_cases hk : k = f₀.key <;> by_cases hs : Path.same f.current p <;> simp [hk, hs, Path.same_self]

theorem slotsIndex_foldl_setCurrentPath (h : SlotsIndex db.fileSlots db.files SourceFile.key)
    (fs : List SourceFile) (p : String) :
    SlotsIndex (fs.foldl (fun db f => db.setCurrentPath f.key p) db).fileSlots
      (fs.foldl (fun db f => db.setCurrentPath f.key p) db).files SourceFile.key := by
  induction fs generalizing db with
  | nil => exact h
  | cons f₀ fs ih => exact ih (slotsIndex_setCurrentPath h f₀.key p)

end SymbolDatabase

/-! ## Matching and addresses -/

namespace Resolver

/-- Matching replaces the database by one where the files it returns, and only those, record the
request path, and returns files found in that database under the keys of the picked files. -/
theorem matchingFiles_eq (r : Resolver) (path : String) :
    ∃ fs : List SourceFile,
      (r.matchingFiles path).1 = { r with db := fs.foldl (fun db f => db.setCurrentPath f.key path) r.db } ∧
      (r.matchingFiles path).2 =
        fs.filterMap fun f => (fs.foldl (fun db f => db.setCurrentPath f.key path) r.db).file f.key := by
  unfold matchingFiles
  split
  · exact ⟨[], rfl, rfl⟩
  · dsimp only
    split
    · exact ⟨[], rfl, rfl⟩
    · exact ⟨_, rfl, rfl⟩

/-- Matching only replaces the files of the database. -/
theorem matchingFiles_db (r : Resolver) (path : String) :
    ∃ files, (r.matchingFiles path).1 = { r with db := { r.db with files } } := by
  obtain ⟨fs, hres, -⟩ := matchingFiles_eq r path
  obtain ⟨files, hfold⟩ := SymbolDatabase.foldl_setCurrentPath_eq r.db fs path
  exact ⟨files, by rw [hres, hfold]⟩

/-- Every file matching returns is found under its key in the database it leaves, with the
request as its current path. -/
theorem matchingFiles_file (r : Resolver) (h : SlotsIndex r.db.fileSlots r.db.files SourceFile.key)
    {path : String} {g : SourceFile} (hg : g ∈ (r.matchingFiles path).2) :
    (r.matchingFiles path).1.db.file g.key = some g ∧ Path.same g.current path = true := by
  obtain ⟨fs, hres, hfiles⟩ := matchingFiles_eq r path
  rw [hfiles] at hg
  rw [hres]
  obtain ⟨f, hf, hgf⟩ := List.mem_filterMap.mp hg
  have hlook := SymbolDatabase.file_foldl_setCurrentPath h fs path f.key
  rw [hgf] at hlook
  obtain ⟨f₀, hf₀, hg₀⟩ := Option.map_eq_some_iff.mp hlook.symm
  have hkey : f₀.key = f.key := ((SymbolDatabase.file_eq_some_iff h _ _).mp hf₀).2
  have hin : f.key ∈ fs.map (·.key) := List.mem_map_of_mem hf
  by_cases hs : Path.same f₀.current path
  · simp only [hin, hs, true_and, Bool.true_eq_false, if_false] at hg₀
    subst hg₀
    exact ⟨hkey ▸ hgf, hs⟩
  · simp only [hin, hs, true_and, if_true] at hg₀
    subst hg₀
    exact ⟨hkey ▸ hgf, Path.same_self path⟩

/-- A file is among the matches of a path named by its base name when every candidate before it
that scores at least as high, and every one after it that scores higher, is declared with the same
path. -/
theorem mem_matchingFiles (r : Resolver) (h : SlotsIndex r.db.fileSlots r.db.files SourceFile.key)
    {path name : String} (hname : Path.fileName path = some name) {f : SourceFile}
    {pre post : List SourceFile} (hsplit : r.db.filesNamed name = pre ++ f :: post)
    (hfile : r.db.file f.key = some f)
    (hbefore : ∀ g ∈ pre, sharedSuffix f.declared path ≤ sharedSuffix g.declared path →
      Path.same g.declared f.declared = true)
    (hafter : ∀ g ∈ post, sharedSuffix f.declared path < sharedSuffix g.declared path →
      Path.same g.declared f.declared = true) :
    ∃ g ∈ (r.matchingFiles path).2, g.key = f.key := by
  have hf : f ∈ r.db.filesNamed name := by simp [hsplit]
  obtain ⟨c, s, hbest⟩ := @best_isSome (fun g => sharedSuffix g.declared path) _ _ hf
  have hsame : Path.same f.declared c.declared = true := by
    rw [Path.same_comm]
    rcases best_cases hsplit hbest with rfl | ⟨hc, hle⟩ | ⟨hc, hlt⟩
    · exact Path.same_self _
    · exact hbefore c hc hle
    · exact hafter c hc hlt
  let fs := (r.db.filesNamed name).filter fun g => Path.same g.declared c.declared
  have hres : (r.matchingFiles path).2 =
      fs.filterMap fun g => (fs.foldl (fun db f => db.setCurrentPath f.key path) r.db).file g.key := by
    unfold matchingFiles
    rw [hname]
    dsimp only
    rw [hbest]
  have hmem : f ∈ fs := List.mem_filter.mpr ⟨hf, hsame⟩
  have hlook := SymbolDatabase.file_foldl_setCurrentPath h fs path f.key
  rw [hfile] at hlook
  refine ⟨_, hres ▸ List.mem_filterMap.mpr ⟨f, hmem, hlook⟩, ?_⟩
  simp only
  split <;> rfl

theorem mem_insertSorted {x : Address} (a : Address) (l : List Address) :
    x ∈ insertSorted a l ↔ x = a ∨ x ∈ l := by
  induction l with
  | nil => simp [insertSorted]
  | cons b bs ih =>
    unfold insertSorted
    split
    · simp
    · split
      · rename_i hab; subst hab; simp
      · simp only [List.mem_cons, ih]
        exact or_left_comm

theorem mem_foldr_insertSorted {x : Address} (l : List Address) :
    x ∈ l.foldr insertSorted [] ↔ x ∈ l := by
  induction l with
  | nil => simp
  | cons a l ih => simp only [List.foldr_cons, mem_insertSorted, ih, List.mem_cons]

/-- The addresses of a file line are the starts, moved by the base, of the rows on that line of
the matched files, read in the database matching left behind. -/
theorem mem_addresses (r : Resolver) (path : String) (line : UInt32) (A : Address) :
    A ∈ (r.addresses path line).2 ↔ ∃ g ∈ (r.matchingFiles path).2,
      ∃ row ∈ (r.matchingFiles path).1.db.locationsForFile g.key,
        row.line = line ∧ A = (r.matchingFiles path).1.base + row.start := by
  unfold addresses
  simp only [mem_foldr_insertSorted, List.mem_flatMap, List.mem_map, List.mem_filter,
    decide_eq_true_eq, absolute]
  constructor
  · rintro ⟨g, hg, row, ⟨hrow, hline⟩, rfl⟩
    exact ⟨g, hg, row, hrow, hline, rfl⟩
  · rintro ⟨g, hg, row, hrow, hline, rfl⟩
    exact ⟨g, hg, row, ⟨hrow, hline⟩, rfl⟩

theorem addresses_fst (r : Resolver) (path : String) (line : UInt32) :
    (r.addresses path line).1 = (r.matchingFiles path).1 := rfl

end Resolver

end RemoteDebugger
