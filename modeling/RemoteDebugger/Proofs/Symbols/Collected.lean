import RemoteDebugger.Proofs.Symbols.Building

/-!
# What a sequence of builder operations collects

The entries, files, rows, ranges, transitions and call frames a sequence of builder operations
hands to `build`, said over the operations themselves.
-/

namespace RemoteDebugger

open Std

namespace BuildStep

/-- The entry an operation adds. -/
def entry? : BuildStep → Option Entry
  | .entry e => some e
  | _ => none

/-- The file an operation registers. -/
def file? : BuildStep → Option SourceFile
  | .file k name directory => some (SourceFile.make k name directory)
  | _ => none

/-- The line row an operation adds. -/
def location? : BuildStep → Option SourceLocation
  | .location l => some l
  | _ => none

/-- The range an operation adds. -/
def range? : BuildStep → Option RangeListEntry
  | .range r => some r
  | _ => none

/-- The scope transition an operation records. -/
def transition? : BuildStep → Option (UInt64 × Option EntryKey)
  | .transition a k => some (a, k)
  | _ => none

/-- The call frame an operation starts. -/
def callFrame? : BuildStep → Option UInt64
  | .callFrame a => some a
  | _ => none

/-- The rule an operation adds, with its frame. -/
def rule? : BuildStep → Option (UInt64 × Rule)
  | .rule frame r => some (frame, r)
  | _ => none

end BuildStep

namespace Collected

variable (steps : List BuildStep)

/-- Every entry added, in order. -/
def entries : List Entry := steps.filterMap BuildStep.entry?

/-- The keys of the entries, in the order each was first added. -/
def keys : List EntryKey := ((entries steps).map (·.key)).eraseDups

/-- The entry last added under a key. -/
def final (k : EntryKey) : Option Entry := ((entries steps).filter (·.key = k)).getLast?

/-- The final entry of each key, in the order the keys were first added. -/
def finalEntries : List Entry := (keys steps).filterMap (final steps)

/-- Every registration of a file, in order. -/
def registrations : List SourceFile := steps.filterMap BuildStep.file?

/-- The files, each as first registered, in the order of their first registration. -/
def files : List SourceFile :=
  (registrations steps).zipIdx.filterMap fun (f, i) =>
    if ((registrations steps).take i).any (·.key = f.key) then none else some f

/-- The line row kept at a start: the first non-empty row added there. -/
def row (a : UInt64) : Option SourceLocation :=
  (steps.filterMap BuildStep.location?).find? fun l => l.start = a ∧ l.length ≠ 0

/-- The ranges, in the order added. -/
def ranges : List RangeListEntry := steps.filterMap BuildStep.range?

/-- The scope transition last recorded at an address. -/
def transition (a : UInt64) : Option (Option EntryKey) :=
  (((steps.filterMap BuildStep.transition?).filter (·.1 = a)).getLast?).map (·.2)

/-- The addresses of the call frames started, in the order started. -/
def frames : List UInt64 := steps.filterMap BuildStep.callFrame?

/-- The rules added, with their frames, each marked by whether its frame was started before. -/
def rulesMarked : List ((UInt64 × Rule) × Bool) :=
  steps.zipIdx.filterMap fun (s, i) =>
    s.rule?.map fun fr => (fr, (frames (steps.take i)).contains fr.1)

/-- The rules added to a frame after it was started, in the order added. -/
def frameRules (frame : UInt64) : List Rule :=
  ((rulesMarked steps).filter fun x => x.1.1 = frame ∧ x.2).map (·.1.2)

/-- The rules added to a frame that had not been started yet, in the order added. -/
def orphans : List (UInt64 × Rule) := ((rulesMarked steps).filter (!·.2)).map (·.1)

/-! ## One more operation -/

section Snoc

variable (s : BuildStep)

theorem entries_append : entries (steps ++ [s]) = entries steps ++ s.entry?.toList := by
  simp only [entries, List.filterMap_append, List.filterMap_cons, List.filterMap_nil]
  cases s.entry? <;> rfl

theorem nodup_eraseDups {α : Type} [BEq α] [LawfulBEq α] (l : List α) : l.eraseDups.Nodup := by
  induction h : l.length using Nat.strong_induction_on generalizing l with
  | _ n ih =>
    cases l with
    | nil => simp [List.eraseDups]
    | cons a as =>
      rw [List.eraseDups_cons]
      have hlen : (as.filter fun b => !b == a).length < n := by
        have := List.length_filter_le (fun b => !b == a) as
        simp only [List.length_cons] at h
        omega
      refine List.nodup_cons.2 ⟨?_, ih _ hlen _ rfl⟩
      simp [List.mem_eraseDups]

theorem nodup_keys : (keys steps).Nodup := nodup_eraseDups _

theorem mem_keys {k : EntryKey} : k ∈ keys steps ↔ ∃ e ∈ entries steps, e.key = k := by
  simp [keys, List.mem_eraseDups]

theorem removeAll_singleton {α : Type} [BEq α] [LawfulBEq α] (x : α) (l : List α) :
    [x].removeAll l = if x ∈ l then [] else [x] := by
  by_cases h : x ∈ l <;> simp [List.removeAll, h]

/-- An entry adds its key at the end unless the key is already there. -/
theorem keys_append_entry (e : Entry) :
    keys (steps ++ [.entry e]) = if e.key ∈ keys steps then keys steps else keys steps ++ [e.key] := by
  have hmem : e.key ∈ keys steps ↔ e.key ∈ (entries steps).map (·.key) := by
    simp [keys, List.mem_eraseDups]
  rw [keys, entries_append, List.map_append, List.eraseDups_append]
  simp only [BuildStep.entry?, Option.toList_some, List.map_cons, List.map_nil,
    removeAll_singleton, ← hmem]
  rw [← keys]
  split
  · exact List.append_nil _
  · rfl

theorem final_append_entry (e : Entry) (k : EntryKey) :
    final (steps ++ [.entry e]) k = if e.key = k then some e else final steps k := by
  rw [final, entries_append]
  simp only [BuildStep.entry?, Option.toList_some, List.filter_append, List.filter_cons,
    List.filter_nil, List.getLast?_append]
  by_cases h : e.key = k <;> simp [h, final]

theorem final_key {k : EntryKey} {e : Entry} (h : final steps k = some e) : e.key = k := by
  have hmem := List.mem_of_getLast? h
  simpa using (List.mem_filter.1 hmem).2

theorem final_isSome {k : EntryKey} (hk : k ∈ keys steps) : (final steps k).isSome := by
  obtain ⟨e, he, rfl⟩ := (mem_keys steps).1 hk
  rw [final, List.getLast?_isSome, ← List.length_pos_iff_ne_nil, List.length_pos_iff_exists_mem]
  exact ⟨e, List.mem_filter.2 ⟨he, by simp⟩⟩

/-- Every key has a final entry, with that key. -/
theorem finalEntries_map_key : (finalEntries steps).map (·.key) = keys steps := by
  rw [finalEntries, List.map_filterMap]
  have hsome : ∀ k ∈ keys steps, (final steps k).map (·.key) = some k := by
    intro k hk
    obtain ⟨e, he⟩ := Option.isSome_iff_exists.1 (final_isSome steps hk)
    rw [he, Option.map_some, final_key steps he]
  rw [List.filterMap_congr hsome, List.filterMap_some]

/-- The final entries are exactly the entries last added under their keys. -/
theorem final_eq_some_iff (k : EntryKey) (e : Entry) :
    final steps k = some e ↔ e ∈ finalEntries steps ∧ e.key = k := by
  constructor
  · intro h
    have hk := final_key steps h
    have hmem : k ∈ keys steps := by
      rw [mem_keys]
      exact ⟨e, List.mem_of_mem_filter (List.mem_of_getLast? h), hk⟩
    exact ⟨List.mem_filterMap.2 ⟨k, hmem, h⟩, hk⟩
  · rintro ⟨he, rfl⟩
    obtain ⟨k, -, hk⟩ := List.mem_filterMap.1 he
    rwa [final_key steps hk]

theorem finalEntries_of_entry?_eq_none (h : s.entry? = none) :
    finalEntries (steps ++ [s]) = finalEntries steps := by
  have he : entries (steps ++ [s]) = entries steps := by simp [entries_append, h]
  have hf : final (steps ++ [s]) = final steps := by
    funext k
    simp only [final, he]
  simp only [finalEntries, keys, he, hf]

/-- A new entry under a known key replaces the final entry of that key in place. -/
theorem finalEntries_append_known {e : Entry} (h : e.key ∈ keys steps) :
    finalEntries (steps ++ [.entry e]) =
      (finalEntries steps).map fun x => if x.key = e.key then e else x := by
  rw [finalEntries, keys_append_entry, if_pos h, finalEntries, List.map_filterMap]
  apply List.filterMap_congr
  intro k hk
  rw [final_append_entry]
  obtain ⟨x, hx⟩ := Option.isSome_iff_exists.1 (final_isSome steps hk)
  have hxk := final_key steps hx
  by_cases hek : e.key = k
  · simp [hek, hx, hxk]
  · simp [hek, hx, hxk, Ne.symm hek]

/-- A new entry under a new key comes last. -/
theorem finalEntries_append_new {e : Entry} (h : e.key ∉ keys steps) :
    finalEntries (steps ++ [.entry e]) = finalEntries steps ++ [e] := by
  rw [finalEntries, keys_append_entry, if_neg h, List.filterMap_append, finalEntries]
  congr 1
  · apply List.filterMap_congr
    intro k hk
    rw [final_append_entry, if_neg (fun he => h (by rw [he]; exact hk))]
  · simp [final_append_entry]

theorem registrations_append :
    registrations (steps ++ [s]) = registrations steps ++ s.file?.toList := by
  simp only [registrations, List.filterMap_append, List.filterMap_cons, List.filterMap_nil]
  cases s.file? <;> rfl

/-- A registration adds its file at the end unless a file with its key is registered. -/
theorem files_append : files (steps ++ [s]) = files steps ++
    (s.file?.filter fun f => !(registrations steps).any (·.key = f.key)).toList := by
  unfold files
  rw [registrations_append, List.zipIdx_append, List.filterMap_append]
  congr 1
  · apply List.filterMap_congr
    rintro ⟨f, i⟩ hx
    have hi : i < (registrations steps).length := by
      have := (List.mem_zipIdx hx).2.1
      omega
    simp only [List.take_append_of_le_length (Nat.le_of_lt hi)]
  · cases s.file? with
    | none => rfl
    | some f =>
      simp only [Option.toList_some, Nat.zero_add, List.zipIdx_cons, List.zipIdx_nil,
        List.filterMap_cons, List.filterMap_nil, List.take_left']
      by_cases hf : (registrations steps).any (·.key = f.key) = true <;> simp [hf, Option.filter]

/-- A key has a file among the first registrations exactly when it was registered. -/
theorem exists_files_key (k : FileKey) :
    (∃ f ∈ files steps, f.key = k) ↔ ∃ f ∈ registrations steps, f.key = k := by
  induction steps using List.reverseRecOn with
  | nil => simp [files, registrations]
  | append_singleton steps s ih =>
    rw [files_append, registrations_append]
    cases hs : s.file? with
    | none => simpa using ih
    | some f =>
      by_cases hf : (registrations steps).any (·.key = f.key) = true
      · -- a second registration adds nothing, and its key is registered already
        have hnone : ((some f).filter fun f => !(registrations steps).any (·.key = f.key)).toList =
            [] := by simp [Option.filter, hf]
        rw [hnone, List.append_nil, ih]
        constructor
        · exact fun ⟨g, hg, hgk⟩ => ⟨g, List.mem_append_left _ hg, hgk⟩
        · rintro ⟨g, hg, rfl⟩
          rcases List.mem_append.1 hg with hg | hg
          · exact ⟨g, hg, rfl⟩
          · obtain rfl := List.mem_singleton.1 hg
            simpa using hf
      · have hsome : ((some f).filter fun f => !(registrations steps).any (·.key = f.key)).toList =
            [f] := by simp [Option.filter, hf]
        rw [hsome]
        simp only [Option.toList_some, List.mem_append, List.mem_singleton]
        constructor
        · rintro ⟨g, hg | rfl, rfl⟩
          · exact (ih.1 ⟨g, hg, rfl⟩).imp fun g hg => ⟨.inl hg.1, hg.2⟩
          · exact ⟨g, .inr rfl, rfl⟩
        · rintro ⟨g, hg | rfl, rfl⟩
          · exact (ih.2 ⟨g, hg, rfl⟩).imp fun g hg => ⟨.inl hg.1, hg.2⟩
          · exact ⟨g, .inr rfl, rfl⟩

theorem ranges_append : ranges (steps ++ [s]) = ranges steps ++ s.range?.toList := by
  simp only [ranges, List.filterMap_append, List.filterMap_cons, List.filterMap_nil]
  cases s.range? <;> rfl

theorem frames_append : frames (steps ++ [s]) = frames steps ++ s.callFrame?.toList := by
  simp only [frames, List.filterMap_append, List.filterMap_cons, List.filterMap_nil]
  cases s.callFrame? <;> rfl

theorem row_append (a : UInt64) :
    row (steps ++ [s]) a = (row steps a).or
      (s.location?.filter fun l => l.start = a ∧ l.length ≠ 0) := by
  simp only [row, List.filterMap_append, List.filterMap_cons, List.filterMap_nil, List.find?_append]
  cases s.location? with
  | none => rfl
  | some l => by_cases hl : l.start = a ∧ l.length ≠ 0 <;> simp [hl, Option.filter]

theorem transition_append (a : UInt64) :
    transition (steps ++ [s]) a =
      ((s.transition?.filter (·.1 = a)).map (·.2)).or (transition steps a) := by
  simp only [transition, List.filterMap_append, List.filterMap_cons, List.filterMap_nil,
    List.filter_append, List.getLast?_append]
  cases s.transition? with
  | none => rfl
  | some x => by_cases hx : x.1 = a <;> simp [hx, Option.filter]

/-- A rule is marked by whether its frame was started before it. -/
theorem rulesMarked_append : rulesMarked (steps ++ [s]) =
    rulesMarked steps ++ (s.rule?.map fun fr => (fr, (frames steps).contains fr.1)).toList := by
  rw [rulesMarked, List.zipIdx_append, List.filterMap_append, rulesMarked]
  congr 1
  · apply List.filterMap_congr
    rintro ⟨t, i⟩ hx
    have hi : i < steps.length := by
      have := (List.mem_zipIdx hx).2.1
      omega
    simp only [List.take_append_of_le_length (Nat.le_of_lt hi)]
  · simp only [Nat.zero_add, List.zipIdx_cons, List.zipIdx_nil, List.filterMap_cons,
      List.filterMap_nil, List.take_left']
    cases s.rule? <;> rfl

theorem orphans_append : orphans (steps ++ [s]) =
    orphans steps ++ (s.rule?.filter fun fr => !(frames steps).contains fr.1).toList := by
  rw [orphans, rulesMarked_append, List.filter_append, List.map_append, orphans]
  cases s.rule? with
  | none => rfl
  | some fr => by_cases hf : fr.1 ∈ frames steps <;> simp [hf, Option.filter]

theorem frameRules_append (frame : UInt64) : frameRules (steps ++ [s]) frame =
    frameRules steps frame ++ ((s.rule?.filter fun fr =>
      fr.1 = frame ∧ (frames steps).contains fr.1).map (·.2)).toList := by
  rw [frameRules, rulesMarked_append, List.filter_append, List.map_append, frameRules]
  cases s.rule? with
  | none => rfl
  | some fr =>
    obtain ⟨f, r⟩ := fr
    by_cases hf : f = frame
    · subst hf
      by_cases hm : f ∈ frames steps <;> simp [hm, Option.filter]
    · simp [hf, Option.filter]

/-- A rule marked as added to a started frame was added once its frame was started. -/
theorem mem_frames_of_rulesMarked {fr : UInt64 × Rule} (h : (fr, true) ∈ rulesMarked steps) :
    fr.1 ∈ frames steps := by
  simp only [rulesMarked, List.mem_filterMap] at h
  obtain ⟨⟨t, i⟩, -, ht⟩ := h
  obtain ⟨fr', -, hfr⟩ := Option.map_eq_some_iff.1 ht
  simp only [Prod.mk.injEq] at hfr
  obtain ⟨rfl, hm⟩ := hfr
  have hmem := List.contains_iff_mem.1 hm
  simp only [frames, List.mem_filterMap] at hmem ⊢
  obtain ⟨u, hu, hfu⟩ := hmem
  exact ⟨u, List.mem_of_mem_take hu, hfu⟩

/-- A frame has rules only once started. -/
theorem mem_frames_of_frameRules {frame : UInt64} (h : frameRules steps frame ≠ []) :
    frame ∈ frames steps := by
  obtain ⟨r, hr⟩ := List.exists_mem_of_ne_nil _ h
  simp only [frameRules, List.mem_map, List.mem_filter, decide_eq_true_eq] at hr
  obtain ⟨⟨fr, m⟩, ⟨hmem, rfl, rfl⟩, -⟩ := hr
  exact mem_frames_of_rulesMarked steps hmem

end Snoc

end Collected

namespace DatabaseBuilder

open Collected

theorem ofSteps_append (steps : List BuildStep) (s : BuildStep) :
    ofSteps (steps ++ [s]) = (ofSteps steps).perform s := by
  simp [ofSteps, List.foldl_append]

/-- Replacing, in a list with distinct keys, the element at a position by one with its key
replaces every element with that key. -/
theorem set_eq_map_of_key {α κ : Type} [DecidableEq κ] (key : α → κ) {L : List α}
    (hL : (L.map key).Nodup) {i : Nat} {x y : α} (hx : L[i]? = some x) (hxy : key x = key y) :
    L.set i y = L.map fun z => if key z = key y then y else z := by
  apply List.ext_getElem?
  intro j
  rw [List.getElem?_set, List.getElem?_map]
  obtain ⟨hi, hLi⟩ := List.getElem?_eq_some_iff.1 hx
  by_cases hij : i = j
  · rw [if_pos hij, if_pos hi, ← hij, hx]
    simp [hxy]
  · rw [if_neg hij]
    cases hz : L[j]? with
    | none => rfl
    | some z =>
      -- distinct keys: the element at another position has another key
      have hzk : key z ≠ key y := by
        intro hzk
        obtain ⟨hj, hLj⟩ := List.getElem?_eq_some_iff.1 hz
        have hxz : x = z := List.inj_on_of_nodup_map hL (List.mem_of_getElem? hx)
          (List.mem_of_getElem? hz) (hxy.trans hzk.symm)
        have hLij : L[i] = L[j] := by rw [hLi, hLj, hxz]
        exact hij ((List.Nodup.of_map key hL).getElem_inj_iff.1 hLij)
      simp [hzk]

/-- Only adding an entry changes the entries. -/
theorem perform_entries (b : DatabaseBuilder) {s : BuildStep} (h : s.entry? = none) :
    (b.perform s).entries = b.entries := by
  cases s with
  | entry e => cases h
  | file k name directory =>
    show (b.addFile k name directory).entries = b.entries
    unfold addFile; split <;> rfl
  | location l =>
    show (b.addLocation l).1.entries = b.entries
    unfold addLocation; split <;> rfl
  | callFrame a =>
    show (b.addCallFrame a).entries = b.entries
    unfold addCallFrame; split <;> rfl
  | rule frame r =>
    show (b.addRule frame r).entries = b.entries
    unfold addRule; split <;> rfl
  | _ => rfl

/-- The builder's entries are the final entry of each key, in first-insertion order. -/
theorem entries_ofSteps (steps : List BuildStep) :
    (ofSteps steps).entries.toList = finalEntries steps := by
  induction steps using List.reverseRecOn with
  | nil => rfl
  | append_singleton steps s ih =>
    have hslots := (sound_ofSteps steps).entrySlots
    rw [ofSteps_append]
    cases s with
    | entry e =>
      simp only [perform, addEntry]
      cases hk : (ofSteps steps).slots[e.key]? with
      | some i =>
        have hi := (hslots e.key i).1 hk
        obtain ⟨x, hx, hxk⟩ := Option.map_eq_some_iff.1 hi
        rw [← Array.getElem?_toList, ih] at hx
        have hmem : e.key ∈ keys steps := by
          rw [← finalEntries_map_key, ← hxk]
          exact List.mem_map_of_mem (List.mem_of_getElem? hx)
        rw [finalEntries_append_known steps hmem, Array.toList_set!, ih]
        exact set_eq_map_of_key Entry.key (by rw [finalEntries_map_key]; exact nodup_keys steps)
          hx hxk
      | none =>
        have hnew : e.key ∉ keys steps := by
          rw [← finalEntries_map_key, ← ih]
          intro hmem
          obtain ⟨x, hx, hxk⟩ := List.mem_map.1 hmem
          obtain ⟨i, hi⟩ := List.getElem?_of_mem hx
          have := (hslots e.key i).2 (by rw [← Array.getElem?_toList, hi, Option.map_some, hxk])
          rw [hk] at this
          cases this
        rw [finalEntries_append_new steps hnew, Array.toList_push, ih]
    | _ =>
      rw [finalEntries_of_entry?_eq_none _ _ rfl, ← ih, perform_entries _ rfl]

theorem perform_transitions (b : DatabaseBuilder) (s : BuildStep) :
    (b.perform s).transitions = match s.transition? with
      | some (a, k) => b.transitions.insert a k
      | none => b.transitions := by
  cases s <;> (simp only [perform, addEntry, addFile, addLocation, addRange, addLocListEntry,
    addTransition, addCallFrame, addRule, BuildStep.transition?]; try split) <;> rfl

theorem perform_locations (b : DatabaseBuilder) (s : BuildStep) :
    (b.perform s).locations = match s.location? with
      | some l => if l.length = 0 ∨ b.locations.contains l.start then b.locations
          else b.locations.insert l.start l
      | none => b.locations := by
  cases s <;> (simp only [perform, addEntry, addFile, addLocation, addRange, addLocListEntry,
    addTransition, addCallFrame, addRule, BuildStep.location?]; try split) <;> rfl

theorem perform_ranges (b : DatabaseBuilder) (s : BuildStep) :
    (b.perform s).ranges = match s.range? with
      | some r => b.ranges.push r
      | none => b.ranges := by
  cases s <;> (simp only [perform, addEntry, addFile, addLocation, addRange, addLocListEntry,
    addTransition, addCallFrame, addRule, BuildStep.range?]; try split) <;> rfl

theorem perform_files (b : DatabaseBuilder) (s : BuildStep) :
    (b.perform s).files = match s.file? with
      | some f => if b.fileSlots.contains f.key then b.files else b.files.push f
      | none => b.files := by
  cases s <;> (simp only [perform, addEntry, addFile, addLocation, addRange, addLocListEntry,
    addTransition, addCallFrame, addRule, BuildStep.file?, SourceFile.make]; try split) <;>
    simp_all

/-- Only starting a frame or adding a rule changes the call frames. -/
theorem perform_callFrames (b : DatabaseBuilder) {s : BuildStep} (hf : s.callFrame? = none)
    (hr : s.rule? = none) : (b.perform s).callFrames = b.callFrames := by
  cases s <;> (simp only [perform, addEntry, addFile, addLocation, addRange, addLocListEntry,
    addTransition, addCallFrame, addRule]; try split) <;> simp_all [BuildStep.callFrame?, BuildStep.rule?]

/-- Only adding a rule sets a rule aside. -/
theorem perform_orphans (b : DatabaseBuilder) {s : BuildStep} (hr : s.rule? = none) :
    (b.perform s).orphans = b.orphans := by
  cases s <;> (simp only [perform, addEntry, addFile, addLocation, addRange, addLocListEntry,
    addTransition, addCallFrame, addRule]; try split) <;> simp_all [BuildStep.rule?]

theorem SlotsIndex.contains_iff {κ α : Type} [Ord κ] [TransOrd κ] {slots : TreeMap κ Nat compare} {xs : Array α}
    {key : α → κ} (h : SlotsIndex slots xs key) (k : κ) :
    slots.contains k ↔ ∃ x ∈ xs, key x = k := by
  rw [TreeMap.contains_eq_isSome_getElem?, Option.isSome_iff_exists]
  constructor
  · rintro ⟨i, hi⟩
    obtain ⟨x, hx, hxk⟩ := Option.map_eq_some_iff.1 ((h k i).1 hi)
    exact ⟨x, Array.mem_of_getElem? hx, hxk⟩
  · rintro ⟨x, hx, rfl⟩
    obtain ⟨i, hi⟩ := Array.getElem?_of_mem hx
    exact ⟨i, (h (key x) i).2 (by rw [hi]; rfl)⟩

/-- The transition recorded at an address is the last one recorded there. -/
theorem transitions_ofSteps (steps : List BuildStep) (a : UInt64) :
    (ofSteps steps).transitions[a]? = Collected.transition steps a := by
  induction steps using List.reverseRecOn with
  | nil => simp [ofSteps, Collected.transition]
  | append_singleton steps s ih =>
    rw [ofSteps_append, perform_transitions, transition_append]
    cases s.transition? with
    | none => simpa using ih
    | some x =>
      obtain ⟨b, k⟩ := x
      by_cases hb : b = a
      · subst hb
        simp [Option.filter]
      · simp [Option.filter, hb, TreeMap.getElem?_insert, ih]

/-- The row kept at a start is the first non-empty row added there. -/
theorem locations_ofSteps (steps : List BuildStep) (a : UInt64) :
    (ofSteps steps).locations[a]? = Collected.row steps a := by
  induction steps using List.reverseRecOn with
  | nil => simp [ofSteps, Collected.row]
  | append_singleton steps s ih =>
    rw [ofSteps_append, perform_locations, row_append, ← ih]
    cases s.location? with
    | none => simp
    | some l =>
      dsimp only
      by_cases hl : l.length = 0 ∨ (ofSteps steps).locations.contains l.start
      · -- the row is dropped: it is empty, or a row sits at its start already
        rw [if_pos hl]
        by_cases ha : l.start = a
        · subst ha
          rcases hl with hz | hc
          · simp [Option.filter, hz]
          · have hsome : ((ofSteps steps).locations[l.start]?).isSome := by
              rw [← TreeMap.contains_eq_isSome_getElem?]
              exact hc
            obtain ⟨v, hv⟩ := Option.isSome_iff_exists.1 hsome
            simp [hv]
        · simp [Option.filter, ha]
      · rw [if_neg hl]
        simp only [not_or, Bool.not_eq_true] at hl
        by_cases ha : l.start = a
        · subst ha
          have hnone : (ofSteps steps).locations[l.start]? = none := by
            rw [← Option.not_isSome_iff_eq_none, ← TreeMap.contains_eq_isSome_getElem?, hl.2]
            decide
          simp [hnone, Option.filter, hl.1]
        · simp [TreeMap.getElem?_insert, ha, Option.filter]

theorem ranges_ofSteps (steps : List BuildStep) :
    (ofSteps steps).ranges.toList = Collected.ranges steps := by
  induction steps using List.reverseRecOn with
  | nil => rfl
  | append_singleton steps s ih =>
    rw [ofSteps_append, perform_ranges, ranges_append]
    cases s.range? <;> simp [ih]

/-- The files are each key's first registration, in the order of first registration. -/
theorem files_ofSteps (steps : List BuildStep) :
    (ofSteps steps).files.toList = Collected.files steps := by
  induction steps using List.reverseRecOn with
  | nil => rfl
  | append_singleton steps s ih =>
    rw [ofSteps_append, perform_files, files_append]
    cases s.file? with
    | none => simpa using ih
    | some f =>
      have hcontains : (ofSteps steps).fileSlots.contains f.key ↔
          (Collected.registrations steps).any (·.key = f.key) := by
        rw [SlotsIndex.contains_iff (sound_ofSteps steps).fileSlots, List.any_eq_true]
        simp only [decide_eq_true_eq, ← exists_files_key, ← ih, Array.mem_toList_iff]
      by_cases h : (ofSteps steps).fileSlots.contains f.key
      · simp [h, ih, Option.filter, hcontains.1 h]
      · have h' : (Collected.registrations steps).any (·.key = f.key) = false := by
          simpa [hcontains] using h
        simp [h, ih, Option.filter, h']

/-- The frames started, each with the rules added to it once started, in the order added. -/
theorem callFrames_ofSteps (steps : List BuildStep) (a : UInt64) :
    (ofSteps steps).callFrames[a]? =
      if a ∈ Collected.frames steps then some (Collected.frameRules steps a).toArray else none := by
  induction steps using List.reverseRecOn generalizing a with
  | nil => simp [ofSteps, Collected.frames]
  | append_singleton steps s ih =>
    rw [ofSteps_append, frames_append, frameRules_append]
    cases s with
    | callFrame b =>
      simp only [perform, addCallFrame, BuildStep.callFrame?, BuildStep.rule?, Option.toList_some,
        Option.filter_none, Option.map_none, Option.toList_none, List.append_nil, List.mem_append,
        List.mem_singleton]
      by_cases hc : (ofSteps steps).callFrames.contains b
      · have hb : b ∈ Collected.frames steps := by
          rw [TreeMap.contains_eq_isSome_getElem?, ih] at hc
          by_contra hb
          simp [hb] at hc
        rw [if_pos hc, ih]
        by_cases hab : a = b
        · subst hab; simp [hb]
        · simp [hab]
      · have hb : b ∉ Collected.frames steps := by
          rw [TreeMap.contains_eq_isSome_getElem?, ih] at hc
          intro hb
          simp [hb] at hc
        rw [if_neg hc, TreeMap.getElem?_insert]
        by_cases hab : b = a
        · subst hab
          have hnil : Collected.frameRules steps b = [] := by
            by_contra hne
            exact hb (mem_frames_of_frameRules steps hne)
          simp [hnil]
        · simp [hab, Ne.symm hab, ih]
    | rule f r =>
      simp only [perform, addRule, BuildStep.callFrame?, BuildStep.rule?, Option.toList_none,
        List.append_nil, ih f]
      by_cases hf : f ∈ Collected.frames steps
      · simp only [if_pos hf, TreeMap.getElem?_insert, ih a]
        by_cases hfa : f = a
        · subst hfa; simp [hf, Option.filter]
        · simp [hfa, Option.filter]
      · simp only [if_neg hf, ih a]
        split <;> simp [Option.filter, hf]
    | _ =>
      rw [perform_callFrames _ (by rfl) (by rfl), ih]
      simp [BuildStep.callFrame?, BuildStep.rule?]

/-- The rules set aside are those added before their frame was started, in the order added. -/
theorem orphans_ofSteps (steps : List BuildStep) :
    (ofSteps steps).orphans.toList = Collected.orphans steps := by
  induction steps using List.reverseRecOn with
  | nil => rfl
  | append_singleton steps s ih =>
    rw [ofSteps_append, orphans_append]
    cases s with
    | rule f r =>
      simp only [perform, addRule, BuildStep.rule?, callFrames_ofSteps]
      by_cases hf : f ∈ Collected.frames steps
      · simp [hf, ih, Option.filter]
      · simp [hf, ih, Option.filter]
    | _ =>
      rw [perform_orphans _ (by rfl), ih]
      simp [BuildStep.rule?]

/-- A key has a slot exactly when an entry was added under it. -/
theorem slots_contains_ofSteps (steps : List BuildStep) (k : EntryKey) :
    (ofSteps steps).slots.contains k ↔ k ∈ keys steps := by
  rw [SlotsIndex.contains_iff (sound_ofSteps steps).entrySlots, ← finalEntries_map_key,
    ← entries_ofSteps]
  simp

/-- The slot map finds under a key the entry last added under it. -/
theorem find_ofSteps (steps : List BuildStep) (k : EntryKey) :
    ((ofSteps steps).slots[k]?.bind fun i => (ofSteps steps).entries[i]?) = final steps k := by
  apply Option.ext
  intro e
  rw [SlotsIndex.find_eq_some_iff (sound_ofSteps steps).entrySlots, final_eq_some_iff,
    ← entries_ofSteps, Array.mem_toList_iff]

end DatabaseBuilder

end RemoteDebugger
