import RemoteDebugger.Proofs.Symbols.Ingest

/-!
# What loading a module builds

Up to what no scope lookup reads, `loadModule` builds the visits of all its units applied in
order to the empty builder, and the visits are `Visit.Ordered` (`load_visits`).
-/

namespace RemoteDebugger

open Std DatabaseBuilder

/-- Visits in order of increasing keys, each naming as outer scope an entry of smaller key and
owning the ranges it added. -/
structure Visit.Ordered (vs : List Visit) : Prop where
  increasing : vs.Pairwise fun v w => v.rank < w.rank
  outer : ∀ v ∈ vs, ∀ k ∈ v.entry.outerScope, k.raw.toNat < v.rank
  owners : ∀ v ∈ vs, ∀ r ∈ v.ranges, r.owner = v.entry.key

theorem Visit.Ordered.nil : Visit.Ordered [] := ⟨List.Pairwise.nil, nofun, nofun⟩

theorem Visit.Ordered.append {vs ws : List Visit} (h₁ : Visit.Ordered vs) (h₂ : Visit.Ordered ws)
    (hlt : ∀ v ∈ vs, ∀ w ∈ ws, v.rank < w.rank) : Visit.Ordered (vs ++ ws) where
  increasing := List.pairwise_append.2 ⟨h₁.increasing, h₂.increasing, hlt⟩
  outer v hv := (List.mem_append.1 hv).elim (h₁.outer v) (h₂.outer v)
  owners v hv := (List.mem_append.1 hv).elim (h₁.owners v) (h₂.owners v)

theorem Walked.ordered {unit lo hi : Nat} {vs : List Visit} (h : Walked unit lo hi vs) : Visit.Ordered vs :=
  ⟨h.increasing, h.outer, h.owners⟩

/-- The visits of a unit have the ranks of that unit. -/
theorem Walked.rank_mem {unit lo hi : Nat} {vs : List Visit} (h : Walked unit lo hi vs) :
    ∀ v ∈ vs, unit * UInt32.size ≤ v.rank ∧ v.rank < (unit + 1) * UInt32.size := by
  intro v hv
  obtain ⟨off, hoff⟩ := h.keys v hv
  obtain ⟨hrank, hlt, -⟩ := Loader.entryKey_rank hoff
  unfold Visit.rank
  rw [hrank, Nat.succ_mul]
  omega

/-- A result read back as a value is that value. -/
theorem eq_ok_of_toOption {ε α : Type} {r : Except ε α} {a : α} (h : r.toOption = some a) :
    r = .ok a := by
  cases r <;> simp_all [Except.toOption]

namespace Loader

/-! ## Runs of loading -/

/-- Loading succeeds with a value. -/
def Loads {α : Type} (m : Load α) (a : α) : Prop := m.run = .ok (.ok a)

section Loads

variable {α β : Type}

theorem loads_bind {m : Load α} {f : α → Load β} {b : β} :
    Loads (m >>= f) b ↔ ∃ a, Loads m a ∧ Loads (f a) b := by
  unfold Loads
  simp only [ExceptT.run_bind]
  cases hm : m.run with
  | error e => simp [bind, Except.bind]
  | ok r =>
    cases r with
    | error o => simp [bind, Except.bind, pure, Except.pure]
    | ok a => simp [bind, Except.bind]

theorem loads_pure {a b : α} : Loads (pure a) b ↔ a = b := by
  show Except.ok (Except.ok a) = Except.ok (Except.ok b) ↔ _
  simp

theorem loads_lift {r : Except DebugError α} {a : α} : Loads (monadLift r) a ↔ r = .ok a := by
  cases r <;> simp [Loads, ExceptT.run, monadLift, MonadLift.monadLift, ExceptT.lift, ExceptT.mk]

theorem not_loads_throw {e : DebugError} {a : α} : ¬ Loads (throwThe DebugError e) a := nofun

theorem loads_run {m : LoadM α} {b : DatabaseBuilder} {p : α × DatabaseBuilder} :
    Loads (m.run b) p ↔ Runs m b p.1 p.2 := Iff.rfl

/-- A loop whose every step keeps an invariant of the elements it has gone through keeps it. -/
theorem loads_forIn_of_step {γ : Type} (l : List γ) (I : List γ → β → Prop)
    {f : γ → β → Load (ForInStep β)}
    (hstep : ∀ pre x post s r, pre ++ x :: post = l → I pre s → Loads (f x s) r →
      I (pre ++ [x]) r.value)
    {s s' : β} (hs : I [] s) (h : Loads (forIn l s f) s') : ∃ pre, I pre s' := by
  have hgo : ∀ (rest pre : List γ) (s : β), pre ++ rest = l → I pre s → Loads (forIn rest s f) s' →
      ∃ pre, I pre s' := by
    intro rest
    induction rest with
    | nil =>
      intro pre s _ hI h
      rw [List.forIn_nil, loads_pure] at h
      exact ⟨pre, h ▸ hI⟩
    | cons x rest ih =>
      intro pre s hl hI h
      rw [List.forIn_cons, loads_bind] at h
      obtain ⟨r, hr, h⟩ := h
      have hI' := hstep pre x rest s r hl hI hr
      cases r with
      | done b =>
        rw [loads_pure] at h
        exact ⟨_, h ▸ hI'⟩
      | yield b => exact ih (pre ++ [x]) b (by rw [List.append_assoc]; exact hl) hI' h
  exact hgo l [] s rfl hs h

end Loads

/-! ## The steps of loading -/

/-- An element met after `pre` in a loop over positions sits at position `pre.length`. -/
theorem zipIdx_split {α : Type} {l : List α} {pre post : List (α × Nat)} {x : α × Nat}
    (h : pre ++ x :: post = l.zipIdx) : x.2 = pre.length ∧ x.1 ∈ l := by
  have hx : l.zipIdx[pre.length]? = some x := by
    rw [← h]
    simp
  rw [List.getElem?_zipIdx, Option.map_eq_some_iff] at hx
  obtain ⟨a, ha, rfl⟩ := hx
  exact ⟨by simp, List.mem_of_getElem? ha⟩

/-- Every unit opened from the headers found has its entries at or after its start. -/
theorem units_offset_le (s : Dwarf.Sections) {headers : Array Dwarf.UnitHeader}
    (hheaders : ∀ h ∈ headers, h.offset ≤ h.entries)
    {f : Dwarf.UnitHeader → Array Dwarf.CompUnit → Load (ForInStep (Array Dwarf.CompUnit))}
    (hf : ∀ h units r, Loads (f h units) r → ∃ u, Dwarf.CompUnit.load s h = .ok u ∧ r = .yield (units.push u))
    {units : Array Dwarf.CompUnit} (h : Loads (forIn headers #[] f) units) :
    ∀ u ∈ units, u.header.offset ≤ u.header.entries := by
  rw [← Array.forIn_toList] at h
  obtain ⟨_, hunits⟩ := loads_forIn_of_step headers.toList
    (fun _ (units : Array Dwarf.CompUnit) => ∀ u ∈ units, u.header.offset ≤ u.header.entries)
    (fun pre x post units r hsplit hunits hr => by
      obtain ⟨u, hu, rfl⟩ := hf x units r hr
      intro w hw
      rcases Array.mem_push.1 hw with hw | rfl
      · exact hunits w hw
      · rw [Dwarf.CompUnit.header_of_load hu]
        exact hheaders x (Array.mem_toList_iff.1 (hsplit ▸ List.mem_append_right pre List.mem_cons_self)))
    (fun u hu => absurd hu (Array.not_mem_empty u)) h
  exact hunits

/-- A pure loop whose every step keeps an invariant keeps it. -/
theorem id_forIn_invariant {γ β : Type} (I : β → Prop) {f : γ → β → Id (ForInStep β)}
    (hf : ∀ x s, I s → I (f x s).value) : ∀ (l : List γ) (s : β), I s → I (forIn l s f) := by
  intro l
  induction l with
  | nil => exact fun s hs => hs
  | cons x l ih =>
    intro s hs
    rw [List.forIn_cons]
    have hx := hf x s hs
    cases hfx : f x s with
    | done b =>
      rw [hfx] at hx
      exact hx
    | yield b =>
      rw [hfx] at hx
      exact ih b hx

theorem id_forIn_array_invariant {γ β : Type} (I : β → Prop) {f : γ → β → Id (ForInStep β)}
    (hf : ∀ x s, I s → I (f x s).value) (l : Array γ) (s : β) (hs : I s) : I (forIn l s f) := by
  rw [← Array.forIn_toList]
  exact id_forIn_invariant I hf l.toList s hs

theorem sameScopes_addCallFrame (b : DatabaseBuilder) (a : UInt64) : SameScopes (b.addCallFrame a) b := by
  unfold DatabaseBuilder.addCallFrame
  split
  · exact SameScopes.refl b
  · exact ⟨rfl, rfl, rfl, rfl⟩

theorem sameScopes_addRule (b : DatabaseBuilder) (frame : UInt64) (r : Rule) :
    SameScopes (b.addRule frame r) b := by
  unfold DatabaseBuilder.addRule
  split
  · exact ⟨rfl, rfl, rfl, rfl⟩
  · exact ⟨rfl, rfl, rfl, rfl⟩

/-- Call frames add frames and rules only. -/
theorem sameScopes_addFrame (b : DatabaseBuilder) (start : Nat) (rows : Array Dwarf.UnwindRow) :
    SameScopes (addFrame b start rows) b := by
  unfold addFrame
  dsimp only
  refine id_forIn_array_invariant (fun st : DatabaseBuilder × List Nat => SameScopes st.1 b) ?_ rows _
    (sameScopes_addCallFrame b _)
  intro row st hst
  -- a row adds its rules, then a rule for each register it no longer has one for
  have hrules : ∀ {γ : Type} (x : γ) (b' : DatabaseBuilder) (frame : UInt64) (r : Rule),
      SameScopes b' b → SameScopes (b'.addRule frame r) b := fun _ b' frame r hb' =>
    (sameScopes_addRule b' frame r).trans hb'
  refine id_forIn_invariant (fun b' : DatabaseBuilder => SameScopes b' b) ?_ _ _ ?_
  · exact fun x b' hb' => hrules x b' _ _ hb'
  refine id_forIn_array_invariant (fun b' : DatabaseBuilder => SameScopes b' b) ?_ _ _
    (hrules row _ _ _ hst)
  exact fun x b' hb' => hrules x b' _ _ hb'

theorem sameScopes_foldl_addFrame (frames : List (Nat × Array Dwarf.UnwindRow)) (b : DatabaseBuilder) :
    SameScopes (frames.foldl (fun b x => addFrame b x.1 x.2) b) b := by
  induction frames generalizing b with
  | nil => exact SameScopes.refl b
  | cons x frames ih => exact (ih _).trans (sameScopes_addFrame b x.1 x.2)

/-- What the units walked so far leave: their visits applied in order, ordered, and below the
ranks of the next unit. -/
def UnitsWalked (n : Nat) (b : DatabaseBuilder) : Prop :=
  ∃ vs : List Visit, SameScopes b (vs.foldl Visit.apply {}) ∧ Visit.Ordered vs ∧
    ∀ v ∈ vs, v.rank < n * UInt32.size

/-- Walking one more unit, and adding its line table. -/
theorem unitsWalked_step {cx : UnitContext} (hheader : cx.unit.header.offset ≤ cx.unit.header.entries)
    {b b' : DatabaseBuilder} {u : Unit} (hb : UnitsWalked cx.index b)
    (h : Runs (do cx.entries; cx.lineTable) b u b') : UnitsWalked (cx.index + 1) b' := by
  obtain ⟨vs, hvs, hordered, hbelow⟩ := hb
  rw [runs_bind] at h
  obtain ⟨_, b₁, hentries, hlines⟩ := h
  obtain ⟨lo, hi, ws, hws, hwalked⟩ := cx.entries_walks hheader hentries
  have hsame := cx.keepsScopes_lineTable _ _ _ hlines
  have hranks := hwalked.rank_mem
  refine ⟨vs ++ ws, ?_, hordered.append hwalked.ordered ?_, ?_⟩
  · rw [List.foldl_append]
    exact hsame.trans (hws.trans (Visit.sameScopes_foldl_apply hvs ws))
  · intro v hv w hw
    exact Nat.lt_of_lt_of_le (hbelow v hv) (hranks w hw).1
  · intro v hv
    rcases List.mem_append.1 hv with hv | hv
    · exact Nat.lt_of_lt_of_le (hbelow v hv) (Nat.mul_le_mul_right _ (Nat.le_succ _))
    · exact (hranks v hv).2

/-- Loading a module builds, up to what no scope lookup reads, the visits of its units in order. -/
theorem load_visits {bytes : ByteArray} {db : SymbolDatabase} (h : loadModule bytes = .ok (.ok db)) :
    ∃ (vs : List Visit) (b : DatabaseBuilder), SameScopes b (vs.foldl Visit.apply {}) ∧
      b.build = .ok db ∧ Visit.Ordered vs := by
  change Loads (load bytes) db at h
  unfold load at h
  rw [loads_bind] at h
  obtain ⟨file, -, h⟩ := h
  rw [loads_bind] at h
  obtain ⟨s, -, h⟩ := h
  dsimp only at h
  rw [loads_bind] at h
  obtain ⟨units, hunits, h⟩ := h
  -- every unit opened has its entries at or after its start
  have hoffsets : ∀ u ∈ units, u.header.offset ≤ u.header.entries := by
    refine units_offset_le s (Dwarf.unitHeaders_offset_le s.info s.big) ?_ hunits
    intro hd us r hr
    rw [loads_bind] at hr
    obtain ⟨u, hu, hr⟩ := hr
    exact ⟨u, during_eq_ok.1 (loads_lift.1 hu), (loads_pure.1 hr).symm⟩
  split at h
  · rw [loads_bind] at h
    obtain ⟨_, hthrow, -⟩ := h
    exact absurd hthrow not_loads_throw
  rw [loads_bind] at h
  obtain ⟨b, hwalk, h⟩ := h
  -- the units are walked in order, each at its own index
  obtain ⟨_, vs, hvs, hordered, -⟩ := loads_forIn_of_step units.toList.zipIdx
    (fun pre b => UnitsWalked pre.length b)
    (fun pre x post b r hsplit hb hr => by
      obtain ⟨hindex, hmem⟩ := zipIdx_split hsplit
      rw [loads_bind] at hr
      obtain ⟨p, hp, hr⟩ := hr
      obtain rfl := loads_pure.1 hr
      show UnitsWalked (pre ++ [x]).length p.2
      rw [List.length_append, List.length_singleton, ← hindex]
      refine @unitsWalked_step ⟨s, units, x.2, x.1⟩ (hoffsets x.1 (Array.mem_toList_iff.1 hmem))
        b p.2 p.1 ?_ (loads_run.1 hp)
      rw [hindex]
      exact hb)
    ⟨[], SameScopes.refl _, Visit.Ordered.nil, nofun⟩ hwalk
  -- call frames, then the build
  rw [loads_bind] at h
  obtain ⟨src, -, h⟩ := h
  have hbuild : ∃ b', SameScopes b' b ∧ b'.build = .ok db := by
    split at h
    · split at h
      · refine ⟨_, ?_, loads_lift.1 h⟩
        rw [← Array.foldl_toList]
        exact sameScopes_foldl_addFrame _ b
      · rw [loads_bind] at h
        obtain ⟨_, hthrow, -⟩ := h
        exact absurd hthrow not_loads_throw
    · exact ⟨b, SameScopes.refl b, loads_lift.1 h⟩
  obtain ⟨b', hb', hbuild⟩ := hbuild
  exact ⟨vs, b', hb'.trans hvs, hbuild, hordered⟩

end Loader

end RemoteDebugger
