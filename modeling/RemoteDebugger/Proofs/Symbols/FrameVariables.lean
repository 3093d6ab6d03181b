import RemoteDebugger.Proofs.Symbols.Indices
import RemoteDebugger.Symbols.Resolver

/-!
# The variables of a frame

`symbols` lists the declared variables of the scopes from the one in force at the program
counter out to the nearest subprogram (`ScopesOut`), innermost first
(`symbols_eq_scopeVariables`).
-/

namespace RemoteDebugger

open Resolver

/-- A variable's declaration: the entry with its name and its location attribute, when it has
both. -/
def Entry.declaration (child : Entry) : Option (Entry × String × AttributeValue) :=
  match child.name, child.attr Dwarf.atLocation with
  | some name, some location => some (child, name, location)
  | _, _ => none

namespace SymbolDatabase

/-- The scopes out from an entry along its outer-scope links, up to and including the first
subprogram. -/
inductive ScopesOut (db : SymbolDatabase) : Entry → List Entry → Prop
  | subprogram {s : Entry} : s.tag = Dwarf.tagSubprogram → ScopesOut db s [s]
  | outward {s next : Entry} {rest : List Entry} : s.tag ≠ Dwarf.tagSubprogram →
      s.outerScope.bind db.entry = some next → ScopesOut db next rest → ScopesOut db s (s :: rest)

/-- The variables a scope declares: its children, in order, that have a name and a location. -/
def declaredVariables (db : SymbolDatabase) (scope : Entry) :
    List (Entry × String × AttributeValue) :=
  (db.childrenOf scope.key).filterMap Entry.declaration

variable {db : SymbolDatabase}

/-- The chain out from an entry is determined by the entry. -/
theorem ScopesOut.unique {s : Entry} {scopes scopes' : List Entry} (h : db.ScopesOut s scopes)
    (h' : db.ScopesOut s scopes') : scopes = scopes' := by
  induction h generalizing scopes' with
  | subprogram htag =>
    cases h' with
    | subprogram _ => rfl
    | outward hne _ _ => exact absurd htag hne
  | outward hne hnext _ ih =>
    cases h' with
    | subprogram htag => exact absurd htag hne
    | outward _ hnext' hrest' =>
      rw [hnext] at hnext'
      cases hnext'
      rw [ih hrest']

/-- A chain past its first scope ends where the chain from the next scope ends. -/
theorem ScopesOut.getLast?_cons {next : Entry} {rest : List Entry} (h : db.ScopesOut next rest)
    (s : Entry) : (s :: rest).getLast? = rest.getLast? := by
  cases h <;> simp

/-- The walk of `nearestScopeWithTag` along a chain with fuel for its scopes finds its last one. -/
theorem go_of_scopesOut {s : Entry} {scopes : List Entry} (h : db.ScopesOut s scopes) :
    ∀ {n : Nat}, scopes.length ≤ n →
      nearestScopeWithTag.go db Dwarf.tagSubprogram n (some s) = scopes.getLast? := by
  induction h with
  | @subprogram s htag =>
    intro n hn
    obtain ⟨n, rfl⟩ : ∃ n', n = n' + 1 := ⟨n - 1, by simp at hn; omega⟩
    simp [nearestScopeWithTag.go, htag]
  | @outward s next rest hne hnext hrest ih =>
    intro n hn
    obtain ⟨n, rfl⟩ : ∃ n', n = n' + 1 := ⟨n - 1, by simp at hn; omega⟩
    simp only [nearestScopeWithTag.go, hne, if_false, hnext]
    rw [ih (by simpa using hn), hrest.getLast?_cons]

/-- A chain that `nearestScopeWithTag`'s walk finds is a `ScopesOut` chain no longer than the
walk's fuel. -/
theorem scopesOut_of_go : ∀ {n : Nat} {s sub : Entry},
    nearestScopeWithTag.go db Dwarf.tagSubprogram n (some s) = some sub →
      ∃ scopes, db.ScopesOut s scopes ∧ scopes.getLast? = some sub ∧ scopes.length ≤ n
  | 0, _, _, h => by simp [nearestScopeWithTag.go] at h
  | n + 1, s, sub, h => by
    by_cases htag : s.tag = Dwarf.tagSubprogram
    · simp only [nearestScopeWithTag.go, htag, if_true, Option.some.injEq] at h
      subst h
      exact ⟨[s], .subprogram htag, rfl, by simp⟩
    · simp only [nearestScopeWithTag.go, htag, if_false] at h
      cases hnext : s.outerScope.bind db.entry with
      | none => cases n <;> simp [hnext, nearestScopeWithTag.go] at h
      | some next =>
        rw [hnext] at h
        obtain ⟨rest, hrest, hlast, hlen⟩ := scopesOut_of_go h
        refine ⟨s :: rest, .outward htag hnext hrest, ?_, by simpa using hlen⟩
        rw [hrest.getLast?_cons, hlast]

/-- A chain ends at a subprogram. -/
theorem ScopesOut.tag_of_getLast? {s l : Entry} {scopes : List Entry} (h : db.ScopesOut s scopes)
    (hl : scopes.getLast? = some l) : l.tag = Dwarf.tagSubprogram := by
  induction h with
  | subprogram htag =>
    cases hl
    exact htag
  | @outward s next rest _ _ hrest ih =>
    rw [hrest.getLast?_cons] at hl
    exact ih hl

/-- Where every entry sits under its own key, so does the outer scope an entry names. -/
theorem entry_key_of_outer (hkeys : ∀ k e, db.entry k = some e → e.key = k) {s next : Entry}
    (hnext : s.outerScope.bind db.entry = some next) : db.entry next.key = some next := by
  obtain ⟨k, -, hk⟩ := Option.bind_eq_some_iff.1 hnext
  rw [hkeys k next hk, hk]

/-- Where every entry sits under its own key, so does every scope of a chain from such an
entry. -/
theorem ScopesOut.entry_key_of_mem (hkeys : ∀ k e, db.entry k = some e → e.key = k)
    {s : Entry} {scopes : List Entry} (h : db.ScopesOut s scopes) (hs : db.entry s.key = some s) :
    ∀ x ∈ scopes, db.entry x.key = some x := by
  induction h with
  | subprogram _ =>
    intro x hx
    rw [List.mem_singleton.1 hx]
    exact hs
  | @outward s next rest _ hnext _ ih =>
    intro x hx
    rcases List.mem_cons.1 hx with rfl | hx
    · exact hs
    · exact ih (entry_key_of_outer hkeys hnext) x hx

end SymbolDatabase

namespace DatabaseBuilder

variable {steps : List BuildStep} {db : SymbolDatabase}

/-- A built database finds each entry under its own key. -/
theorem key_of_entry (h : (ofSteps steps).build = .ok db) {k : EntryKey} {e : Entry}
    (he : db.entry k = some e) : e.key = k := by
  rw [entry_of_build h, Collected.final_eq_some_iff] at he
  exact he.2

/-- The scope in force at an address of a built database sits under its own key. -/
theorem entry_key_of_scopeForAddress (h : (ofSteps steps).build = .ok db) {a : UInt64}
    {scope : Entry} (hscope : db.scopeForAddress a = some scope) :
    db.entry scope.key = some scope := by
  obtain ⟨⟨_, k⟩, -, hk⟩ := Option.bind_eq_some_iff.1 hscope
  obtain ⟨k, -, hentry⟩ := Option.bind_eq_some_iff.1 hk
  rw [key_of_entry h hentry, hentry]

end DatabaseBuilder

/-- A list walk that keeps the results of the elements a selection picks is a walk over the
picked elements. -/
theorem List.filterMapM_eq_mapM_filterMap {n : Type → Type} [Monad n] [LawfulMonad n]
    {α β γ : Type} {f : α → n (Option β)} {s : α → Option γ} {g : γ → n β}
    (hf : ∀ x, f x = match s x with
      | some y => some <$> g y
      | none => pure none) :
    ∀ l : List α, l.filterMapM f = (l.filterMap s).mapM g
  | [] => rfl
  | x :: l => by
    rw [List.filterMapM_cons, hf x]
    cases hs : s x with
    | none => simp [List.filterMap_cons_none hs, List.filterMapM_eq_mapM_filterMap hf l]
    | some y => simp [List.filterMap_cons_some hs, List.filterMapM_eq_mapM_filterMap hf l]

namespace Resolver

variable {m : Type → Type} [Monad m]

/-- A declared variable as a frame shows it: its location evaluated in the frame's context, and
its type. -/
def frameVariable (r : Resolver) (pc : UInt64) (ctx : Expression.Context m) :
    Entry × String × AttributeValue → ExceptT Overflow m Symbol
  | (child, name, loc) => do
    let location ← (r.symbolLocation loc pc ctx : m SymbolLocation)
    let ty ← match child.typeRef with
      | some k => r.symbolType k
      | none => pure SymbolType.unknown
    pure ⟨child.key, name, location, ty⟩

variable [LawfulMonad m]

/-- One scope of the walk: its declared variables, then, short of the subprogram, the rest. -/
theorem scopeSymbols_succ (r : Resolver) (sub : Entry) (pc : UInt64) (ctx : Expression.Context m)
    (n : Nat) (scope : Entry) :
    r.scopeSymbols sub pc ctx (n + 1) (some scope) = (do
      let here ← (r.db.declaredVariables scope).mapM (r.frameVariable pc ctx)
      if scope.key = sub.key then pure here
      else
        let rest ← r.scopeSymbols sub pc ctx n (scope.outerScope.bind r.db.entry)
        pure (here ++ rest)) := by
  rw [scopeSymbols, SymbolDatabase.declaredVariables,
    List.filterMapM_eq_mapM_filterMap (s := Entry.declaration) (g := r.frameVariable pc ctx)]
  intro child
  -- a child without a name or a location is skipped by both walks
  rcases hname : child.name with _ | name <;> rcases hloc : child.attr Dwarf.atLocation with _ | loc
  · simp [Entry.declaration, hname]
  · simp [Entry.declaration, hname]
  · simp [Entry.declaration, hname, hloc]
  · cases htype : child.typeRef <;> simp [Entry.declaration, hname, hloc, htype, frameVariable]

/-- Along a chain of scopes that sit under their own keys, the walk with fuel for the whole chain
lists the chain's declared variables, innermost scope first. -/
theorem scopeSymbols_of_scopesOut (r : Resolver) (hkeys : ∀ k e, r.db.entry k = some e → e.key = k)
    (pc : UInt64) (ctx : Expression.Context m) {s sub : Entry} {scopes : List Entry}
    (h : r.db.ScopesOut s scopes) (hs : r.db.entry s.key = some s)
    (hlast : scopes.getLast? = some sub) {n : Nat} (hn : scopes.length ≤ n) :
    r.scopeSymbols sub pc ctx n (some s) =
      (scopes.flatMap r.db.declaredVariables).mapM (r.frameVariable pc ctx) := by
  have hsub : r.db.entry sub.key = some sub :=
    h.entry_key_of_mem hkeys hs sub (List.mem_of_getLast? hlast)
  have hsubtag := h.tag_of_getLast? hlast
  induction h generalizing n with
  | @subprogram s htag =>
    obtain ⟨n, rfl⟩ : ∃ n', n = n' + 1 := ⟨n - 1, by simp at hn; omega⟩
    cases hlast
    simp [scopeSymbols_succ]
  | @outward s next rest hne hnext hrest ih =>
    obtain ⟨n, rfl⟩ : ∃ n', n = n' + 1 := ⟨n - 1, by simp at hn; omega⟩
    -- short of the subprogram: the two differ in tag, and each sits under its own key
    have hkey : s.key ≠ sub.key := by
      intro heq
      rw [heq, hsub, Option.some.injEq] at hs
      exact hne (hs ▸ hsubtag)
    have hnext_key := SymbolDatabase.entry_key_of_outer hkeys hnext
    have hlast' : rest.getLast? = some sub := by rwa [hrest.getLast?_cons] at hlast
    rw [scopeSymbols_succ]
    simp only [if_neg hkey, hnext, ih hnext_key hlast' (by simpa using hn)]
    simp [List.mapM_append]

end Resolver

namespace DatabaseBuilder

variable {steps : List BuildStep} {db : SymbolDatabase}

/-- Over a built database, the nearest subprogram out from a scope is the end of the scope's
chain. -/
theorem nearestScopeWithTag_eq_getLast? (h : (ofSteps steps).build = .ok db) {scope : Entry}
    (hscope : db.entry scope.key = some scope) {scopes : List Entry}
    (hchain : db.ScopesOut scope scopes) :
    db.nearestScopeWithTag scope.key Dwarf.tagSubprogram = scopes.getLast? := by
  -- past the point where the outward walk stops, more fuel changes nothing
  obtain ⟨n, -, -, hgo⟩ := (build_refuses_first_defect steps).2.2 db h scope.key Dwarf.tagSubprogram
  rw [← hgo (max n scopes.length) (le_max_left _ _), hscope]
  exact SymbolDatabase.go_of_scopesOut hchain (le_max_right _ _)

/-- The chain out from a scope of a built database has no more scopes than the database has
entries, plus one. -/
theorem length_le_of_scopesOut (h : (ofSteps steps).build = .ok db) {scope : Entry}
    (hscope : db.entry scope.key = some scope) {scopes : List Entry}
    (hchain : db.ScopesOut scope scopes) : scopes.length ≤ db.entries.size + 1 := by
  obtain ⟨sub, hlast⟩ : ∃ sub, scopes.getLast? = some sub :=
    Option.isSome_iff_exists.1 (List.getLast?_isSome.2 (by cases hchain <;> simp))
  have hgo : SymbolDatabase.nearestScopeWithTag.go db Dwarf.tagSubprogram (db.entries.size + 1)
      (some scope) = some sub := by
    rw [← hscope, ← hlast, ← nearestScopeWithTag_eq_getLast? h hscope hchain]
    rfl
  obtain ⟨scopes', hchain', -, hlen⟩ := SymbolDatabase.scopesOut_of_go hgo
  rwa [hchain.unique hchain']

end DatabaseBuilder

/-- Where no chain out from a scope reaches a subprogram, the walk out finds none. -/
theorem SymbolDatabase.nearestScopeWithTag_eq_none {db : SymbolDatabase} {scope : Entry}
    (hscope : db.entry scope.key = some scope) (hno : ∀ scopes, ¬ db.ScopesOut scope scopes) :
    db.nearestScopeWithTag scope.key Dwarf.tagSubprogram = none := by
  cases hn : db.nearestScopeWithTag scope.key Dwarf.tagSubprogram with
  | none => rfl
  | some sub =>
    have hgo : nearestScopeWithTag.go db Dwarf.tagSubprogram (db.entries.size + 1) (some scope) =
        some sub := by
      rw [← hscope]
      exact hn
    obtain ⟨scopes, hchain, -⟩ := scopesOut_of_go hgo
    exact absurd hchain (hno scopes)

namespace Resolver

variable {m : Type → Type} [Monad m] [LawfulMonad m] {steps : List BuildStep} {db : SymbolDatabase}

/-- At a scope whose chain reaches a subprogram, a frame lists the declared variables of the
chain's scopes, innermost first, each evaluated in the context of the subprogram's frame base and
the frame's canonical frame address. -/
theorem symbols_of_scopesOut (h : (DatabaseBuilder.ofSteps steps).build = .ok db)
    (base : Address) (read : ReadBytes m) (regs : Registers) {scope sub : Entry}
    {scopes : List Entry} (hle : base ≤ regs.pc)
    (hscope : db.scopeForAddress (regs.pc - base) = some scope)
    (hchain : db.ScopesOut scope scopes) (hlast : scopes.getLast? = some sub) :
    (ofDatabase db base).symbols read regs = (do
      let cfa := match (Unwinder.mk db base read).cfa regs with
        | .ok c => c
        | .error _ => none
      let fb ← ((ofDatabase db base).frameBase read sub (regs.pc - base) regs cfa : m (Option UInt64))
      (scopes.flatMap db.declaredVariables).mapM
        ((ofDatabase db base).frameVariable (regs.pc - base)
          (Unwinder.frameContext read base regs fb cfa))) := by
  have hentry := DatabaseBuilder.entry_key_of_scopeForAddress h hscope
  have hnearest := DatabaseBuilder.nearestScopeWithTag_eq_getLast? h hentry hchain
  have hrel : (ofDatabase db base).relative regs.pc = some (regs.pc - base) := if_pos hle
  unfold symbols
  rw [hrel]
  simp only [ofDatabase, hscope, hnearest, hlast]
  congr 1
  funext fb
  exact scopeSymbols_of_scopesOut _ (fun _ _ => DatabaseBuilder.key_of_entry h) _ _ hchain hentry
    hlast (DatabaseBuilder.length_le_of_scopesOut h hentry hchain)

end Resolver

open Resolver

variable {m : Type → Type} [Monad m] [LawfulMonad m] {steps : List BuildStep} {db : SymbolDatabase}

/-- The variables visible in a frame over a built database. Below the base, outside every scope,
and where no subprogram lies on the scope's outer-scope chain, there are none. Otherwise they are
the declared variables of the chain's scopes up to and including the nearest subprogram,
innermost scope first and each scope's in the order of its children, each located in the context
of the subprogram's frame base and the frame's canonical frame address; a variable whose type
walk faults makes the whole listing fault. -/
theorem symbols_eq_scopeVariables (h : (DatabaseBuilder.ofSteps steps).build = .ok db)
    (base : Address) (read : ReadBytes m) (regs : Registers) :
    (regs.pc < base → (ofDatabase db base).symbols read regs = pure []) ∧
    (base ≤ regs.pc → db.scopeForAddress (regs.pc - base) = none →
      (ofDatabase db base).symbols read regs = pure []) ∧
    (∀ scope, base ≤ regs.pc → db.scopeForAddress (regs.pc - base) = some scope →
      (∀ scopes, ¬ db.ScopesOut scope scopes) → (ofDatabase db base).symbols read regs = pure []) ∧
    (∀ scope scopes sub, base ≤ regs.pc → db.scopeForAddress (regs.pc - base) = some scope →
      db.ScopesOut scope scopes → scopes.getLast? = some sub →
      (ofDatabase db base).symbols read regs = (do
        let cfa := match (Unwinder.mk db base read).cfa regs with
          | .ok c => c
          | .error _ => none
        let fb ← ((ofDatabase db base).frameBase read sub (regs.pc - base) regs cfa :
          m (Option UInt64))
        (scopes.flatMap db.declaredVariables).mapM
          ((ofDatabase db base).frameVariable (regs.pc - base)
            (Unwinder.frameContext read base regs fb cfa)))) := by
  refine ⟨fun hlt => ?_, fun hle hnone => ?_, fun scope hle hscope hno => ?_,
    fun _ _ _ hle hscope hchain hlast => symbols_of_scopesOut h base read regs hle hscope hchain hlast⟩
  · -- below the base the program counter has no module-relative form
    have hrel : (ofDatabase db base).relative regs.pc = none := if_neg (UInt64.not_le.2 hlt)
    unfold symbols
    rw [hrel]
  · have hrel : (ofDatabase db base).relative regs.pc = some (regs.pc - base) := if_pos hle
    unfold symbols
    rw [hrel]
    simp only [ofDatabase, hnone]
  · have hrel : (ofDatabase db base).relative regs.pc = some (regs.pc - base) := if_pos hle
    have hsub := SymbolDatabase.nearestScopeWithTag_eq_none
      (DatabaseBuilder.entry_key_of_scopeForAddress h hscope) hno
    unfold symbols
    rw [hrel]
    simp only [ofDatabase, hscope, hsub]

/-- `main`, a subprogram. -/
def mainEntry : Entry :=
  { key := ⟨0x10⟩, parent := none, tag := Dwarf.tagSubprogram,
    attributes := [(Dwarf.atName, .string "main")] }

/-- `count`, a variable of `main` whose value is one. -/
def countEntry : Entry :=
  { key := ⟨0x20⟩, parent := some ⟨0x10⟩, tag := Dwarf.tagVariable, outerScope := some ⟨0x10⟩,
    attributes := [(Dwarf.atName, .string "count"), (Dwarf.atLocation, .bytes [0x31, 0x9f])] }

/-- A lexical block inside `main`. -/
def blockEntry : Entry :=
  { key := ⟨0x30⟩, parent := some ⟨0x10⟩, tag := Dwarf.tagLexicalBlock, outerScope := some ⟨0x10⟩ }

/-- `inner`, a variable of the block whose value is zero. -/
def innerEntry : Entry :=
  { key := ⟨0x40⟩, parent := some ⟨0x30⟩, tag := Dwarf.tagVariable, outerScope := some ⟨0x30⟩,
    attributes := [(Dwarf.atName, .string "inner"), (Dwarf.atLocation, .bytes [0x30, 0x9f])] }

/-- The block is in force from 0x1000. -/
def blockSteps : List BuildStep :=
  [.entry mainEntry, .entry countEntry, .entry blockEntry, .entry innerEntry,
    .transition 0x1000 (some ⟨0x30⟩)]

/-- The database the builder makes of `blockSteps`. -/
def blockDb : SymbolDatabase :=
  match (DatabaseBuilder.ofSteps blockSteps).build with
  | .ok db => db
  | .error _ => .empty

/-- Registers of a frame stopped at 0x1004, inside the block; every general register holds the
same word. -/
def blockRegs : Registers := { general := Vector.replicate 17 0x1004 }

/-- Memory that reads as zeros. -/
def zeroMemory : ReadBytes Id := fun _ n => pure (List.replicate n 0)

theorem symbols_innerScopeFirst :
    (DatabaseBuilder.ofSteps blockSteps).build = .ok blockDb ∧
      blockDb.scopeForAddress 0x1004 = some blockEntry ∧
      blockDb.ScopesOut blockEntry [blockEntry, mainEntry] ∧
      (ofDatabase blockDb 0).symbols zeroMemory blockRegs =
        pure [⟨⟨0x40⟩, "inner", .value 0, .unknown⟩, ⟨⟨0x20⟩, "count", .value 1, .unknown⟩] := by
  have hbuild : (DatabaseBuilder.ofSteps blockSteps).build = .ok blockDb := rfl
  have hscope : blockDb.scopeForAddress 0x1004 = some blockEntry := by decide +kernel
  have hchain : blockDb.ScopesOut blockEntry [blockEntry, mainEntry] :=
    .outward (by decide) (by decide +kernel) (.subprogram (by decide))
  refine ⟨hbuild, hscope, hchain, ?_⟩
  rw [(symbols_eq_scopeVariables hbuild 0 zeroMemory blockRegs).2.2.2 blockEntry _ mainEntry
    (by decide) hscope hchain rfl]
  rfl

end RemoteDebugger
