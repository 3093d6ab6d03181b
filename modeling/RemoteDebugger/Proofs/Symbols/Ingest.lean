import RemoteDebugger.Symbols.Loader
import RemoteDebugger.Proofs.Dwarf.Reading
import RemoteDebugger.Proofs.Symbols.ScopeSpans

/-!
# Ingesting a unit's entries

Walking a unit's tree of entries leaves a builder holding, besides location lists, one `Visit`
per entry applied in order, with increasing keys and outer scopes visited first.
-/

namespace RemoteDebugger

open Std

/-! ## Builders that agree on scopes -/

namespace DatabaseBuilder

/-- Record a span's transitions in the builder. -/
def recordSpan (b : DatabaseBuilder) (s : ScopeSpan) : DatabaseBuilder :=
  { b with transitions := s.record b.transitions }

/-- Record spans in order. -/
def recordSpans (b : DatabaseBuilder) (S : List ScopeSpan) : DatabaseBuilder := S.foldl recordSpan b

/-- Builders that agree on everything a scope lookup reads: entries, range lists and transitions. -/
structure SameScopes (b b' : DatabaseBuilder) : Prop where
  entries : b.entries = b'.entries
  slots : b.slots = b'.slots
  ranges : b.ranges = b'.ranges
  transitions : b.transitions = b'.transitions

namespace SameScopes

variable {b b' b'' : DatabaseBuilder}

theorem refl (b : DatabaseBuilder) : SameScopes b b := ⟨rfl, rfl, rfl, rfl⟩

theorem symm (h : SameScopes b b') : SameScopes b' b :=
  ⟨h.entries.symm, h.slots.symm, h.ranges.symm, h.transitions.symm⟩

theorem trans (h : SameScopes b b') (h' : SameScopes b' b'') : SameScopes b b'' :=
  ⟨h.entries.trans h'.entries, h.slots.trans h'.slots, h.ranges.trans h'.ranges,
    h.transitions.trans h'.transitions⟩

theorem addRange (h : SameScopes b b') (r : RangeListEntry) :
    SameScopes (b.addRange r) (b'.addRange r) :=
  ⟨h.entries, h.slots, by simp only [DatabaseBuilder.addRange, h.ranges], h.transitions⟩

theorem recordSpan (h : SameScopes b b') (s : ScopeSpan) :
    SameScopes (b.recordSpan s) (b'.recordSpan s) :=
  ⟨h.entries, h.slots, h.ranges, by simp only [DatabaseBuilder.recordSpan, h.transitions]⟩

theorem addEntry (h : SameScopes b b') (e : Entry) : SameScopes (b.addEntry e) (b'.addEntry e) := by
  unfold DatabaseBuilder.addEntry
  rw [h.slots]
  cases b'.slots[e.key]? with
  | some i => exact ⟨by simp only [h.entries], rfl, h.ranges, h.transitions⟩
  | none => exact ⟨by simp only [h.entries], by simp only [h.entries], h.ranges, h.transitions⟩

end SameScopes

theorem sameScopes_addLocListEntry (b : DatabaseBuilder) (o : UInt64) (e : LocListEntry) :
    SameScopes (b.addLocListEntry o e) b := ⟨rfl, rfl, rfl, rfl⟩

theorem sameScopes_addFile (b : DatabaseBuilder) (k : FileKey) (name directory : String) :
    SameScopes (b.addFile k name directory) b := by
  unfold DatabaseBuilder.addFile
  split
  · exact SameScopes.refl b
  · exact ⟨rfl, rfl, rfl, rfl⟩

theorem sameScopes_addLocation (b : DatabaseBuilder) (l : SourceLocation) :
    SameScopes (b.addLocation l).1 b := by
  unfold DatabaseBuilder.addLocation
  split
  · exact SameScopes.refl b
  · exact ⟨rfl, rfl, rfl, rfl⟩

end DatabaseBuilder

open DatabaseBuilder

@[simp] theorem Entry.key_setAttribute (e : Entry) (name : Nat) (v : AttributeValue) :
    (e.setAttribute name v).key = e.key := by
  unfold Entry.setAttribute
  split <;> rfl

@[simp] theorem Entry.outerScope_setAttribute (e : Entry) (name : Nat) (v : AttributeValue) :
    (e.setAttribute name v).outerScope = e.outerScope := by
  unfold Entry.setAttribute
  split <;> rfl

/-! ## The spans of an entry -/

/-- The span a range of an entry's list records: the entry owns the range's addresses, and its
outer scope resumes where the range ends. -/
def RangeListEntry.span (r : RangeListEntry) (outer : Option EntryKey) : ScopeSpan :=
  ⟨r.owner, outer, r.base + r.low, r.base + r.high⟩

/-- The span of a scope's own `[low_pc, high_pc)`, when it is not empty. -/
def Entry.ownSpan (e : Entry) : Option ScopeSpan :=
  if e.isScope then
    match e.lowPc, e.highPc with
    | some low, some high => if low < high then some ⟨e.key, e.outerScope, low, high⟩ else none
    | _, _ => none
  else none

namespace DatabaseBuilder

/-- Add a range of an entry's list with the span it records. -/
def addRangeSpan (outer : Option EntryKey) (b : DatabaseBuilder) (r : RangeListEntry) :
    DatabaseBuilder :=
  (b.addRange r).recordSpan (r.span outer)

/-! What adding entries, ranges and spans leaves of the parts that scope lookups read. -/

section Parts

variable (o : Option EntryKey) (b : DatabaseBuilder)

@[simp] theorem addEntry_transitions (e : Entry) : (b.addEntry e).transitions = b.transitions := by
  unfold DatabaseBuilder.addEntry
  split <;> rfl

@[simp] theorem addEntry_ranges (e : Entry) : (b.addEntry e).ranges = b.ranges := by
  unfold DatabaseBuilder.addEntry
  split <;> rfl

@[simp] theorem recordSpans_transitions (S : List ScopeSpan) :
    (b.recordSpans S).transitions = S.foldl ScopeSpan.record b.transitions := by
  induction S generalizing b with
  | nil => rfl
  | cons s S ih => exact ih (b.recordSpan s)

@[simp] theorem recordSpans_ranges (S : List ScopeSpan) : (b.recordSpans S).ranges = b.ranges := by
  induction S generalizing b with
  | nil => rfl
  | cons s S ih => exact ih (b.recordSpan s)

@[simp] theorem recordSpans_entries (S : List ScopeSpan) : (b.recordSpans S).entries = b.entries := by
  induction S generalizing b with
  | nil => rfl
  | cons s S ih => exact ih (b.recordSpan s)

@[simp] theorem recordSpans_slots (S : List ScopeSpan) : (b.recordSpans S).slots = b.slots := by
  induction S generalizing b with
  | nil => rfl
  | cons s S ih => exact ih (b.recordSpan s)

@[simp] theorem foldl_addRangeSpan_transitions (rs : List RangeListEntry) :
    (rs.foldl (addRangeSpan o) b).transitions =
      (rs.map (·.span o)).foldl ScopeSpan.record b.transitions := by
  induction rs generalizing b with
  | nil => rfl
  | cons r rs ih => exact ih (addRangeSpan o b r)

@[simp] theorem foldl_addRangeSpan_ranges (rs : List RangeListEntry) :
    (rs.foldl (addRangeSpan o) b).ranges = b.ranges ++ rs.toArray := by
  induction rs generalizing b with
  | nil => simp
  | cons r rs ih =>
    rw [List.foldl_cons, ih]
    simp [addRangeSpan, DatabaseBuilder.recordSpan, DatabaseBuilder.addRange]

@[simp] theorem foldl_addRangeSpan_entries (rs : List RangeListEntry) :
    (rs.foldl (addRangeSpan o) b).entries = b.entries := by
  induction rs generalizing b with
  | nil => rfl
  | cons r rs ih => exact ih (addRangeSpan o b r)

@[simp] theorem foldl_addRangeSpan_slots (rs : List RangeListEntry) :
    (rs.foldl (addRangeSpan o) b).slots = b.slots := by
  induction rs generalizing b with
  | nil => rfl
  | cons r rs ih => exact ih (addRangeSpan o b r)

theorem SameScopes.recordSpans {b b' : DatabaseBuilder} (h : SameScopes b b') (S : List ScopeSpan) :
    SameScopes (b.recordSpans S) (b'.recordSpans S) := by
  induction S generalizing b b' with
  | nil => exact h
  | cons s S ih => exact ih (h.recordSpan s)

end Parts

theorem SameScopes.foldl_addRangeSpan {b b' : DatabaseBuilder} (h : SameScopes b b')
    (outer : Option EntryKey) (rs : List RangeListEntry) :
    SameScopes (rs.foldl (addRangeSpan outer) b) (rs.foldl (addRangeSpan outer) b') := by
  induction rs generalizing b b' with
  | nil => exact h
  | cons r rs ih => exact ih ((h.addRange r).recordSpan _)

end DatabaseBuilder

/-- One entry as the walk meets it: the entry as added, and the ranges its lists added. -/
structure Visit where
  entry : Entry
  ranges : List RangeListEntry

namespace Visit

/-- The spans a visit records, in order: those of its ranges, then its own. -/
def spans (v : Visit) : List ScopeSpan :=
  v.ranges.map (·.span v.entry.outerScope) ++ v.entry.ownSpan.toList

/-- Where the visited entry falls in the order of keys: units in order, then unit offsets. -/
def rank (v : Visit) : Nat := v.entry.key.raw.toNat

/-- What a visit does to a builder: its ranges with their spans, its own span, then the entry. -/
def apply (b : DatabaseBuilder) (v : Visit) : DatabaseBuilder :=
  ((v.ranges.foldl (addRangeSpan v.entry.outerScope) b).recordSpans v.entry.ownSpan.toList).addEntry
    v.entry

/-- Visits record their spans one after the other. -/
theorem foldl_apply_transitions (vs : List Visit) (b : DatabaseBuilder) :
    (vs.foldl apply b).transitions = (vs.flatMap spans).foldl ScopeSpan.record b.transitions := by
  induction vs generalizing b with
  | nil => rfl
  | cons v vs ih =>
    rw [List.foldl_cons, ih, List.flatMap_cons, List.foldl_append]
    simp [apply, spans, List.foldl_append, List.foldl_map]

/-- Visits add their ranges one after the other. -/
theorem foldl_apply_ranges (vs : List Visit) (b : DatabaseBuilder) :
    (vs.foldl apply b).ranges = b.ranges ++ (vs.flatMap (·.ranges)).toArray := by
  induction vs generalizing b with
  | nil => simp
  | cons v vs ih =>
    rw [List.foldl_cons, ih, List.flatMap_cons]
    simp [apply]

theorem sameScopes_apply {b b' : DatabaseBuilder} (h : SameScopes b b') (v : Visit) :
    SameScopes (v.apply b) (v.apply b') :=
  ((h.foldl_addRangeSpan _ v.ranges).recordSpans _).addEntry v.entry

theorem sameScopes_foldl_apply {b b' : DatabaseBuilder} (h : SameScopes b b') (vs : List Visit) :
    SameScopes (vs.foldl apply b) (vs.foldl apply b') := by
  induction vs generalizing b b' with
  | nil => exact h
  | cons v vs ih => exact ih (sameScopes_apply h v)

end Visit

/-- What walking entries of unit `unit` leaves, as visits in order: each key is a key of the unit
and falls in `[lo, hi)`, the keys increase, each visit names as outer scope an entry of smaller
key, and each owns the ranges it added. -/
structure Walked (unit lo hi : Nat) (vs : List Visit) : Prop where
  keys : ∀ v ∈ vs, ∃ off, Loader.entryKey unit off = .ok v.entry.key
  bounds : ∀ v ∈ vs, lo ≤ v.rank ∧ v.rank < hi
  increasing : vs.Pairwise fun v w => v.rank < w.rank
  outer : ∀ v ∈ vs, ∀ k ∈ v.entry.outerScope, k.raw.toNat < v.rank
  owners : ∀ v ∈ vs, ∀ r ∈ v.ranges, r.owner = v.entry.key

namespace Walked

variable {unit lo m hi : Nat} {vs ws : List Visit}

theorem nil (unit lo hi : Nat) : Walked unit lo hi [] :=
  ⟨nofun, nofun, List.Pairwise.nil, nofun, nofun⟩

theorem append (h₁ : Walked unit lo m vs) (h₂ : Walked unit m hi ws) (hlo : lo ≤ m) (hhi : m ≤ hi) :
    Walked unit lo hi (vs ++ ws) where
  keys v hv := (List.mem_append.1 hv).elim (h₁.keys v) (h₂.keys v)
  bounds v hv := by
    rcases List.mem_append.1 hv with hv | hv
    · have := h₁.bounds v hv
      omega
    · have := h₂.bounds v hv
      omega
  increasing := by
    refine List.pairwise_append.2 ⟨h₁.increasing, h₂.increasing, fun v hv w hw => ?_⟩
    have := h₁.bounds v hv
    have := h₂.bounds w hw
    omega
  outer v hv := (List.mem_append.1 hv).elim (h₁.outer v) (h₂.outer v)
  owners v hv := (List.mem_append.1 hv).elim (h₁.owners v) (h₂.owners v)

theorem singleton {v : Visit} (hkey : ∃ off, Loader.entryKey unit off = .ok v.entry.key)
    (hlo : lo ≤ v.rank) (hhi : v.rank < hi) (houter : ∀ k ∈ v.entry.outerScope, k.raw.toNat < v.rank)
    (howners : ∀ r ∈ v.ranges, r.owner = v.entry.key) : Walked unit lo hi [v] where
  keys w hw := by rw [List.mem_singleton.1 hw]; exact hkey
  bounds w hw := by rw [List.mem_singleton.1 hw]; exact ⟨hlo, hhi⟩
  increasing := List.pairwise_singleton _ _
  outer w hw := by rw [List.mem_singleton.1 hw]; exact houter
  owners w hw := by rw [List.mem_singleton.1 hw]; exact howners

theorem mono {lo' hi' : Nat} (h : Walked unit lo hi vs) (hlo : lo' ≤ lo) (hhi : hi ≤ hi') :
    Walked unit lo' hi' vs :=
  { h with bounds := fun v hv => ⟨Nat.le_trans hlo (h.bounds v hv).1, Nat.lt_of_lt_of_le (h.bounds v hv).2 hhi⟩ }

end Walked

/-! ## Runs of a loading step -/

namespace Loader

/-- A loading step from builder `b` that succeeds with `x`, leaving builder `b'`. -/
def Runs {α : Type} (m : LoadM α) (b : DatabaseBuilder) (x : α) (b' : DatabaseBuilder) : Prop :=
  (m.run b).run = .ok (.ok (x, b'))

section Runs

variable {α β : Type} {b b' b'' : DatabaseBuilder}

theorem runs_pure {x y : α} : Runs (pure x) b y b' ↔ y = x ∧ b' = b := by
  show Except.ok (Except.ok (x, b)) = Except.ok (Except.ok (y, b')) ↔ _
  simp only [Except.ok.injEq, Prod.mk.injEq]
  exact ⟨fun ⟨h1, h2⟩ => ⟨h1.symm, h2.symm⟩, fun ⟨h1, h2⟩ => ⟨h1.symm, h2.symm⟩⟩

theorem runs_bind {m : LoadM α} {f : α → LoadM β} {y : β} :
    Runs (m >>= f) b y b'' ↔ ∃ x b', Runs m b x b' ∧ Runs (f x) b' y b'' := by
  unfold Runs
  simp only [StateT.run_bind, ExceptT.run_bind]
  constructor
  · intro h
    cases hm : (m.run b).run with
    | error e => rw [hm] at h; cases h
    | ok r =>
      cases r with
      | error o => rw [hm] at h; cases h
      | ok p => exact ⟨p.1, p.2, rfl, by rw [hm] at h; exact h⟩
  · rintro ⟨x, b', hm, hf⟩
    rw [hm]
    exact hf

theorem runs_modify {f : DatabaseBuilder → DatabaseBuilder} {u : PUnit} :
    Runs (modify f : LoadM PUnit) b u b' ↔ b' = f b := by
  show Except.ok (Except.ok (PUnit.unit, f b)) = Except.ok (Except.ok (u, b')) ↔ _
  simp only [Except.ok.injEq, Prod.mk.injEq]
  exact ⟨fun ⟨_, h⟩ => h.symm, fun h => ⟨trivial, h.symm⟩⟩

theorem runs_get {x : DatabaseBuilder} : Runs (get : LoadM DatabaseBuilder) b x b' ↔ x = b ∧ b' = b := by
  show Except.ok (Except.ok (b, b)) = Except.ok (Except.ok (x, b')) ↔ _
  simp only [Except.ok.injEq, Prod.mk.injEq]
  exact ⟨fun ⟨h1, h2⟩ => ⟨h1.symm, h2.symm⟩, fun ⟨h1, h2⟩ => ⟨h1.symm, h2.symm⟩⟩

theorem runs_lift {r : Except DebugError α} {x : α} : Runs (lift r) b x b' ↔ r = .ok x ∧ b' = b := by
  cases r with
  | error e =>
    show Except.error e = Except.ok (Except.ok (x, b')) ↔ _
    simp
  | ok a =>
    show Except.ok (Except.ok (a, b)) = Except.ok (Except.ok (x, b')) ↔ _
    simp only [Except.ok.injEq, Prod.mk.injEq]
    exact ⟨fun ⟨h1, h2⟩ => ⟨h1, h2.symm⟩, fun ⟨h1, h2⟩ => ⟨h1, h2.symm⟩⟩

/-- A loop whose every step keeps an invariant keeps it. -/
theorem runs_forIn_of_step {γ : Type} (I : β → DatabaseBuilder → Prop) {f : γ → β → LoadM (ForInStep β)}
    (hstep : ∀ x s b r b', I s b → Runs (f x s) b r b' → I r.value b') :
    ∀ (l : List γ) (s : β) (b : DatabaseBuilder) (s' : β) (b' : DatabaseBuilder),
      I s b → Runs (forIn l s f) b s' b' → I s' b' := by
  intro l
  induction l with
  | nil =>
    intro s b s' b' hI h
    rw [List.forIn_nil, runs_pure] at h
    obtain ⟨rfl, rfl⟩ := h
    exact hI
  | cons x l ih =>
    intro s b s' b' hI h
    rw [List.forIn_cons, runs_bind] at h
    obtain ⟨r, b₁, hr, hrest⟩ := h
    have hI₁ := hstep x s b r b₁ hI hr
    cases r with
    | done s₁ =>
      rw [runs_pure] at hrest
      obtain ⟨rfl, rfl⟩ := hrest
      exact hI₁
    | yield s₁ => exact ih s₁ b₁ s' b' hI₁ hrest

/-- A fold whose every step keeps an invariant keeps it. -/
theorem runs_foldlM_of_step {γ : Type} (I : β → DatabaseBuilder → Prop) {f : β → γ → LoadM β}
    (hstep : ∀ s x b r b', I s b → Runs (f s x) b r b' → I r b') :
    ∀ (l : List γ) (s : β) (b : DatabaseBuilder) (s' : β) (b' : DatabaseBuilder),
      I s b → Runs (l.foldlM f s) b s' b' → I s' b' := by
  intro l
  induction l with
  | nil =>
    intro s b s' b' hI h
    rw [List.foldlM_nil, runs_pure] at h
    obtain ⟨rfl, rfl⟩ := h
    exact hI
  | cons x l ih =>
    intro s b s' b' hI h
    rw [List.foldlM_cons, runs_bind] at h
    obtain ⟨r, b₁, hr, hrest⟩ := h
    exact ih r b₁ s' b' (hstep s x b r b₁ hI hr) hrest

end Runs

/-! ## Steps that leave part of a builder alone -/

/-- A loading step after which `view` reads the builder as it did before. -/
def KeepsView {α β : Type} (view : DatabaseBuilder → β) (m : LoadM α) : Prop :=
  ∀ b x b', Runs m b x b' → view b' = view b

section Keeps

variable {α β γ : Type} {view : DatabaseBuilder → γ}

theorem keepsView_pure (x : α) : KeepsView view (pure x : LoadM α) := fun _ _ _ h => by
  rw [(runs_pure.1 h).2]

theorem keepsView_lift (r : Except DebugError α) : KeepsView view (lift r) := fun _ _ _ h => by
  rw [(runs_lift.1 h).2]

theorem keepsView_get : KeepsView view (get : LoadM DatabaseBuilder) := fun _ _ _ h => by
  rw [(runs_get.1 h).2]

theorem keepsView_bind {m : LoadM α} {f : α → LoadM β} (hm : KeepsView view m)
    (hf : ∀ x, KeepsView view (f x)) : KeepsView view (m >>= f) := fun _ _ _ h => by
  obtain ⟨x, b₁, h₁, h₂⟩ := runs_bind.1 h
  exact (hf x _ _ _ h₂).trans (hm _ _ _ h₁)

theorem keepsView_ite {c : Prop} [Decidable c] {m₁ m₂ : LoadM α} (h₁ : KeepsView view m₁)
    (h₂ : KeepsView view m₂) : KeepsView view (if c then m₁ else m₂) := by
  split
  · exact h₁
  · exact h₂

theorem keepsView_forIn {δ : Type} {f : δ → β → LoadM (ForInStep β)}
    (hf : ∀ x s, KeepsView view (f x s)) (l : List δ) (s : β) : KeepsView view (forIn l s f) :=
  fun b _ b' h => runs_forIn_of_step (fun _ b₁ => view b₁ = view b)
    (fun x s₁ _ _ _ hI hr => (hf x s₁ _ _ _ hr).trans hI) l s b _ b' rfl h

theorem keepsView_forIn_array {δ : Type} {f : δ → β → LoadM (ForInStep β)}
    (hf : ∀ x s, KeepsView view (f x s)) (l : Array δ) (s : β) : KeepsView view (forIn l s f) := by
  rw [← Array.forIn_toList]
  exact keepsView_forIn hf l.toList s

theorem keepsView_foldlM {δ : Type} {f : β → δ → LoadM β} (hf : ∀ s x, KeepsView view (f s x))
    (l : List δ) (s : β) : KeepsView view (l.foldlM f s) :=
  fun b _ b' h => runs_foldlM_of_step (fun _ b₁ => view b₁ = view b)
    (fun s₁ x _ _ _ hI hr => (hf s₁ x _ _ _ hr).trans hI) l s b _ b' rfl h

theorem keepsView_modify {f : DatabaseBuilder → DatabaseBuilder} (hf : ∀ b, view (f b) = view b) :
    KeepsView view (modify f : LoadM PUnit) := fun b _ _ h => by
  rw [runs_modify.1 h]
  exact hf b

theorem keepsView_checked (r : Checked α) : KeepsView view (checked r) := by
  unfold checked
  split
  · exact keepsView_pure _
  · exact fun _ _ _ h => nomatch h

end Keeps

/-- What a scope lookup reads of a builder. -/
def scopeView (b : DatabaseBuilder) : Array Entry × TreeMap EntryKey Nat compare ×
    Array RangeListEntry × TreeMap UInt64 (Option EntryKey) compare :=
  (b.entries, b.slots, b.ranges, b.transitions)

theorem sameScopes_iff {b b' : DatabaseBuilder} : SameScopes b b' ↔ scopeView b = scopeView b' := by
  constructor
  · intro h
    simp only [scopeView, h.entries, h.slots, h.ranges, h.transitions]
  · intro h
    simp only [scopeView, Prod.mk.injEq] at h
    exact ⟨h.1, h.2.1, h.2.2.1, h.2.2.2⟩

/-- A loading step that changes nothing a scope lookup reads. -/
def KeepsScopes {α : Type} (m : LoadM α) : Prop := ∀ b x b', Runs m b x b' → SameScopes b' b

theorem keepsScopes_of_keepsView {α : Type} {m : LoadM α} (h : KeepsView scopeView m) : KeepsScopes m :=
  fun b x b' hr => sameScopes_iff.2 (h b x b' hr)

theorem during_eq_ok {α : Type} {step : String} {r : Except Dwarf.Fault α} {a : α} :
    during step r = .ok a ↔ r = .ok a := by
  cases r <;> simp [during]

namespace UnitContext

variable (cx : UnitContext)

section Views

variable {γ : Type} {view : DatabaseBuilder → γ}

/-- Reading a location list adds to location lists only. -/
theorem keepsView_locList (hlocList : ∀ b o e, view (b.addLocListEntry o e) = view b) (o : Nat) :
    KeepsView view (cx.locList o) := by
  rw [UnitContext.locList.eq_1]
  refine keepsView_bind keepsView_get fun b => keepsView_ite (keepsView_pure _) ?_
  refine keepsView_bind (keepsView_lift _) fun c => keepsView_bind (keepsView_lift _) fun es => ?_
  refine keepsView_bind ?_ fun _ => keepsView_pure _
  rw [← Array.forIn_toList]
  exact keepsView_forIn (fun e _ => keepsView_bind (keepsView_modify fun b => hlocList b _ _)
    fun _ => keepsView_pure _) _ _

/-- Converting an attribute's value reads location lists at most. -/
theorem keepsView_attributeValue (hlocList : ∀ b o e, view (b.addLocListEntry o e) = view b)
    (name : Nat) (v : Dwarf.Value) : KeepsView view (cx.attributeValue name v) := by
  unfold UnitContext.attributeValue
  have hlift : ∀ {δ : Type} (r : Except DebugError δ) (g : δ → Option AttributeValue),
      KeepsView view (do let x ← lift r; pure (g x)) := fun r g =>
    keepsView_bind (keepsView_lift r) fun x => keepsView_pure (g x)
  split
  case h_2 | h_9 | h_11 | h_12 | h_13 | h_14 | h_15 => exact hlift _ _
  case h_10 =>
    split
    · exact hlift _ _
    · exact keepsView_pure _
  case h_16 =>
    exact keepsView_ite (keepsView_bind (cx.keepsView_locList hlocList _) fun _ => keepsView_pure _)
      (keepsView_pure _)
  case h_17 =>
    exact keepsView_ite (keepsView_bind (keepsView_lift _) fun _ =>
      keepsView_bind (cx.keepsView_locList hlocList _) fun _ => keepsView_pure _) (keepsView_pure _)
  all_goals exact keepsView_pure _

end Views

theorem keepsScopes_attributeValue (name : Nat) (v : Dwarf.Value) :
    KeepsScopes (cx.attributeValue name v) :=
  keepsScopes_of_keepsView <| cx.keepsView_attributeValue
    (fun b o e => sameScopes_iff.1 (sameScopes_addLocListEntry b o e)) name v

end UnitContext

/-! ## Keys of entries -/

/-- A key's raw value is its unit's index in the upper half and its offset in the lower. -/
theorem rank_ofParts (u o : UInt32) :
    (EntryKey.ofParts u o).raw.toNat = u.toNat * UInt32.size + o.toNat := by
  unfold EntryKey.ofParts
  have hu := u.toNat_lt
  have ho := o.toNat_lt
  rw [UInt64.toNat_or, UInt64.toNat_shiftLeft, UInt32.toNat_toUInt64, UInt32.toNat_toUInt64]
  have hshift : u.toNat * 2 ^ (32 % 2 ^ 64 % 64) % 2 ^ 64 = u.toNat <<< 32 := by
    rw [Nat.shiftLeft_eq]
    norm_num
    omega
  simp only [UInt64.toNat_ofNat, Nat.shiftLeft_eq]
  rw [hshift, ← Nat.shiftLeft_add_eq_or_of_lt ho, Nat.shiftLeft_eq]

/-- The key of the entry at an offset of a unit orders entries by unit, then by offset. -/
theorem entryKey_rank {unit off : Nat} {k : EntryKey} (h : entryKey unit off = .ok k) :
    k.raw.toNat = unit * UInt32.size + off ∧ off < UInt32.size ∧ unit < UInt32.size := by
  unfold entryKey unitId at h
  split at h
  · rename_i hoff
    split at h
    · rename_i hunit
      cases h
      rw [rank_ofParts, UInt32.toNat_ofNat_of_lt' hunit, UInt32.toNat_ofNat_of_lt' hoff]
      exact ⟨rfl, hoff, hunit⟩
    · cases h
  · cases h

/-! ## Ranges and spans -/

/-- A scope's interval is recorded as its span. -/
theorem scopeRange_runs {key : EntryKey} {outer : Option EntryKey} {low high : UInt64} {b b' : DatabaseBuilder}
    {u : Unit} : Runs (scopeRange key outer low high) b u b' ↔ b' = b.recordSpan ⟨key, outer, low, high⟩ := by
  unfold scopeRange
  rw [runs_modify]
  unfold DatabaseBuilder.recordSpan ScopeSpan.record DatabaseBuilder.transition DatabaseBuilder.addTransition
  dsimp only
  split <;> rfl

theorem toUInt64_add_sub {a b : Nat} (h : b ≤ a) : b.toUInt64 + (a - b).toUInt64 = a.toUInt64 := by
  rw [Nat.toUInt64_eq, Nat.toUInt64_eq, Nat.toUInt64_eq, ← UInt64.ofNat_add, Nat.add_sub_cancel' h]

/-- The span of a range read at `[start, stop)` and stored relative to a base below it. -/
theorem span_of_range {owner : EntryKey} {outer : Option EntryKey} {start stop base : Nat}
    (hstart : base ≤ start) (hstop : base ≤ stop) :
    RangeListEntry.span ⟨owner, base.toUInt64, (start - base).toUInt64, (stop - base).toUInt64⟩ outer =
      ⟨owner, outer, start.toUInt64, stop.toUInt64⟩ := by
  simp only [RangeListEntry.span, toUInt64_add_sub hstart, toUInt64_add_sub hstop]

@[simp] theorem key_withHighPcOffset (e : Entry) (o : Option Nat) : (withHighPcOffset e o).key = e.key := by
  unfold withHighPcOffset
  split
  · split
    · exact Entry.key_setAttribute ..
    · rfl
  · rfl

@[simp] theorem outerScope_withHighPcOffset (e : Entry) (o : Option Nat) :
    (withHighPcOffset e o).outerScope = e.outerScope := by
  unfold withHighPcOffset
  split
  · split
    · exact Entry.outerScope_setAttribute ..
    · rfl
  · rfl

/-- The span of a scope whose bounds are both given. -/
theorem Entry.ownSpan_of_bounds {e : Entry} {low high : UInt64} (hscope : e.isScope = true)
    (hlow : e.lowPc = some low) (hhigh : e.highPc = some high) :
    e.ownSpan = if low < high then some ⟨e.key, e.outerScope, low, high⟩ else none := by
  simp [Entry.ownSpan, hscope, hlow, hhigh]

/-- A scope without both bounds has no span of its own. -/
theorem Entry.ownSpan_of_not_bounds {e : Entry}
    (hnot : ∀ low high, e.lowPc = some low → e.highPc = some high → False) : e.ownSpan = none := by
  unfold Entry.ownSpan
  split
  · cases hlow : e.lowPc with
    | none => rfl
    | some low =>
      cases hhigh : e.highPc with
      | none => rfl
      | some high => exact absurd (hnot low high hlow hhigh) id
  · rfl

/-- An entry's own range records its own span, if it has one. -/
theorem ownRange_runs {key : EntryKey} {outer : Option EntryKey} {e : Entry} {b b' : DatabaseBuilder}
    {u : Unit} (hkey : e.key = key) (houter : e.outerScope = outer)
    (h : Runs (ownRange key outer e) b u b') : b' = b.recordSpans e.ownSpan.toList := by
  unfold ownRange at h
  subst hkey houter
  split at h
  · rename_i hscope
    split at h
    · rename_i low high hlow hhigh
      rw [Entry.ownSpan_of_bounds hscope hlow hhigh]
      split at h
      · rename_i hlt
        rw [if_pos hlt, scopeRange_runs.1 h]
        rfl
      · rename_i hlt
        rw [if_neg hlt, (runs_pure.1 h).2]
        rfl
    · rename_i hnot
      rw [(runs_pure.1 h).2, Entry.ownSpan_of_not_bounds hnot]
      rfl
  · rename_i hscope
    rw [(runs_pure.1 h).2]
    simp [Entry.ownSpan, hscope, recordSpans]

namespace UnitContext

variable (cx : UnitContext)

/-- A `DW_AT_ranges` list adds ranges of its owner, each with its span, and nothing else. -/
theorem ranges_runs {owner : EntryKey} {outer : Option EntryKey} {v : Dwarf.Value}
    {b b' : DatabaseBuilder} {u : Unit} (h : Runs (cx.ranges owner outer v) b u b') :
    ∃ rs : List RangeListEntry, (∀ r ∈ rs, r.owner = owner) ∧ b' = rs.foldl (addRangeSpan outer) b := by
  unfold UnitContext.ranges at h
  dsimp only at h
  split at h
  case h_3 => exact ⟨[], nofun, (runs_pure.1 h).2⟩
  all_goals
    rw [runs_bind] at h
    obtain ⟨o, b₁, ho, h⟩ := h
    have hb₁ : b₁ = b := by first | exact (runs_pure.1 ho).2 | exact (runs_lift.1 ho).2
    rw [← hb₁]
    rw [runs_bind] at h
    obtain ⟨c, b₂, hc, h⟩ := h
    obtain ⟨-, hb₂⟩ := runs_lift.1 hc
    subst b₂
    rw [runs_bind] at h
    obtain ⟨es, b₃, hes, h⟩ := h
    obtain ⟨-, hb₃⟩ := runs_lift.1 hes
    subst b₃
    rw [runs_bind] at h
    obtain ⟨x, b₄, hloop, h⟩ := h
    obtain ⟨-, hb'⟩ := runs_pure.1 h
    subst b'
    rw [← Array.forIn_toList] at hloop
    refine runs_forIn_of_step (fun _ b' => ∃ rs : List RangeListEntry,
      (∀ r ∈ rs, r.owner = owner) ∧ b' = rs.foldl (addRangeSpan outer) b₁) ?_ _ _ _ _ _
      ⟨[], nofun, rfl⟩ hloop
    intro r _ b₅ step b₆ ⟨rs, hrs, hb₅⟩ hr
    split at hr
    · rename_i hlt
      rw [runs_bind] at hr
      obtain ⟨_, b₇, hadd, hr⟩ := hr
      rw [runs_modify] at hadd
      rw [runs_bind] at hr
      obtain ⟨_, b₈, hscope, hr⟩ := hr
      rw [scopeRange_runs] at hscope
      obtain ⟨-, hb₆⟩ := runs_pure.1 hr
      -- the range is stored relative to the unit's base address when it starts above it
      have hbase : (if r.start ≥ cx.unit.lowPc then cx.unit.lowPc else 0) ≤ r.start := by
        split <;> omega
      generalize (if r.start ≥ cx.unit.lowPc then cx.unit.lowPc else 0) = base at hadd hbase
      refine ⟨rs ++ [⟨owner, base.toUInt64, (r.start - base).toUInt64, (r.stop - base).toUInt64⟩],
        fun r' hr' => ?_, ?_⟩
      · rcases List.mem_append.1 hr' with hr' | hr'
        · exact hrs r' hr'
        · rw [List.mem_singleton.1 hr']
      · rw [hb₆, hscope, hadd, hb₅, List.foldl_append, List.foldl_cons, List.foldl_nil, addRangeSpan,
          span_of_range hbase (by omega)]
    · obtain ⟨-, rfl⟩ := runs_pure.1 hr
      exact ⟨rs, hrs, hb₅⟩

/-- What reading the attributes of the entry keyed `key` does between two points of the loop:
it adds ranges of the entry's lists with their spans and nothing else a scope lookup reads, the
entry keeps its key and outer scope, and the cursor moves forward. -/
structure AttrsRead (key : EntryKey) (outer : Option EntryKey) (s : Entry × Option Nat × Dwarf.Cursor)
    (b : DatabaseBuilder) (s' : Entry × Option Nat × Dwarf.Cursor) (b' : DatabaseBuilder) : Prop where
  ranges : ∃ rs : List RangeListEntry, (∀ r ∈ rs, r.owner = key) ∧
    SameScopes b' (rs.foldl (addRangeSpan outer) b)
  key : s'.1.key = s.1.key
  outerScope : s'.1.outerScope = s.1.outerScope
  forward : s.2.2.pos ≤ s'.2.2.pos

namespace AttrsRead

variable {key : EntryKey} {outer : Option EntryKey} {s s₁ s₂ : Entry × Option Nat × Dwarf.Cursor}
  {b b₁ b₂ : DatabaseBuilder}

theorem refl (s : Entry × Option Nat × Dwarf.Cursor) (b : DatabaseBuilder) : AttrsRead key outer s b s b :=
  ⟨⟨[], nofun, SameScopes.refl b⟩, rfl, rfl, Nat.le_refl _⟩

theorem trans (h₁ : AttrsRead key outer s b s₁ b₁) (h₂ : AttrsRead key outer s₁ b₁ s₂ b₂) :
    AttrsRead key outer s b s₂ b₂ := by
  obtain ⟨rs₁, hrs₁, hb₁⟩ := h₁.ranges
  obtain ⟨rs₂, hrs₂, hb₂⟩ := h₂.ranges
  refine ⟨⟨rs₁ ++ rs₂, ?_, ?_⟩, h₂.key.trans h₁.key, h₂.outerScope.trans h₁.outerScope,
    Nat.le_trans h₁.forward h₂.forward⟩
  · intro r hr
    rcases List.mem_append.1 hr with hr | hr
    · exact hrs₁ r hr
    · exact hrs₂ r hr
  · rw [List.foldl_append]
    exact hb₂.trans (hb₁.foldl_addRangeSpan outer rs₂)

end AttrsRead

/-- Reading one attribute is a step of `AttrsRead`. -/
theorem attribute_runs {key : EntryKey} {outer : Option EntryKey} {st st' : Entry × Option Nat × Dwarf.Cursor}
    {spec : Dwarf.AttrSpec} {b b' : DatabaseBuilder} (h : Runs (cx.attribute key outer st spec) b st' b') :
    AttrsRead key outer st b st' b' := by
  obtain ⟨e, hpo, c⟩ := st
  unfold UnitContext.attribute at h
  dsimp only at h
  rw [runs_bind] at h
  obtain ⟨⟨⟨name, raw⟩, c₁⟩, b₁, hread, h⟩ := h
  obtain ⟨hok, hb₁⟩ := runs_lift.1 hread
  subst b₁
  have hc : c.pos ≤ c₁.pos := Dwarf.forward_readAttribute _ _ _ _ _ (during_eq_ok.1 hok)
  -- every branch but the one for ranges leaves the builder as it is
  have hkept : ∀ e' hpo', e'.key = e.key → e'.outerScope = e.outerScope →
      AttrsRead key outer (e, hpo, c) b (e', hpo', c₁) b :=
    fun e' hpo' hkey houter => ⟨⟨[], nofun, SameScopes.refl b⟩, hkey, houter, hc⟩
  dsimp only at h
  split at h
  · split at h
    · obtain ⟨rfl, rfl⟩ := runs_pure.1 h
      exact hkept _ _ (Entry.key_setAttribute ..) (Entry.outerScope_setAttribute ..)
    · rw [runs_bind] at h
      obtain ⟨a, b₂, ha, h⟩ := h
      obtain ⟨-, rfl⟩ := runs_lift.1 ha
      obtain ⟨rfl, rfl⟩ := runs_pure.1 h
      exact hkept _ _ (Entry.key_setAttribute ..) (Entry.outerScope_setAttribute ..)
    · obtain ⟨rfl, rfl⟩ := runs_pure.1 h
      exact hkept _ _ rfl rfl
  · split at h
    · rw [runs_bind] at h
      obtain ⟨_, b₂, hranges, h⟩ := h
      obtain ⟨rs, hrs, rfl⟩ := cx.ranges_runs hranges
      obtain ⟨rfl, rfl⟩ := runs_pure.1 h
      exact ⟨⟨rs, hrs, SameScopes.refl _⟩, rfl, rfl, hc⟩
    · rw [runs_bind] at h
      obtain ⟨v, b₂, hv, h⟩ := h
      have hsame := cx.keepsScopes_attributeValue _ _ _ _ _ hv
      have hstep : ∀ e', e'.key = e.key → e'.outerScope = e.outerScope →
          AttrsRead key outer (e, hpo, c) b (e', hpo, c₁) b₂ := fun e' hkey houter =>
        ⟨⟨[], nofun, hsame⟩, hkey, houter, hc⟩
      split at h
      · obtain ⟨rfl, rfl⟩ := runs_pure.1 h
        exact hstep _ (Entry.key_setAttribute ..) (Entry.outerScope_setAttribute ..)
      · obtain ⟨rfl, rfl⟩ := runs_pure.1 h
        exact hstep _ rfl rfl

/-! ## The walk over a unit's entries -/

/-- The rank of the entry that would sit at a position of the unit's data. -/
def posRank (p : Nat) : Nat := cx.index * UInt32.size + (p - cx.unit.header.offset)

/-- The walk from builder `b` to `b'` visited entries of this unit at ranks in `[lo, hi)`. -/
def Walks (b b' : DatabaseBuilder) (lo hi : Nat) : Prop :=
  ∃ vs : List Visit, SameScopes b' (vs.foldl Visit.apply b) ∧ Walked cx.index lo hi vs

theorem walks_refl (b : DatabaseBuilder) (lo hi : Nat) : cx.Walks b b lo hi :=
  ⟨[], SameScopes.refl b, Walked.nil ..⟩

theorem Walks.trans {cx : UnitContext} {b b₁ b₂ : DatabaseBuilder} {lo m hi : Nat}
    (h₁ : cx.Walks b b₁ lo m) (h₂ : cx.Walks b₁ b₂ m hi) (hlo : lo ≤ m) (hhi : m ≤ hi) :
    cx.Walks b b₂ lo hi := by
  obtain ⟨vs₁, hb₁, hw₁⟩ := h₁
  obtain ⟨vs₂, hb₂, hw₂⟩ := h₂
  refine ⟨vs₁ ++ vs₂, ?_, hw₁.append hw₂ hlo hhi⟩
  rw [List.foldl_append]
  exact hb₂.trans (Visit.sameScopes_foldl_apply hb₁ vs₂)

/-- What `UnitContext.entry` does with some fuel: started on an entry read at its offset, with an
outer scope of smaller key, it walks the entry and the entries below it, at ranks from the entry's
up to where the cursor stops. -/
def EntryWalks (fuel : Nat) : Prop :=
  ∀ (c : Dwarf.Cursor) (die : Dwarf.Die) (parent outer : Option EntryKey) (b : DatabaseBuilder)
    (c' : Dwarf.Cursor) (b' : DatabaseBuilder),
    cx.unit.header.offset + die.offset < die.attrs → c.pos = die.attrs →
    (∀ k ∈ outer, k.raw.toNat < cx.index * UInt32.size + die.offset) →
    Runs (cx.entry fuel c die parent outer) b c' b' →
    die.attrs ≤ c'.pos ∧ cx.Walks b b' (cx.index * UInt32.size + die.offset) (cx.posRank c'.pos)

/-- What `UnitContext.children` does with some fuel: started inside the unit, with an outer scope
of smaller key than any entry ahead, it walks the entries ahead, at ranks from where the cursor
starts to where it stops. -/
def ChildrenWalk (fuel : Nat) : Prop :=
  ∀ (c : Dwarf.Cursor) (parent outer : Option EntryKey) (b : DatabaseBuilder) (c' : Dwarf.Cursor)
    (b' : DatabaseBuilder),
    cx.unit.header.offset ≤ c.pos → (∀ k ∈ outer, k.raw.toNat < cx.posRank c.pos) →
    Runs (cx.children fuel c parent outer) b c' b' →
    c.pos ≤ c'.pos ∧ cx.Walks b b' (cx.posRank c.pos) (cx.posRank c'.pos)

theorem entryWalks_zero : cx.EntryWalks 0 := by
  intro c die parent outer b c' b' _ hc _ h
  rw [UnitContext.entry, runs_pure] at h
  obtain ⟨rfl, rfl⟩ := h
  exact ⟨Nat.le_of_eq hc.symm, cx.walks_refl _ _ _⟩

theorem childrenWalk_zero : cx.ChildrenWalk 0 := by
  intro c parent outer b c' b' _ _ h
  rw [UnitContext.children, runs_pure] at h
  obtain ⟨rfl, rfl⟩ := h
  exact ⟨Nat.le_refl _, cx.walks_refl _ _ _⟩

theorem entryWalks_succ {fuel : Nat} (hchildren : cx.ChildrenWalk fuel) : cx.EntryWalks (fuel + 1) := by
  intro c die parent outer b c' b' hdie hc houter h
  rw [UnitContext.entry, runs_bind] at h
  obtain ⟨key, b₁, hkey, h⟩ := h
  obtain ⟨hok, hb₁⟩ := runs_lift.1 hkey
  subst b₁
  obtain ⟨hrank, -, -⟩ := entryKey_rank hok
  dsimp only at h
  rw [runs_bind] at h
  obtain ⟨⟨e, hpo, c₁⟩, b₂, hattrs, h⟩ := h
  -- the attributes add ranges of the entry and keep its key and outer scope
  obtain ⟨⟨rs, hrs, hb₂⟩, hkey', houter', hpos⟩ :=
    runs_foldlM_of_step (fun s b' => AttrsRead key outer
        ({ key, parent, tag := die.layout.tag, outerScope := outer }, none, { c with pos := die.attrs })
        b s b')
      (fun _ _ _ _ _ hI hr => hI.trans (cx.attribute_runs hr)) _ _ _ _ _ (AttrsRead.refl _ _) hattrs
  dsimp only at h hkey' houter' hpos
  have hentryKey : (withHighPcOffset e hpo).key = key := by rw [key_withHighPcOffset, hkey']
  have hentryOuter : (withHighPcOffset e hpo).outerScope = outer := by
    rw [outerScope_withHighPcOffset, houter']
  rw [runs_bind] at h
  obtain ⟨_, b₃, hown, h⟩ := h
  have hb₃ := ownRange_runs hentryKey hentryOuter hown
  rw [runs_bind] at h
  obtain ⟨_, b₄, hadd, h⟩ := h
  rw [runs_modify] at hadd
  -- the entry's own visit: its ranges, its own span and the entry itself
  have hvisit : cx.Walks b b₄ (cx.index * UInt32.size + die.offset) (cx.posRank c₁.pos) := by
    refine ⟨[⟨withHighPcOffset e hpo, rs⟩], ?_, Walked.singleton ⟨die.offset, ?_⟩ ?_ ?_ ?_ ?_⟩
    · rw [hadd, hb₃]
      simp only [List.foldl_cons, List.foldl_nil, Visit.apply, hentryOuter]
      exact (hb₂.recordSpans _).addEntry _
    · rw [hentryKey]
      exact hok
    · simp only [Visit.rank, hentryKey, hrank, Nat.le_refl]
    · simp only [Visit.rank, hentryKey, hrank, posRank]
      omega
    · intro k hk
      simp only [Visit.rank, hentryKey, hrank]
      exact houter k (hentryOuter ▸ hk)
    · intro r hr
      rw [hentryKey]
      exact hrs r hr
  split at h
  · -- the children start past the entry, under it and, if it is a scope, in it
    have hinner : ∀ k ∈ (if (withHighPcOffset e hpo).isScope = true then some key else outer),
        k.raw.toNat < cx.posRank c₁.pos := by
      intro k hk
      have hlt : cx.index * UInt32.size + die.offset < cx.posRank c₁.pos := by
        unfold posRank
        omega
      split at hk
      · rw [Option.mem_def, Option.some_inj] at hk
        rw [← hk, hrank]
        exact hlt
      · exact Nat.lt_trans (houter k hk) hlt
    obtain ⟨hle, hwalk⟩ := hchildren c₁ _ _ b₄ c' b' (by omega) hinner h
    refine ⟨Nat.le_trans hpos hle, hvisit.trans hwalk ?_ ?_⟩
    · unfold posRank
      omega
    · unfold posRank
      omega
  · obtain ⟨rfl, rfl⟩ := runs_pure.1 h
    exact ⟨hpos, hvisit⟩

theorem posRank_mono {p q : Nat} (h : p ≤ q) : cx.posRank p ≤ cx.posRank q := by
  unfold posRank
  omega

theorem childrenWalk_succ {fuel : Nat} (hentry : cx.EntryWalks fuel) (hchildren : cx.ChildrenWalk fuel) :
    cx.ChildrenWalk (fuel + 1) := by
  intro c parent outer b c' b' hstart houter h
  rw [UnitContext.children] at h
  split at h
  · obtain ⟨rfl, rfl⟩ := runs_pure.1 h
    exact ⟨Nat.le_refl _, cx.walks_refl _ _ _⟩
  dsimp only at h
  rw [runs_bind] at h
  obtain ⟨⟨d, c₁⟩, b₁, hread, h⟩ := h
  obtain ⟨hok, hb₁⟩ := runs_lift.1 hread
  subst b₁
  have hdie := during_eq_ok.1 hok
  have hc₁ : c.pos ≤ c₁.pos := Dwarf.forward_readDie _ _ _ _ _ hdie
  cases d with
  | none =>
    obtain ⟨rfl, rfl⟩ := runs_pure.1 h
    exact ⟨hc₁, cx.walks_refl _ _ _⟩
  | some child =>
    -- the child sits where the cursor was, so its entries come first and its siblings after
    obtain ⟨hoffset, hlt, hattrs⟩ := Dwarf.readDie_some hdie
    have hrank : cx.index * UInt32.size + child.offset = cx.posRank c.pos := by
      unfold posRank
      rw [hoffset]
    rw [runs_bind] at h
    obtain ⟨c₂, b₂, hfirst, hrest⟩ := h
    obtain ⟨hle₂, hwalk₂⟩ := hentry c₁ child parent outer b c₂ b₂ (by omega) hattrs.symm
      (fun k hk => hrank ▸ houter k hk) hfirst
    obtain ⟨hle', hwalk'⟩ := hchildren c₂ parent outer b₂ c' b' (by omega)
      (fun k hk => Nat.lt_of_lt_of_le (houter k hk) (cx.posRank_mono (by omega))) hrest
    refine ⟨by omega, ?_⟩
    rw [← hrank]
    exact hwalk₂.trans hwalk' (by rw [hrank]; exact cx.posRank_mono (by omega)) (cx.posRank_mono hle')

/-- The walk with any fuel. -/
theorem walks (fuel : Nat) : cx.EntryWalks fuel ∧ cx.ChildrenWalk fuel := by
  induction fuel with
  | zero => exact ⟨cx.entryWalks_zero, cx.childrenWalk_zero⟩
  | succ fuel ih => exact ⟨cx.entryWalks_succ ih.2, cx.childrenWalk_succ ih.1 ih.2⟩

/-- Walking a unit from its root, when the unit's entries start at or after the unit. -/
theorem entries_walks (hheader : cx.unit.header.offset ≤ cx.unit.header.entries)
    {b b' : DatabaseBuilder} {u : Unit} (h : Runs cx.entries b u b') : ∃ lo hi, cx.Walks b b' lo hi := by
  unfold UnitContext.entries at h
  dsimp only at h
  rw [runs_bind] at h
  obtain ⟨⟨root, c⟩, b₁, hread, h⟩ := h
  obtain ⟨hok, hb₁⟩ := runs_lift.1 hread
  subst b₁
  cases root with
  | none =>
    obtain ⟨hfail, -⟩ := runs_lift.1 h
    cases hfail
  | some root =>
    -- the root is read where the unit's entries start
    obtain ⟨hoffset, hlt, hattrs⟩ := Dwarf.readDie_some (during_eq_ok.1 hok)
    change Runs (cx.entry _ c root none none >>= fun _ => pure ()) b u b' at h
    rw [runs_bind] at h
    obtain ⟨c', b₂, hentry, h⟩ := h
    obtain ⟨-, hb'⟩ := runs_pure.1 h
    subst b'
    have hroot : cx.unit.header.offset + root.offset < root.attrs := by
      simp only [Dwarf.UnitHeader.cursorAt] at hoffset hlt
      omega
    exact ⟨_, _, ((cx.walks _).1 c root none none b c' b₂ hroot hattrs.symm nofun hentry).2⟩

/-- The line table adds files and rows only. -/
theorem keepsView_lineTable {γ : Type} {view : DatabaseBuilder → γ}
    (hfile : ∀ b k name directory, view (b.addFile k name directory) = view b)
    (hlocation : ∀ b l, view (b.addLocation l).1 = view b) : KeepsView view cx.lineTable := by
  unfold UnitContext.lineTable
  dsimp only
  -- every step reads, or adds a file or a row
  repeat' first
    | exact keepsView_pure _
    | exact keepsView_lift _
    | exact keepsView_checked _
    | exact keepsView_modify fun b => hfile ..
    | exact keepsView_modify fun b => hlocation ..
    | refine keepsView_bind ?_ fun _ => ?_
    | refine keepsView_forIn (fun _ _ => ?_) _ _
    | refine keepsView_forIn_array (fun _ _ => ?_) _ _
    | split

theorem keepsScopes_lineTable : KeepsScopes cx.lineTable :=
  keepsScopes_of_keepsView <| cx.keepsView_lineTable
    (fun b k name directory => sameScopes_iff.1 (sameScopes_addFile b k name directory))
    (fun b l => sameScopes_iff.1 (sameScopes_addLocation b l))

end UnitContext

end Loader

end RemoteDebugger
