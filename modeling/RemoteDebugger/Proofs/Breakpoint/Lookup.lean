import RemoteDebugger.Breakpoint.Store
import Mathlib.Data.List.Nodup

/-!
# Looking breakpoints up

On a well-formed store what is found at an address is exactly the breakpoint there, and every
operation changes what is found at the one address it is given and nowhere else.
-/

namespace RemoteDebugger

namespace BreakpointStore

/-- A store as the session builds it: one breakpoint per address, one per id, and no id above
the last one handed out. -/
structure WellFormed (s : BreakpointStore) : Prop where
  addresses : (s.entries.map (·.address)).Nodup
  ids : (s.entries.map (·.id)).Nodup
  bounded : ∀ b ∈ s.entries, b.id.toNat ≤ s.lastId.toNat

/-- The empty store of a new session is well formed. -/
theorem wellFormed_empty : (({} : BreakpointStore)).WellFormed :=
  ⟨List.nodup_nil, List.nodup_nil, fun _ hb => nomatch hb⟩

theorem find?_some {s : BreakpointStore} {a : Address} {b : Breakpoint} (h : s.find? a = some b) :
    b ∈ s.entries ∧ b.address = a := by
  unfold find? at h
  exact ⟨List.mem_of_find?_eq_some h, by simpa using List.find?_some h⟩

/-- What holds at the address of every armed breakpoint holds where an armed breakpoint is found. -/
theorem armed_at_of_find? {s : BreakpointStore} {P : Address → Prop}
    (h : ∀ b ∈ s.entries, b.state = .armed → P b.address) {a : Address} {b : Breakpoint}
    (hb : s.find? a = some b) (harmed : b.state = .armed) : P a := by
  obtain ⟨hmem, rfl⟩ := find?_some hb
  exact h b hmem harmed

/-- In a well-formed store, a breakpoint is what is found at its address. -/
theorem find?_of_mem {s : BreakpointStore} (hs : s.WellFormed) {b : Breakpoint}
    (hb : b ∈ s.entries) : s.find? b.address = some b := by
  cases h : s.find? b.address with
  | none =>
    unfold find? at h
    have := List.find?_eq_none.1 h b hb
    simp at this
  | some b' =>
    obtain ⟨hb', haddr⟩ := find?_some h
    rw [List.inj_on_of_nodup_map hs.addresses hb' hb haddr]

/-- Changing the breakpoint at an address changes only what is found there, when the change
keeps addresses. -/
theorem find?_modifyAt (s : BreakpointStore) (a : Address) (f : Breakpoint → Breakpoint)
    (hf : ∀ e, (f e).address = e.address) (x : Address) :
    (s.modifyAt a f).1.find? x = if x = a then (s.find? a).map f else s.find? x := by
  have hmap : ∀ (L : List Breakpoint), (L.map fun e => if e.address == a then f e else e).find?
      (·.address == x) = (L.find? (·.address == x)).map fun e => if e.address == a then f e else e := by
    intro L
    rw [List.find?_map]
    congr 2
    funext e
    by_cases he : e.address = a <;> simp [he, hf]
  unfold modifyAt
  cases h : s.find? a with
  | none =>
    by_cases hx : x = a
    · subst hx
      simp [h]
    · simp [hx]
  | some b =>
    simp only
    unfold find? at h ⊢
    rw [hmap]
    by_cases hx : x = a
    · subst hx
      have hb := List.find?_some h
      simp only [beq_iff_eq] at hb
      simp [h, hb]
    · cases hfx : s.entries.find? (·.address == x) with
      | none => simp [hx]
      | some e =>
        have he := List.find?_some hfx
        simp only [beq_iff_eq] at he
        simp [hx, he]

theorem find?_eq_some_iff {s : BreakpointStore} (hs : s.WellFormed) {x : Address}
    {b : Breakpoint} : s.find? x = some b ↔ b ∈ s.entries ∧ b.address = x := by
  constructor
  · exact find?_some
  · rintro ⟨hb, rfl⟩
    exact find?_of_mem hs hb

/-- In a well-formed store, a breakpoint is what has its id. -/
theorem get_of_mem {s : BreakpointStore} (hs : s.WellFormed) {b : Breakpoint}
    (hb : b ∈ s.entries) : s.get b.id = some b := by
  unfold get
  cases h : s.entries.find? (·.id == b.id) with
  | none =>
    have := List.find?_eq_none.1 h b hb
    simp at this
  | some b' =>
    have hb' := List.mem_of_find?_eq_some h
    have hid : b'.id = b.id := by simpa using List.find?_some h
    rw [List.inj_on_of_nodup_map hs.ids hb' hb hid]

/-- Removing the breakpoint at an address keeps every other breakpoint. -/
theorem removeAt_eq {s : BreakpointStore} (hs : s.WellFormed) {a : Address} {b : Breakpoint}
    (h : s.find? a = some b) :
    (s.removeAt a).1 = { s with entries := s.entries.filter (·.address != a) } := by
  obtain ⟨hb, haddr⟩ := find?_some h
  have hsame : ∀ e ∈ s.entries, (e.id != b.id) = (e.address != a) := by
    intro e he
    by_cases heb : e = b
    · simp [heb, haddr]
    · have hid : e.id ≠ b.id := fun hid => heb (List.inj_on_of_nodup_map hs.ids he hb hid)
      have hat : e.address ≠ a := fun hat =>
        heb (List.inj_on_of_nodup_map hs.addresses he hb (hat.trans haddr.symm))
      rw [bne_iff_ne.2 hid, bne_iff_ne.2 hat]
  simp only [removeAt, h, remove, get_of_mem hs hb]
  rw [List.filter_congr hsame]

/-- Removing the breakpoint at an address leaves nothing there and changes nothing else. -/
theorem find?_removeAt {s : BreakpointStore} (hs : s.WellFormed) (a x : Address) :
    (s.removeAt a).1.find? x = if x = a then none else s.find? x := by
  cases h : s.find? a with
  | none =>
    unfold removeAt
    simp only [h]
    by_cases hx : x = a
    · simp [hx, h]
    · simp [hx]
  | some b =>
    rw [removeAt_eq hs h]
    unfold find?
    simp only [List.find?_filter]
    by_cases hx : x = a
    · subst hx
      rw [if_pos rfl, List.find?_eq_none]
      intro e _
      by_cases he : e.address = x <;> simp [he]
    · simp only [hx, if_false]
      congr 1
      funext e
      by_cases he : e.address = x
      · simp [he, hx]
      · simp [he]

theorem modifyAt_entries (s : BreakpointStore) (a : Address) (f : Breakpoint → Breakpoint) :
    (s.modifyAt a f).1.entries = s.entries ∨
      (s.modifyAt a f).1.entries = s.entries.map fun e => if e.address == a then f e else e := by
  unfold modifyAt
  split
  · exact .inl rfl
  · exact .inr rfl

@[simp] theorem modifyAt_lastId (s : BreakpointStore) (a : Address) (f : Breakpoint → Breakpoint) :
    (s.modifyAt a f).1.lastId = s.lastId := by
  unfold modifyAt
  split <;> rfl

/-- A change that keeps addresses and ids keeps a store well formed. -/
theorem wellFormed_modifyAt {s : BreakpointStore} (hs : s.WellFormed) (a : Address)
    (f : Breakpoint → Breakpoint) (hfa : ∀ e, (f e).address = e.address)
    (hfi : ∀ e, (f e).id = e.id) : (s.modifyAt a f).1.WellFormed := by
  have hg : ∀ e, (if e.address == a then f e else e).address = e.address ∧
      (if e.address == a then f e else e).id = e.id := by
    intro e
    by_cases he : e.address = a <;> simp [he, hfa, hfi]
  rcases modifyAt_entries s a f with h | h
  · exact ⟨h ▸ hs.addresses, h ▸ hs.ids, by rw [h, modifyAt_lastId]; exact hs.bounded⟩
  · refine ⟨?_, ?_, ?_⟩
    · rw [h, List.map_map]
      convert hs.addresses using 2
      funext e
      exact (hg e).1
    · rw [h, List.map_map]
      convert hs.ids using 2
      funext e
      exact (hg e).2
    · rw [h, modifyAt_lastId]
      intro b hb
      obtain ⟨e, he, rfl⟩ := List.mem_map.1 hb
      rw [(hg e).2]
      exact hs.bounded e he

/-- Removing a breakpoint keeps a store well formed. -/
theorem wellFormed_removeAt {s : BreakpointStore} (hs : s.WellFormed) (a : Address) :
    (s.removeAt a).1.WellFormed := by
  cases h : s.find? a with
  | none =>
    unfold removeAt
    simp only [h]
    exact hs
  | some b =>
    rw [removeAt_eq hs h]
    exact ⟨(List.filter_sublist.map _).nodup hs.addresses,
      (List.filter_sublist.map _).nodup hs.ids,
      fun e he => hs.bounded e (List.mem_of_mem_filter he)⟩

@[simp] theorem removeAt_lastId {s : BreakpointStore} (a : Address) :
    (s.removeAt a).1.lastId = s.lastId := by
  unfold removeAt remove
  split
  · rfl
  · split <;> rfl

/-- A new breakpoint is found at its address, with the next id, armed, and nothing else
changes. -/
theorem find?_insert_of_none {s : BreakpointStore} {a : Address} (h : s.find? a = none)
    (kind : BreakpointKind) (saved : UInt8) (x : Address) :
    (s.insert a kind saved).1.find? x =
      if x = a then some { id := s.lastId + 1, address := a, kind, savedByte := saved }
      else s.find? x := by
  unfold insert
  simp only [h]
  unfold find? at h ⊢
  rw [List.find?_append]
  by_cases hx : x = a
  · subst hx
    simp [h]
  · simp [hx, Ne.symm hx]

/-- Installing where a breakpoint exists only makes it a user breakpoint, if asked. -/
theorem find?_insert_of_some {s : BreakpointStore} {a : Address} {b : Breakpoint}
    (h : s.find? a = some b) (kind : BreakpointKind) (saved : UInt8) (x : Address) :
    (s.insert a kind saved).1.find? x =
      if x = a then some (if kind = .user then { b with kind := .user } else b)
      else s.find? x := by
  unfold insert
  simp only [h]
  by_cases hk : kind = .user
  · simp only [hk, if_true]
    rw [find?_modifyAt s a (fun e => { e with kind := .user }) (fun _ => rfl) x, h]
    rfl
  · simp only [hk, if_false]
    by_cases hx : x = a
    · simp [hx, h]
    · simp [hx]

/-- Installing keeps a store well formed while ids do not run out. -/
theorem wellFormed_insert {s : BreakpointStore} (hs : s.WellFormed) (a : Address)
    (kind : BreakpointKind) (saved : UInt8) (hlast : s.lastId.toNat + 1 < UInt64.size) :
    (s.insert a kind saved).1.WellFormed := by
  unfold insert
  cases h : s.find? a with
  | some b =>
    simp only
    split
    · exact wellFormed_modifyAt hs a _ (fun _ => rfl) (fun _ => rfl)
    · exact hs
  | none =>
    simp only
    -- the new id is one past the last, so above every id in use
    have hnext : (s.lastId + 1).toNat = s.lastId.toNat + 1 := by
      rw [UInt64.toNat_add, UInt64.toNat_one, Nat.mod_eq_of_lt hlast]
    have hfresh : ∀ e ∈ s.entries, e.address ≠ a := by
      intro e he hea
      unfold find? at h
      have := List.find?_eq_none.1 h e he
      simp [hea] at this
    refine ⟨?_, ?_, ?_⟩
    · rw [List.map_append, List.nodup_append]
      refine ⟨hs.addresses, List.nodup_singleton _, ?_⟩
      intro x hx y hy
      simp only [List.map_cons, List.map_nil, List.mem_singleton] at hy
      obtain ⟨e, he, rfl⟩ := List.mem_map.1 hx
      rw [hy]
      exact hfresh e he
    · rw [List.map_append, List.nodup_append]
      refine ⟨hs.ids, List.nodup_singleton _, ?_⟩
      intro x hx y hy
      simp only [List.map_cons, List.map_nil, List.mem_singleton] at hy
      obtain ⟨e, he, rfl⟩ := List.mem_map.1 hx
      rw [hy]
      intro heq
      have hb := hs.bounded e he
      rw [heq, hnext] at hb
      omega
    · intro e he
      rw [hnext]
      rcases List.mem_append.1 he with he | he
      · have := hs.bounded e he
        omega
      · simp only [List.mem_singleton] at he
        rw [he]
        exact Nat.le_of_eq hnext

/-- Installing hands out at most one new id. -/
theorem insert_lastId (s : BreakpointStore) (a : Address) (kind : BreakpointKind) (saved : UInt8) :
    (s.insert a kind saved).1.lastId = s.lastId ∨ (s.insert a kind saved).1.lastId = s.lastId + 1 := by
  unfold insert
  split
  · split
    · exact .inl (modifyAt_lastId _ _ _)
    · exact .inl rfl
  · exact .inr rfl

/-- A change that keeps kinds and addresses keeps the temporary breakpoints. -/
theorem temporaries_modifyAt (s : BreakpointStore) (a : Address) (f : Breakpoint → Breakpoint)
    (hfa : ∀ e, (f e).address = e.address) (hfk : ∀ e, (f e).kind = e.kind) :
    (s.modifyAt a f).1.temporaries = s.temporaries := by
  rcases modifyAt_entries s a f with h | h
  · simp only [temporaries, h]
  · simp only [temporaries, h, List.filter_map, List.map_map]
    have hg : ∀ e, (if e.address == a then f e else e).address = e.address ∧
        (if e.address == a then f e else e).kind = e.kind := by
      intro e
      by_cases he : e.address = a <;> simp [he, hfa, hfk]
    have hp : (Breakpoint.isTemporary ∘ fun e => if e.address == a then f e else e) =
        Breakpoint.isTemporary := by
      funext e
      simp only [Function.comp, Breakpoint.isTemporary, (hg e).2]
    rw [hp]
    congr 1
    funext e
    exact (hg e).1

/-- Removing a breakpoint adds no temporary one. -/
theorem temporaries_removeAt {s : BreakpointStore} (hs : s.WellFormed) (a : Address) :
    ∀ x ∈ (s.removeAt a).1.temporaries, x ∈ s.temporaries := by
  intro x hx
  cases h : s.find? a with
  | none =>
    unfold removeAt at hx
    simp only [h] at hx
    exact hx
  | some b =>
    rw [removeAt_eq hs h] at hx
    simp only [temporaries, List.mem_map, List.mem_filter] at hx ⊢
    obtain ⟨e, ⟨⟨he, _⟩, ht⟩, rfl⟩ := hx
    exact ⟨e, ⟨he, ht⟩, rfl⟩

/-! ### Changing one breakpoint -/

theorem find?_setState (s : BreakpointStore) (a : Address) (state : BreakpointState) (x : Address) :
    (s.setState a state).1.find? x =
      if x = a then (s.find? a).map ({ · with state }) else s.find? x :=
  find?_modifyAt s a (fun e => { e with state }) (fun _ => rfl) x

theorem wellFormed_setState {s : BreakpointStore} (hs : s.WellFormed) (a : Address)
    (state : BreakpointState) : (s.setState a state).1.WellFormed :=
  wellFormed_modifyAt hs a (fun e => { e with state }) (fun _ => rfl) (fun _ => rfl)

@[simp] theorem setState_lastId (s : BreakpointStore) (a : Address) (state : BreakpointState) :
    (s.setState a state).1.lastId = s.lastId :=
  modifyAt_lastId s a _

@[simp] theorem temporaries_setState (s : BreakpointStore) (a : Address) (state : BreakpointState) :
    (s.setState a state).1.temporaries = s.temporaries :=
  temporaries_modifyAt s a (fun e => { e with state }) (fun _ => rfl) (fun _ => rfl)

theorem find?_setSavedByte (s : BreakpointStore) (a : Address) (byte : UInt8) (x : Address) :
    (s.setSavedByte a byte).1.find? x =
      if x = a then (s.find? a).map ({ · with savedByte := byte }) else s.find? x :=
  find?_modifyAt s a (fun e => { e with savedByte := byte }) (fun _ => rfl) x

theorem wellFormed_setSavedByte {s : BreakpointStore} (hs : s.WellFormed) (a : Address)
    (byte : UInt8) : (s.setSavedByte a byte).1.WellFormed :=
  wellFormed_modifyAt hs a (fun e => { e with savedByte := byte }) (fun _ => rfl) (fun _ => rfl)

@[simp] theorem setSavedByte_lastId (s : BreakpointStore) (a : Address) (byte : UInt8) :
    (s.setSavedByte a byte).1.lastId = s.lastId :=
  modifyAt_lastId s a _

@[simp] theorem temporaries_setSavedByte (s : BreakpointStore) (a : Address) (byte : UInt8) :
    (s.setSavedByte a byte).1.temporaries = s.temporaries :=
  temporaries_modifyAt s a (fun e => { e with savedByte := byte }) (fun _ => rfl) (fun _ => rfl)

/-- Counting a hit changes only the count. -/
theorem recordHit_eq (s : BreakpointStore) (a : Address) :
    (s.recordHit a).1 = s ∨ ∃ f : Breakpoint → Breakpoint,
      (∀ e, f e = { e with hitCount := (f e).hitCount }) ∧ (s.recordHit a).1 = (s.modifyAt a f).1 := by
  unfold recordHit
  split
  · split
    · exact .inr ⟨_, fun _ => rfl, rfl⟩
    · exact .inl rfl
  · exact .inl rfl

/-! ### Forgetting breakpoints -/

/-- Removing the breakpoints at a list of addresses leaves nothing at them and changes nothing
else. -/
theorem find?_foldl_removeAt (L : List Address) : ∀ {s : BreakpointStore}, s.WellFormed → ∀ x,
    (L.foldl (fun st a => (st.removeAt a).1) s).find? x = if x ∈ L then none else s.find? x := by
  induction L with
  | nil => intro s _ x; simp
  | cons a L ih =>
    intro s hs x
    rw [List.foldl_cons, ih (wellFormed_removeAt hs a) x, find?_removeAt hs a x]
    by_cases hxL : x ∈ L
    · simp [hxL]
    · by_cases hxa : x = a <;> simp [hxL, hxa]

/-- In a well-formed store, the temporary breakpoints' addresses are those where a temporary
breakpoint is found. -/
theorem mem_temporaries {s : BreakpointStore} (hs : s.WellFormed) (x : Address) :
    x ∈ s.temporaries ↔ (s.find? x).any (·.isTemporary) := by
  constructor
  · intro hx
    simp only [temporaries, List.mem_map, List.mem_filter] at hx
    obtain ⟨b, ⟨hb, ht⟩, rfl⟩ := hx
    simp [find?_of_mem hs hb, ht]
  · intro hx
    cases hb : s.find? x with
    | none => simp [hb] at hx
    | some b =>
      obtain ⟨hmem, rfl⟩ := find?_some hb
      simp only [hb, Option.any_some] at hx
      simp only [temporaries, List.mem_map, List.mem_filter]
      exact ⟨b, ⟨hmem, hx⟩, rfl⟩

/-- Forgetting every temporary breakpoint leaves the others as they were. -/
theorem find?_dropTemporaries {s : BreakpointStore} (hs : s.WellFormed) (x : Address) :
    (s.temporaries.foldl (fun st a => (st.removeAt a).1) s).find? x =
      (s.find? x).filter (!·.isTemporary) := by
  rw [find?_foldl_removeAt _ hs]
  have ht := mem_temporaries hs x
  cases hb : s.find? x with
  | none =>
    simp only [hb, Option.any_none, Bool.false_eq_true, iff_false] at ht
    simp [ht]
  | some b =>
    simp only [hb, Option.any_some] at ht
    cases h : b.isTemporary <;> simp_all [Option.filter]

end BreakpointStore

end RemoteDebugger
