import RemoteDebugger.Proofs.Breakpoint.Lookup

/-!
# How long breakpoints live

What each change of a breakpoint store keeps: ids, addresses, kinds and hit counts
(`SameKeys`), user breakpoints (`KeepsUsers`), and bounds on ids and counts (`Within`).
-/

namespace RemoteDebugger

/-- What a change of a breakpoint's state or saved byte leaves alone. -/
def Breakpoint.key (b : Breakpoint) : UInt64 × Address × BreakpointKind × UInt64 :=
  (b.id, b.address, b.kind, b.hitCount)

namespace BreakpointStore

/-- Forget every temporary breakpoint, as a stop does. -/
def dropTemporaries (st : BreakpointStore) : BreakpointStore :=
  st.temporaries.foldl (fun st a => (st.removeAt a).1) st

/-- What removing a breakpoint keeps is a part of what there was. -/
theorem mem_removeAt {st : BreakpointStore} {a : Address} {b : Breakpoint}
    (hb : b ∈ (st.removeAt a).1.entries) : b ∈ st.entries := by
  unfold removeAt remove at hb
  split at hb
  · exact hb
  · split at hb
    · exact hb
    · exact List.mem_of_mem_filter hb

theorem wellFormed_dropTemporaries {st : BreakpointStore} (hs : st.WellFormed) :
    st.dropTemporaries.WellFormed := by
  unfold dropTemporaries
  generalize st.temporaries = L
  induction L generalizing st with
  | nil => exact hs
  | cons a L ih => exact ih (wellFormed_removeAt hs a)

/-- After a stop no temporary breakpoint is left. -/
theorem temporaries_dropTemporaries {st : BreakpointStore} (hs : st.WellFormed) :
    st.dropTemporaries.temporaries = [] := by
  apply List.eq_nil_iff_forall_not_mem.2
  intro x hx
  rw [mem_temporaries (wellFormed_dropTemporaries hs), dropTemporaries,
    find?_dropTemporaries hs] at hx
  cases hb : st.find? x with
  | none => simp [hb] at hx
  | some b => cases ht : b.isTemporary <;> simp [hb, ht, Option.filter] at hx

/-- Suspending a breakpoint just before removing it makes no difference. -/
theorem removeAt_setState {st : BreakpointStore} (hs : st.WellFormed) (a : Address)
    (state : BreakpointState) : ((st.setState a state).1.removeAt a).1 = (st.removeAt a).1 := by
  cases hb : st.find? a with
  | none =>
    have hsame : (st.setState a state).1 = st := by
      simp [setState, modifyAt, hb]
    rw [hsame]
  | some b =>
    have hb' : (st.setState a state).1.find? a = some { b with state } := by
      rw [find?_setState, if_pos rfl, hb]
      rfl
    -- the changed breakpoint is the one filtered out
    have hfilter : ∀ l : List Breakpoint,
        (l.map fun e => if e.address == a then { e with state } else e).filter (·.address != a) =
          l.filter (·.address != a) := by
      intro l
      induction l with
      | nil => rfl
      | cons e l ih =>
        rw [List.map_cons, List.filter_cons, List.filter_cons, ih]
        by_cases he : e.address = a <;> simp [he]
    rw [removeAt_eq (wellFormed_setState hs a state) hb', removeAt_eq hs hb]
    simp only [setState, modifyAt, hb, hfilter]

/-! ## Changing states and saved bytes -/

/-- Two stores that differ at most in their breakpoints' states and saved bytes. -/
structure SameKeys (st st' : BreakpointStore) : Prop where
  lastId : st'.lastId = st.lastId
  keys : st'.entries.map Breakpoint.key = st.entries.map Breakpoint.key

theorem SameKeys.refl (st : BreakpointStore) : SameKeys st st := ⟨rfl, rfl⟩

theorem SameKeys.trans {st st' st'' : BreakpointStore} (h : SameKeys st st')
    (h' : SameKeys st' st'') : SameKeys st st'' :=
  ⟨h'.lastId.trans h.lastId, h'.keys.trans h.keys⟩

theorem sameKeys_modifyAt (st : BreakpointStore) (a : Address) {f : Breakpoint → Breakpoint}
    (hf : ∀ e, (f e).key = e.key) : SameKeys st (st.modifyAt a f).1 := by
  refine ⟨modifyAt_lastId st a f, ?_⟩
  rcases modifyAt_entries st a f with h | h
  · rw [h]
  · rw [h, List.map_map]
    apply List.map_congr_left
    intro e _
    by_cases he : e.address = a <;> simp [he, hf]

theorem sameKeys_setState (st : BreakpointStore) (a : Address) (state : BreakpointState) :
    SameKeys st (st.setState a state).1 :=
  sameKeys_modifyAt st a fun _ => rfl

theorem sameKeys_setSavedByte (st : BreakpointStore) (a : Address) (byte : UInt8) :
    SameKeys st (st.setSavedByte a byte).1 :=
  sameKeys_modifyAt st a fun _ => rfl

section SameKeys

variable {st st' : BreakpointStore}

theorem SameKeys.map_eq {β : Type} (h : SameKeys st st')
    (g : UInt64 × Address × BreakpointKind × UInt64 → β) :
    st'.entries.map (g ∘ Breakpoint.key) = st.entries.map (g ∘ Breakpoint.key) := by
  rw [← List.map_map, h.keys, List.map_map]

/-- Every breakpoint of the changed store stands for one of the old store with its key. -/
theorem SameKeys.exists_mem (h : SameKeys st st') {b : Breakpoint} (hb : b ∈ st'.entries) :
    ∃ e ∈ st.entries, e.key = b.key := by
  have hk : b.key ∈ st.entries.map Breakpoint.key := by
    rw [← h.keys]
    exact List.mem_map_of_mem hb
  exact List.mem_map.1 hk

theorem SameKeys.wellFormed (h : SameKeys st st') (hs : st.WellFormed) : st'.WellFormed := by
  refine ⟨?_, ?_, ?_⟩
  · have haddr : st'.entries.map (·.address) = st.entries.map (·.address) := h.map_eq (·.2.1)
    rw [haddr]
    exact hs.addresses
  · have hid : st'.entries.map (·.id) = st.entries.map (·.id) := h.map_eq (·.1)
    rw [hid]
    exact hs.ids
  · intro b hb
    obtain ⟨e, he, hkey⟩ := h.exists_mem hb
    have hid : e.id = b.id := congrArg (·.1) hkey
    rw [h.lastId, ← hid]
    exact hs.bounded e he

/-- The keys of what is found at an address are as they were. -/
theorem SameKeys.find?_key (h : SameKeys st st') (x : Address) :
    (st'.find? x).map Breakpoint.key = (st.find? x).map Breakpoint.key := by
  have hfind : ∀ s : BreakpointStore, (s.find? x).map Breakpoint.key =
      (s.entries.map Breakpoint.key).find? (·.2.1 == x) := by
    intro s
    rw [List.find?_map]
    rfl
  rw [hfind, hfind, h.keys]

theorem SameKeys.temporaries (h : SameKeys st st') : st'.temporaries = st.temporaries := by
  have hkeys := h.keys
  unfold BreakpointStore.temporaries
  generalize st.entries = l at hkeys
  generalize st'.entries = l' at hkeys
  induction l generalizing l' with
  | nil => simp_all
  | cons e l ih =>
    cases l' with
    | nil => simp at hkeys
    | cons e' l' =>
      simp only [List.map_cons, List.cons.injEq] at hkeys
      -- the first breakpoints agree on kind and address
      have hkind : e'.kind = e.kind := congrArg (·.2.2.1) hkeys.1
      have haddr : e'.address = e.address := congrArg (·.2.1) hkeys.1
      have ht : e'.isTemporary = e.isTemporary := by simp [Breakpoint.isTemporary, hkind]
      cases hte : e.isTemporary <;> simp [ht, hte, haddr, ih l' hkeys.2]

end SameKeys

/-! ## User breakpoints -/

/-- Every user breakpoint of `st` is still in `st'`: at its address, with its id, a user
breakpoint. -/
def KeepsUsers (st st' : BreakpointStore) : Prop :=
  ∀ x b, st.find? x = some b → b.kind = .user →
    ∃ b', st'.find? x = some b' ∧ b'.id = b.id ∧ b'.kind = .user

theorem KeepsUsers.refl (st : BreakpointStore) : KeepsUsers st st :=
  fun _ b hb hk => ⟨b, hb, rfl, hk⟩

theorem KeepsUsers.trans {st st' st'' : BreakpointStore} (h : KeepsUsers st st')
    (h' : KeepsUsers st' st'') : KeepsUsers st st'' := by
  intro x b hb hk
  obtain ⟨b', hb', hid, hk'⟩ := h x b hb hk
  obtain ⟨b'', hb'', hid', hk''⟩ := h' x b' hb' hk'
  exact ⟨b'', hb'', hid'.trans hid, hk''⟩

theorem SameKeys.keepsUsers {st st' : BreakpointStore} (h : SameKeys st st') : KeepsUsers st st' := by
  intro x b hb hk
  have hkey := h.find?_key x
  rw [hb, Option.map_some] at hkey
  obtain ⟨b', hb', hkey'⟩ := Option.map_eq_some_iff.1 hkey
  exact ⟨b', hb', congrArg (·.1) hkey', (congrArg (·.2.2.1) hkey').trans hk⟩

/-- Installing never demotes nor removes a user breakpoint: a temporary request where one is
leaves it as it was. -/
theorem keepsUsers_insert (st : BreakpointStore) (a : Address) (kind : BreakpointKind)
    (saved : UInt8) : KeepsUsers st (st.insert a kind saved).1 := by
  intro x b hb hk
  cases h : st.find? a with
  | none =>
    rw [find?_insert_of_none h]
    have hx : x ≠ a := by
      rintro rfl
      rw [h] at hb
      cases hb
    exact ⟨b, by rw [if_neg hx, hb], rfl, hk⟩
  | some b0 =>
    rw [find?_insert_of_some h]
    by_cases hx : x = a
    · subst hx
      rw [h, Option.some.injEq] at hb
      subst hb
      refine ⟨_, by rw [if_pos rfl], ?_, ?_⟩
      · split <;> rfl
      · split <;> simp [hk]
    · exact ⟨b, by rw [if_neg hx, hb], rfl, hk⟩

/-- Counting a hit changes one breakpoint's count and nothing else. -/
theorem find?_recordHit (st : BreakpointStore) (a x : Address) :
    ((st.recordHit a).1.find? x).map ({ · with hitCount := 0 }) =
      (st.find? x).map ({ · with hitCount := 0 }) := by
  rcases recordHit_eq st a with h | ⟨f, hf, h⟩
  · rw [h]
  · rw [h, find?_modifyAt st a f (fun e => by rw [hf e]) x]
    split
    · next hx =>
      subst hx
      simp only [Option.map_map]
      congr 1
      funext e
      simp only [Function.comp]
      rw [hf e]
    · rfl

theorem wellFormed_recordHit {st : BreakpointStore} (hs : st.WellFormed) (a : Address) :
    (st.recordHit a).1.WellFormed := by
  rcases recordHit_eq st a with h | ⟨f, hf, h⟩
  · rw [h]
    exact hs
  · rw [h]
    exact wellFormed_modifyAt hs a f (fun e => by rw [hf e]) (fun e => by rw [hf e])

theorem keepsUsers_recordHit (st : BreakpointStore) (a : Address) :
    KeepsUsers st (st.recordHit a).1 := by
  intro x b hb hk
  have h := find?_recordHit st a x
  rw [hb, Option.map_some] at h
  obtain ⟨b', hb', hkey⟩ := Option.map_eq_some_iff.1 h
  have hid := congrArg Breakpoint.id hkey
  have hkind := congrArg Breakpoint.kind hkey
  exact ⟨b', hb', hid, hkind.trans hk⟩

/-- Forgetting the temporary breakpoints keeps the user ones. -/
theorem keepsUsers_dropTemporaries {st : BreakpointStore} (hs : st.WellFormed) :
    KeepsUsers st st.dropTemporaries := by
  intro x b hb hk
  have hnot : b.isTemporary = false := by simp [Breakpoint.isTemporary, hk]
  refine ⟨b, ?_, rfl, hk⟩
  rw [dropTemporaries, find?_dropTemporaries hs, hb]
  simp [Option.filter, hnot]

/-! ## Ids and hit counts below a bound -/

/-- A well-formed store whose last id and hit counts are at most `n`. -/
structure Within (n : Nat) (st : BreakpointStore) : Prop where
  wellFormed : st.WellFormed
  lastId : st.lastId.toNat ≤ n
  hits : ∀ b ∈ st.entries, b.hitCount.toNat ≤ n

theorem within_empty : Within 0 {} :=
  ⟨wellFormed_empty, Nat.le_refl _, fun _ hb => nomatch hb⟩

theorem Within.mono {n m : Nat} {st : BreakpointStore} (h : Within n st) (hnm : n ≤ m) :
    Within m st :=
  ⟨h.wellFormed, Nat.le_trans h.lastId hnm, fun b hb => Nat.le_trans (h.hits b hb) hnm⟩

theorem SameKeys.within {n : Nat} {st st' : BreakpointStore} (h : SameKeys st st')
    (hw : Within n st) : Within n st' := by
  refine ⟨h.wellFormed hw.wellFormed, by rw [h.lastId]; exact hw.lastId, fun b hb => ?_⟩
  obtain ⟨e, he, hkey⟩ := h.exists_mem hb
  have hhit : e.hitCount = b.hitCount := congrArg (·.2.2.2) hkey
  rw [← hhit]
  exact hw.hits e he

theorem Within.removeAt {n : Nat} {st : BreakpointStore} (h : Within n st) (a : Address) :
    Within n (st.removeAt a).1 :=
  ⟨wellFormed_removeAt h.wellFormed a, by rw [removeAt_lastId]; exact h.lastId,
    fun b hb => h.hits b (mem_removeAt hb)⟩

theorem Within.dropTemporaries {n : Nat} {st : BreakpointStore} (h : Within n st) :
    Within n st.dropTemporaries := by
  unfold BreakpointStore.dropTemporaries
  generalize st.temporaries = L
  induction L generalizing st with
  | nil => exact h
  | cons a L ih => exact ih (h.removeAt a)

theorem Within.drain {n : Nat} {st : BreakpointStore} (h : Within n st) : Within n st.drain.1 :=
  ⟨⟨List.nodup_nil, List.nodup_nil, fun _ hb => nomatch hb⟩, h.lastId, fun _ hb => nomatch hb⟩

/-- A change of the breakpoints at one address that keeps their ids and addresses and raises
their counts by one at most raises the bound by one at most. -/
theorem Within.modifyAt {n : Nat} {st : BreakpointStore} (h : Within n st) (a : Address)
    {f : Breakpoint → Breakpoint} (hfa : ∀ e, (f e).address = e.address)
    (hfi : ∀ e, (f e).id = e.id) (hfh : ∀ e, (f e).hitCount.toNat ≤ e.hitCount.toNat + 1) :
    Within (n + 1) (st.modifyAt a f).1 := by
  refine ⟨wellFormed_modifyAt h.wellFormed a f hfa hfi,
    by rw [modifyAt_lastId]; exact Nat.le_succ_of_le h.lastId, fun b hb => ?_⟩
  rcases modifyAt_entries st a f with he | he
  · rw [he] at hb
    exact Nat.le_succ_of_le (h.hits b hb)
  · rw [he] at hb
    obtain ⟨e, he, rfl⟩ := List.mem_map.1 hb
    have hc := h.hits e he
    by_cases hea : e.address = a
    · rw [if_pos (by simp [hea])]
      have := hfh e
      omega
    · rw [if_neg (by simp [hea])]
      omega

/-- One installation raises the bound by one at most. -/
theorem Within.insert {n : Nat} {st : BreakpointStore} (h : Within n st)
    (hn : n + 1 < UInt64.size) (a : Address) (kind : BreakpointKind) (saved : UInt8) :
    Within (n + 1) (st.insert a kind saved).1 := by
  have hlast : st.lastId.toNat + 1 < UInt64.size := by
    have := h.lastId
    omega
  unfold BreakpointStore.insert
  split
  · split
    · -- a promotion keeps every count
      exact h.modifyAt a (fun _ => rfl) (fun _ => rfl) fun _ => Nat.le_succ _
    · exact h.mono (Nat.le_succ n)
  · refine ⟨?_, ?_, fun b hb => ?_⟩
    · have hwf := wellFormed_insert h.wellFormed a kind saved hlast
      simp only [BreakpointStore.insert, ‹st.find? a = none›] at hwf
      exact hwf
    · show (st.lastId + 1).toNat ≤ n + 1
      rw [UInt64.toNat_add, UInt64.toNat_one, Nat.mod_eq_of_lt hlast]
      exact Nat.succ_le_succ h.lastId
    · rcases List.mem_append.1 hb with hb | hb
      · exact Nat.le_succ_of_le (h.hits b hb)
      · simp only [List.mem_singleton] at hb
        rw [hb]
        simp

/-- A counted hit before the top of the word raises the count by exactly one. -/
theorem recordHit_of_armed {st : BreakpointStore} {a : Address} {b : Breakpoint}
    (hb : st.find? a = some b) (harmed : b.isArmed = true)
    (htop : b.hitCount.toNat + 1 < UInt64.size) :
    (st.recordHit a).2 = some { b with hitCount := b.hitCount + 1 } ∧
      (st.recordHit a).1.find? a = some { b with hitCount := b.hitCount + 1 } := by
  have hne : b.hitCount ≠ 18446744073709551615 := by
    intro heq
    rw [heq] at htop
    exact absurd htop (by decide)
  unfold recordHit
  simp only [hb, harmed, if_true]
  refine ⟨by simp [modifyAt, hb, hne], ?_⟩
  rw [find?_modifyAt, if_pos rfl, hb]
  · simp [hne]
  · intro e
    rfl

/-- One counted hit raises the bound by one at most. -/
theorem Within.recordHit {n : Nat} {st : BreakpointStore} (h : Within n st) (a : Address) :
    Within (n + 1) (st.recordHit a).1 := by
  unfold BreakpointStore.recordHit
  split
  · split
    · refine h.modifyAt a (fun _ => rfl) (fun _ => rfl) fun e => ?_
      dsimp only
      split
      · omega
      · rw [UInt64.toNat_add, UInt64.toNat_one]
        omega
    · exact h.mono (Nat.le_succ n)
  · exact h.mono (Nat.le_succ n)

end BreakpointStore

end RemoteDebugger
