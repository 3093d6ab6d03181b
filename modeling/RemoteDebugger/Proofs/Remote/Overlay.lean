import RemoteDebugger.Proofs.Remote.Stub
import RemoteDebugger.Proofs.Breakpoint.Lookup
import RemoteDebugger.Remote.Session

/-!
# The logical memory under software breakpoints

`overlay` is the memory a debugger means, with the saved byte under every armed breakpoint, and
`Traps` says the traps are in the stub. Reads and writes that do not wrap see and change exactly
the logical bytes.
-/

namespace RemoteDebugger

/-- The memory a debugger means: the stub's bytes, with the saved byte under every armed trap. -/
def overlay (store : BreakpointStore) (mem : UInt64 → UInt8) : UInt64 → UInt8 := fun x =>
  match store.find? x with
  | some b => if b.isArmed then b.savedByte else mem x
  | none => mem x

/-- Every armed breakpoint's trap is in memory. -/
def Traps (store : BreakpointStore) (mem : UInt64 → UInt8) : Prop :=
  ∀ x b, store.find? x = some b → b.isArmed = true → mem x = trapInstruction

theorem storeAt_single (mem : UInt64 → UInt8) (a : UInt64) (v : UInt8) (x : UInt64) :
    storeAt mem a [v] x = if x = a then v else mem x := by
  unfold storeAt
  by_cases hx : x = a
  · subst hx
    simp
  · have : (x - a).toNat ≠ 0 := by
      intro h0
      apply hx
      have hxs := x.toNat_lt_size
      have has := a.toNat_lt_size
      rw [UInt64.toNat_sub] at h0
      simp only [UInt64.size] at hxs has h0
      apply UInt64.toNat_inj.1
      omega
    simp [hx, this]

/-- The logical memory changes only where the store or the memory changes. -/
theorem overlay_congr {st st' : BreakpointStore} {m m' : UInt64 → UInt8} (a : UInt64)
    (hfind : ∀ x, x ≠ a → st'.find? x = st.find? x) (hmem : ∀ x, x ≠ a → m' x = m x)
    (ha : overlay st' m' a = overlay st m a) : overlay st' m' = overlay st m := by
  funext x
  by_cases hx : x = a
  · rw [hx, ha]
  · simp only [overlay, hfind x hx, hmem x hx]

/-- Traps stay in memory where neither the store nor the memory changes. -/
theorem traps_congr {st st' : BreakpointStore} {m m' : UInt64 → UInt8} (a : UInt64)
    (hfind : ∀ x, x ≠ a → st'.find? x = st.find? x) (hmem : ∀ x, x ≠ a → m' x = m x)
    (ht : Traps st m) (ha : ∀ b, st'.find? a = some b → b.isArmed = true → m' a = trapInstruction) :
    Traps st' m' := by
  intro x b hb harmed
  by_cases hx : x = a
  · subst hx
    exact ha b hb harmed
  · rw [hmem x hx]
    exact ht x b (by rw [← hfind x hx]; exact hb) harmed

/-- Forgetting breakpoints one after another without restoring their bytes: the store stays
well formed with its traps in memory, and each logical byte is what it was or, at a forgotten
armed trap, the trap itself. -/
theorem overlay_foldl_removeAt (mem : UInt64 → UInt8) (V : UInt64 → UInt8) (T : List Address) :
    ∀ (L : List Address) (st : BreakpointStore), (∀ a ∈ L, a ∈ T) → st.WellFormed → Traps st mem →
      (∀ x, overlay st mem x = V x ∨ (x ∈ T ∧ overlay st mem x = trapInstruction)) →
      let st' := L.foldl (fun st a => (st.removeAt a).1) st
      st'.WellFormed ∧ Traps st' mem ∧ st'.lastId = st.lastId ∧
        ∀ x, overlay st' mem x = V x ∨ (x ∈ T ∧ overlay st' mem x = trapInstruction) := by
  intro L
  induction L with
  | nil => exact fun st _ hwf ht hv => ⟨hwf, ht, rfl, hv⟩
  | cons a L ih =>
    intro st hL hwf ht hv
    have hfind := BreakpointStore.find?_removeAt hwf a
    -- one removal: the logical byte at `a` falls back to memory, which holds the trap if it was armed
    have hstep : ∀ x, overlay (st.removeAt a).1 mem x = V x ∨
        (x ∈ T ∧ overlay (st.removeAt a).1 mem x = trapInstruction) := by
      intro x
      by_cases hx : x = a
      · subst hx
        cases hb : st.find? x with
        | none => simpa [overlay, hfind, hb] using hv x
        | some b =>
          cases harmed : b.isArmed with
          | true => exact .inr ⟨hL x List.mem_cons_self, by simp [overlay, hfind, ht x b hb harmed]⟩
          | false => simpa [overlay, hfind, hb, harmed] using hv x
      · simpa [overlay, hfind, hx] using hv x
    have htraps : Traps (st.removeAt a).1 mem := by
      intro x b hb harmed
      rw [hfind] at hb
      by_cases hx : x = a
      · simp [hx] at hb
      · rw [if_neg hx] at hb
        exact ht x b hb harmed
    obtain ⟨hwf', ht', hlast', hv'⟩ := ih (st.removeAt a).1 (fun b hb => hL b (List.mem_cons_of_mem a hb))
      (BreakpointStore.wellFormed_removeAt hwf a) htraps hstep
    exact ⟨hwf', ht', hlast'.trans (BreakpointStore.removeAt_lastId a), hv'⟩

/-! ## Reading under traps -/

/-- Below the top of the address space, the `i`-th address from `a` is the one `i` above it. -/
theorem add_toUInt64_eq_iff {a x : UInt64} {i : Nat} (hi : a.toNat + i < UInt64.size) :
    a + i.toUInt64 = x ↔ a ≤ x ∧ (x - a).toNat = i := by
  have hx := x.toNat_lt_size
  have hsum : (a + i.toUInt64).toNat = a.toNat + i := by
    simp only [UInt64.toNat_add, Nat.toUInt64_eq, UInt64.toNat_ofNat']
    rw [Nat.mod_eq_of_lt (show i < UInt64.size by omega), Nat.mod_eq_of_lt hi]
  rw [← UInt64.toNat_inj, hsum, UInt64.le_iff_toNat_le]
  constructor
  · intro h
    refine ⟨by omega, ?_⟩
    rw [UInt64.toNat_sub_of_le _ _ (UInt64.le_iff_toNat_le.2 (by omega))]
    omega
  · rintro ⟨hle, hd⟩
    rw [UInt64.toNat_sub_of_le _ _ (UInt64.le_iff_toNat_le.2 hle)] at hd
    omega

/-- One breakpoint's turn in putting back saved bytes, over bytes read without wrapping: the
saved byte of an armed breakpoint stands at its address. -/
theorem unpatch_step (mem : UInt64 → UInt8) {a : Address} {n : Nat} (h : a.toNat + n ≤ UInt64.size)
    (b : Breakpoint) :
    (match Address.relativeTo b.address a with
      | some off =>
        if b.isArmed ∧ off.toNat < (bytesAt mem a n).length then
          (bytesAt mem a n).set off.toNat b.savedByte
        else bytesAt mem a n
      | none => bytesAt mem a n) =
    bytesAt (fun x => if x = b.address ∧ b.isArmed then b.savedByte else mem x) a n := by
  apply List.ext_getElem
  · split
    · split <;> simp
    · simp
  intro i h1 h2
  have hi : i < n := by simpa using h2
  have key := @add_toUInt64_eq_iff a b.address i (by omega)
  unfold Address.relativeTo
  split
  · next hle =>
    simp only [length_bytesAt, getElem_bytesAt]
    split
    · next hc =>
      simp only [List.getElem_set, getElem_bytesAt]
      by_cases hoff : (b.address - a).toNat = i
      · simp [hoff, key.2 ⟨hle, hoff⟩, hc.1]
      · have hne : a + i.toUInt64 ≠ b.address := fun he => hoff (key.1 he).2
        simp [hoff, hne]
    · next hc =>
      -- either the breakpoint is not armed, or its address lies past the bytes read
      have hne : ¬ (a + i.toUInt64 = b.address ∧ b.isArmed = true) := by
        rintro ⟨he, harmed⟩
        exact hc ⟨harmed, by rw [(key.1 he).2]; exact hi⟩
      simp [hne]
  · next hlt =>
    have hne : a + i.toUInt64 ≠ b.address := fun he => hlt (key.1 he).1
    simp [getElem_bytesAt, hne]

/-- Putting back the saved bytes of a list of breakpoints at distinct addresses, over bytes read
without wrapping, gives the logical bytes. -/
theorem foldl_unpatch (a : Address) {n : Nat} (h : a.toNat + n ≤ UInt64.size) (lastId : UInt64) :
    ∀ (L : List Breakpoint) (mem : UInt64 → UInt8), (L.map (·.address)).Nodup →
      L.foldl (fun data b =>
        match Address.relativeTo b.address a with
        | some off =>
          if b.isArmed ∧ off.toNat < data.length then data.set off.toNat b.savedByte else data
        | none => data) (bytesAt mem a n) = bytesAt (overlay ⟨lastId, L⟩ mem) a n := by
  intro L
  induction L with
  | nil => intro mem _; rfl
  | cons b L ih =>
    intro mem hnd
    obtain ⟨hb, hL⟩ := List.nodup_cons.1 hnd
    rw [List.foldl_cons, unpatch_step mem h b, ih _ hL]
    -- the breakpoint's byte now stands in memory, and no later one shares its address
    congr 1
    funext x
    simp only [overlay, BreakpointStore.find?, List.find?_cons]
    by_cases hx : x = b.address
    · subst hx
      have hnone : L.find? (·.address == b.address) = none := by
        rw [List.find?_eq_none]
        intro e he heq
        exact hb (List.mem_map.2 ⟨e, he, by simpa using heq⟩)
      cases harmed : b.isArmed <;> simp [hnone, harmed]
    · have hbx : (b.address == x) = false := by simp [Ne.symm hx]
      cases L.find? (·.address == x) <;> simp [hbx, hx]

/-- Bytes read without wrapping, with the saved bytes put back, are the logical bytes. -/
theorem unpatch_bytesAt {store : BreakpointStore} (hs : store.WellFormed) (mem : UInt64 → UInt8)
    {a : Address} {n : Nat} (h : a.toNat + n ≤ UInt64.size) :
    RemoteSession.unpatch store a (bytesAt mem a n) = bytesAt (overlay store mem) a n :=
  foldl_unpatch a h store.lastId store.entries mem hs.addresses

/-! ## Writes over armed breakpoints -/

/-- Where a write of `data` at `address` covers the armed breakpoint `b`: the index of its byte
in `data`. -/
def patchOffset (address : Address) (data : List UInt8) (b : Breakpoint) : Option Nat :=
  match Address.relativeTo b.address address with
  | some off => if off.toNat < data.length ∧ b.isArmed then some off.toNat else none
  | none => none

/-- Without wrapping, a write covers an armed breakpoint exactly at its address. -/
theorem patchOffset_eq_some {address : Address} {data : List UInt8}
    (h : address.toNat + data.length ≤ UInt64.size) (b : Breakpoint) (i : Nat) :
    patchOffset address data b = some i ↔
      b.isArmed = true ∧ i < data.length ∧ address + i.toUInt64 = b.address := by
  unfold patchOffset Address.relativeTo
  by_cases hle : address ≤ b.address
  · simp only [hle, if_true]
    constructor
    · intro hs
      split at hs
      · next hc =>
        cases hs
        exact ⟨hc.2, hc.1, (add_toUInt64_eq_iff (by omega)).2 ⟨hle, rfl⟩⟩
      · cases hs
    · rintro ⟨harmed, hi, he⟩
      have hoff := ((add_toUInt64_eq_iff (by omega)).1 he).2
      rw [hoff, if_pos ⟨hi, harmed⟩]
  · simp only [hle, if_false, reduceCtorEq, false_iff]
    rintro ⟨_, hi, he⟩
    exact hle ((add_toUInt64_eq_iff (by omega)).1 he).1

/-- The store after a write's turn at `b`: a covered armed breakpoint remembers the byte written
over it. -/
def savePatched (address : Address) (data : List UInt8) (st : BreakpointStore) (b : Breakpoint) :
    BreakpointStore :=
  match patchOffset address data b with
  | some i => (st.setSavedByte b.address (data.getD i 0)).1
  | none => st

/-- The bytes to send after a write's turn at `b`: the trap stays over a covered armed
breakpoint. -/
def trapPatched (address : Address) (data : List UInt8) (p : List UInt8) (b : Breakpoint) :
    List UInt8 :=
  match patchOffset address data b with
  | some i => p.set i trapInstruction
  | none => p

section Patch

variable (address : Address) (data : List UInt8)

/-- Over breakpoints at distinct addresses, the write changes at most the saved byte of the
breakpoint at each address it covers. -/
theorem find?_foldl_savePatched :
    ∀ (L : List Breakpoint) (st : BreakpointStore), (L.map (·.address)).Nodup → ∀ x,
      (L.foldl (savePatched address data) st).find? x =
        match (L.find? (·.address == x)).bind (patchOffset address data) with
        | some i => (st.find? x).map ({ · with savedByte := data.getD i 0 })
        | none => st.find? x := by
  intro L
  induction L with
  | nil => intro st _ x; rfl
  | cons b L ih =>
    intro st hnd x
    obtain ⟨hb, hL⟩ := List.nodup_cons.1 hnd
    rw [List.foldl_cons, ih _ hL x]
    have hstep : (savePatched address data st b).find? x =
        if x = b.address then
          match patchOffset address data b with
          | some i => (st.find? x).map ({ · with savedByte := data.getD i 0 })
          | none => st.find? x
        else st.find? x := by
      unfold savePatched
      split
      · rw [BreakpointStore.find?_setSavedByte]
        split
        · next hx => rw [hx]
        · rfl
      · split <;> rfl
    by_cases hx : x = b.address
    · -- the breakpoint at `x` is `b`, and no later one
      subst hx
      have hnone : L.find? (·.address == b.address) = none := by
        rw [List.find?_eq_none]
        intro e he heq
        exact hb (List.mem_map.2 ⟨e, he, by simpa using heq⟩)
      rw [hnone, hstep, if_pos rfl]
      simp
    · have hbx : (b.address == x) = false := by simp [Ne.symm hx]
      rw [hstep, if_neg hx, List.find?_cons, hbx]

theorem length_foldl_trapPatched :
    ∀ (L : List Breakpoint) (p : List UInt8), (L.foldl (trapPatched address data) p).length = p.length := by
  intro L
  induction L with
  | nil => intro p; rfl
  | cons b L ih =>
    intro p
    rw [List.foldl_cons, ih]
    unfold trapPatched
    split <;> simp

/-- The bytes sent carry the trap wherever the write covers an armed breakpoint. -/
theorem getElem?_foldl_trapPatched :
    ∀ (L : List Breakpoint) (p : List UInt8) (j : Nat),
      (L.foldl (trapPatched address data) p)[j]? =
        if ∃ b ∈ L, patchOffset address data b = some j then p[j]?.map fun _ => trapInstruction
        else p[j]? := by
  intro L
  induction L with
  | nil => intro p j; simp
  | cons b L ih =>
    intro p j
    rw [List.foldl_cons, ih]
    unfold trapPatched
    cases hP : patchOffset address data b with
    | some i =>
      by_cases hij : i = j
      · subst hij
        have hex : ∃ b' ∈ b :: L, patchOffset address data b' = some i :=
          ⟨b, List.mem_cons_self, hP⟩
        simp only [hex, if_true, List.getElem?_set_self']
        split <;> simp <;> rfl
      · have hiff : (∃ b' ∈ b :: L, patchOffset address data b' = some j) ↔
            ∃ b' ∈ L, patchOffset address data b' = some j := by
          simp [hP, hij]
        simp only [hiff, List.getElem?_set_ne hij]
    | none =>
      have hiff : (∃ b' ∈ b :: L, patchOffset address data b' = some j) ↔
          ∃ b' ∈ L, patchOffset address data b' = some j := by
        simp [hP]
      simp only [hiff]

theorem savePatched_cases (st : BreakpointStore) (b : Breakpoint) :
    savePatched address data st b = st ∨
      ∃ byte, savePatched address data st b = (st.setSavedByte b.address byte).1 := by
  unfold savePatched
  split
  · exact .inr ⟨_, rfl⟩
  · exact .inl rfl

/-- Remembering written bytes keeps the store well formed, its ids and its temporary
breakpoints. -/
theorem foldl_savePatched_invariant :
    ∀ (L : List Breakpoint) (st : BreakpointStore), st.WellFormed →
      let st' := L.foldl (savePatched address data) st
      st'.WellFormed ∧ st'.lastId = st.lastId ∧ st'.temporaries = st.temporaries := by
  intro L
  induction L with
  | nil => intro st hs; exact ⟨hs, rfl, rfl⟩
  | cons b L ih =>
    intro st hs
    have hstep : (savePatched address data st b).WellFormed ∧
        (savePatched address data st b).lastId = st.lastId ∧
        (savePatched address data st b).temporaries = st.temporaries := by
      rcases savePatched_cases address data st b with h | ⟨byte, h⟩
      · rw [h]
        exact ⟨hs, rfl, rfl⟩
      · rw [h]
        exact ⟨BreakpointStore.wellFormed_setSavedByte hs _ _, by simp, by simp⟩
    obtain ⟨hwf, hlast, htemp⟩ := ih _ hstep.1
    exact ⟨hwf, hlast.trans hstep.2.1, htemp.trans hstep.2.2⟩

end Patch

theorem storeAt_eq_getD (mem : UInt64 → UInt8) (a : UInt64) (p : List UInt8) (x : UInt64) :
    storeAt mem a p x = p[(x - a).toNat]?.getD (mem x) := by
  unfold storeAt
  split
  · next h => simp [h]
  · next h => simp [List.getElem?_eq_none (Nat.le_of_not_lt h)]

theorem add_sub_toNat (a x : UInt64) : a + (x - a).toNat.toUInt64 = x := by
  rw [show (x - a).toNat.toUInt64 = x - a by simp, UInt64.add_comm, UInt64.sub_add_cancel]

/-- A write of `data` that does not wrap, with saved bytes and traps patched as the session does:
the logical memory holds `data` over the range written and is unchanged elsewhere, and the
traps of armed breakpoints stay in memory. -/
theorem overlay_patch {st : BreakpointStore} (hs : st.WellFormed) {mem : UInt64 → UInt8}
    (ht : Traps st mem) {address : Address} {data : List UInt8}
    (h : address.toNat + data.length ≤ UInt64.size) :
    let st' := st.entries.foldl (savePatched address data) st
    let mem' := storeAt mem address (st.entries.foldl (trapPatched address data) data)
    overlay st' mem' = storeAt (overlay st mem) address data ∧ Traps st' mem' := by
  intro st' mem'
  -- everything at `x` is decided by the breakpoint found there and the offset of `x`
  have hfind : ∀ x, st'.find? x =
      match (st.find? x).bind (patchOffset address data) with
      | some i => (st.find? x).map ({ · with savedByte := data.getD i 0 })
      | none => st.find? x :=
    find?_foldl_savePatched address data st.entries st hs.addresses
  have hcover : ∀ x, (∃ b ∈ st.entries, patchOffset address data b = some (x - address).toNat) →
      (st.find? x).bind (patchOffset address data) = some (x - address).toNat := by
    rintro x ⟨b, hb, hoff⟩
    obtain ⟨_, hj, he⟩ := (patchOffset_eq_some h b _).1 hoff
    rw [add_sub_toNat] at he
    subst he
    rw [BreakpointStore.find?_of_mem hs hb, Option.bind_some]
    exact hoff
  have hmem : ∀ x, mem' x =
      if ∃ b ∈ st.entries, patchOffset address data b = some (x - address).toNat then
        (data[(x - address).toNat]?.map fun _ => trapInstruction).getD (mem x)
      else data[(x - address).toNat]?.getD (mem x) := by
    intro x
    simp only [mem', storeAt_eq_getD, getElem?_foldl_trapPatched]
    split <;> rfl
  have hpoint : ∀ x, overlay st' mem' x = storeAt (overlay st mem) address data x ∧
      ∀ b, st'.find? x = some b → b.isArmed = true → mem' x = trapInstruction := by
    intro x
    cases hb : st.find? x with
    | none =>
      -- no breakpoint here: the byte written is the byte sent
      have hno : ¬ ∃ b ∈ st.entries, patchOffset address data b = some (x - address).toNat :=
        fun hex => by simpa [hb] using hcover x hex
      refine ⟨?_, fun b' hb' => by simp [hfind x, hb] at hb'⟩
      simp only [overlay, hfind x, hb, Option.bind_none, hmem x, if_neg hno, storeAt_eq_getD]
    | some b =>
      have hbx : b.address = x := (BreakpointStore.find?_some hb).2
      cases hP : patchOffset address data b with
      | some i =>
        -- an armed breakpoint under the write remembers the byte written; the trap is sent
        obtain ⟨harmed, hi, he⟩ := (patchOffset_eq_some h b i).1 hP
        have hij : (x - address).toNat = i := ((add_toUInt64_eq_iff (by omega)).1 (he.trans hbx)).2
        have hyes : ∃ b ∈ st.entries, patchOffset address data b = some (x - address).toNat :=
          ⟨b, (BreakpointStore.find?_some hb).1, by rw [hij]; exact hP⟩
        have hfx : st'.find? x = some { b with savedByte := data.getD i 0 } := by
          simp [hfind x, hb, hP]
        refine ⟨?_, fun b' hb' _ => ?_⟩
        · simp [overlay, hfx, Breakpoint.isArmed, ← harmed, storeAt_eq_getD, hij,
            List.getElem?_eq_getElem hi]
        · rw [hmem x, if_pos hyes]
          simp [hij, List.getElem?_eq_getElem hi]
      | none =>
        have hno : ¬ ∃ b ∈ st.entries, patchOffset address data b = some (x - address).toNat :=
          fun hex => by simpa [hb, hP] using hcover x hex
        have hfx : st'.find? x = some b := by simp [hfind x, hb, hP]
        cases harmed : b.isArmed with
        | true =>
          -- an armed breakpoint the write does not cover lies outside the range written
          have hout : ¬ (x - address).toNat < data.length := fun hlt => by
            have hcov := (patchOffset_eq_some h b _).2 ⟨harmed, hlt, by rw [add_sub_toNat, hbx]⟩
            rw [hP] at hcov
            cases hcov
          have hnone : data[(x - address).toNat]? = none := List.getElem?_eq_none (Nat.le_of_not_lt hout)
          refine ⟨?_, fun b' hb' _ => ?_⟩
          · simp [overlay, hfx, hb, harmed, storeAt_eq_getD, hnone]
          · simp [hmem x, hnone, ht x b hb harmed]
        | false =>
          refine ⟨?_, fun b' hb' harmed' => ?_⟩
          · simp [overlay, hfx, hb, harmed, storeAt_eq_getD, hmem x, if_neg hno]
          · rw [hfx, Option.some.injEq] at hb'
            rw [← hb', harmed] at harmed'
            cases harmed'
  exact ⟨funext fun x => (hpoint x).1, fun x b hb harmed => (hpoint x).2 b hb harmed⟩

end RemoteDebugger
