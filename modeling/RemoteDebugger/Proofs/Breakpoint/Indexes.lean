import RemoteDebugger.Proofs.Breakpoint.Lookup
import Mathlib.Data.Finset.Card

/-!
# The two indexes of a breakpoint store

Along every sequence of calls that installs fewer than `2 ^ 64` times, a store stays `Ordered`
and its two indexes, by id and by address, are inverse to each other (`Indexed`).
-/

namespace RemoteDebugger

/-- The breakpoint with one more hit, the count stopping at the top of the word. -/
def Breakpoint.withHit (b : Breakpoint) : Breakpoint :=
  { b with hitCount := UInt64.ofNat (min (b.hitCount.toNat + 1) (UInt64.size - 1)) }

namespace BreakpointStore

/-- One call on a store, with its arguments. -/
inductive Call where
  | insert (a : Address) (kind : BreakpointKind) (saved : UInt8)
  | get (id : UInt64)
  | find (a : Address)
  | setState (a : Address) (state : BreakpointState)
  | setSavedByte (a : Address) (byte : UInt8)
  | remove (id : UInt64)
  | removeAt (a : Address)
  | recordHit (a : Address)
  | drain

namespace Call

/-- The store a call leaves; lookups leave it as it is. -/
def apply : Call → BreakpointStore → BreakpointStore
  | .insert a kind saved, s => (s.insert a kind saved).1
  | .get _, s => s
  | .find _, s => s
  | .setState a state, s => (s.setState a state).1
  | .setSavedByte a byte, s => (s.setSavedByte a byte).1
  | .remove id, s => (s.remove id).1
  | .removeAt a, s => (s.removeAt a).1
  | .recordHit a, s => (s.recordHit a).1
  | .drain, s => s.drain.1

/-- Whether a call installs a breakpoint. -/
def isInsert : Call → Bool
  | .insert .. => true
  | _ => false

/-- The id a call hands out: an installation at an address where nothing is installed. -/
def fresh : Call → BreakpointStore → Option UInt64
  | .insert a kind saved, s => if s.find? a = none then some (s.insert a kind saved).2 else none
  | _, _ => none

end Call

/-- The store after a sequence of calls. -/
def runCalls (s : BreakpointStore) (calls : List Call) : BreakpointStore :=
  calls.foldl (fun s c => c.apply s) s

/-- The ids a sequence of calls hands out, in order. -/
def allocated : BreakpointStore → List Call → List UInt64
  | _, [] => []
  | s, c :: cs => (c.fresh s).toList ++ allocated (c.apply s) cs

/-- A well-formed store whose breakpoints stand in strictly increasing id order. -/
structure Ordered (s : BreakpointStore) : Prop where
  wellFormed : s.WellFormed
  increasing : s.entries.Pairwise (·.id.toNat < ·.id.toNat)

theorem ordered_empty : ({} : BreakpointStore).Ordered :=
  ⟨wellFormed_empty, List.Pairwise.nil⟩

/-! ## Every call keeps a store ordered -/

section Steps

variable {s : BreakpointStore}

/-- A change that keeps ids and addresses keeps a store ordered. -/
theorem Ordered.modifyAt (hs : s.Ordered) (a : Address) (f : Breakpoint → Breakpoint)
    (hfa : ∀ e, (f e).address = e.address) (hfi : ∀ e, (f e).id = e.id) :
    (s.modifyAt a f).1.Ordered := by
  refine ⟨wellFormed_modifyAt hs.wellFormed a f hfa hfi, ?_⟩
  rcases modifyAt_entries s a f with h | h
  · rw [h]
    exact hs.increasing
  · rw [h, List.pairwise_map]
    -- the changed breakpoints keep their ids
    have hid : ∀ e, (if e.address == a then f e else e).id = e.id := by
      intro e
      by_cases he : e.address = a <;> simp [he, hfi]
    simpa only [hid] using hs.increasing

/-- Keeping a part of the breakpoints keeps a store ordered. -/
theorem Ordered.filter (hs : s.Ordered) (p : Breakpoint → Bool) :
    ({ s with entries := s.entries.filter p } : BreakpointStore).Ordered :=
  ⟨⟨(List.filter_sublist.map _).nodup hs.wellFormed.addresses,
    (List.filter_sublist.map _).nodup hs.wellFormed.ids,
    fun e he => hs.wellFormed.bounded e (List.mem_of_mem_filter he)⟩,
   hs.increasing.sublist List.filter_sublist⟩

theorem Ordered.remove (hs : s.Ordered) (id : UInt64) : (s.remove id).1.Ordered := by
  unfold BreakpointStore.remove
  split
  · exact hs
  · exact hs.filter _

theorem Ordered.removeAt (hs : s.Ordered) (a : Address) : (s.removeAt a).1.Ordered := by
  unfold BreakpointStore.removeAt
  split
  · exact hs
  · exact hs.remove _

/-- Installing keeps a store ordered while ids do not run out: a new breakpoint comes last,
with an id above every other. -/
theorem Ordered.insert (hs : s.Ordered) (a : Address) (kind : BreakpointKind) (saved : UInt8)
    (hlast : s.lastId.toNat + 1 < UInt64.size) : (s.insert a kind saved).1.Ordered := by
  refine ⟨wellFormed_insert hs.wellFormed a kind saved hlast, ?_⟩
  unfold BreakpointStore.insert
  split
  · split
    · exact (hs.modifyAt a (fun e => { e with kind := .user }) (fun _ => rfl)
        (fun _ => rfl)).increasing
    · exact hs.increasing
  · have hnext : (s.lastId + 1).toNat = s.lastId.toNat + 1 := by
      rw [UInt64.toNat_add, UInt64.toNat_one, Nat.mod_eq_of_lt hlast]
    refine List.pairwise_append.2 ⟨hs.increasing, List.pairwise_singleton _ _, ?_⟩
    intro e he n hn
    rw [List.mem_singleton.1 hn, hnext]
    exact Nat.lt_succ_of_le (hs.wellFormed.bounded e he)

theorem Ordered.recordHit (hs : s.Ordered) (a : Address) : (s.recordHit a).1.Ordered := by
  rcases recordHit_eq s a with h | ⟨f, hf, h⟩
  · rw [h]
    exact hs
  · rw [h]
    exact hs.modifyAt a f (fun e => by rw [hf e]) (fun e => by rw [hf e])

theorem ordered_drain (s : BreakpointStore) : s.drain.1.Ordered :=
  ⟨⟨List.nodup_nil, List.nodup_nil, fun _ hb => nomatch hb⟩, List.Pairwise.nil⟩

/-- Installing at a taken address maps the breakpoints, promoting the one there on a user
request. -/
theorem insert_of_find? {a : Address} {b : Breakpoint} (h : s.find? a = some b)
    (kind : BreakpointKind) (saved : UInt8) :
    s.insert a kind saved = ({ s with entries := s.entries.map fun e =>
      if e.address = a ∧ kind = .user then { e with kind := .user } else e }, b.id) := by
  unfold BreakpointStore.insert
  simp only [h]
  by_cases hk : kind = .user
  · simp [hk, modifyAt, h]
  · simp [hk]

/-- Installing at a free address adds the breakpoint last, with the id after the last. -/
theorem insert_of_none {a : Address} (h : s.find? a = none) (kind : BreakpointKind)
    (saved : UInt8) :
    s.insert a kind saved = ({ lastId := s.lastId + 1, entries := s.entries ++
      [{ id := s.lastId + 1, address := a, kind, savedByte := saved }] }, s.lastId + 1) := by
  simp only [BreakpointStore.insert, h]

@[simp] theorem remove_lastId (id : UInt64) : (s.remove id).1.lastId = s.lastId := by
  unfold BreakpointStore.remove
  split <;> rfl

@[simp] theorem recordHit_lastId (a : Address) : (s.recordHit a).1.lastId = s.lastId := by
  rcases recordHit_eq s a with h | ⟨f, -, h⟩ <;> simp [h]

/-- Only an installation at a free address hands out an id, the one after the last. -/
theorem Call.apply_lastId (c : Call) (s : BreakpointStore) :
    (c.apply s).lastId = if (c.fresh s).isSome then s.lastId + 1 else s.lastId := by
  cases c with
  | insert a kind saved =>
    simp only [apply, fresh]
    rcases Option.eq_none_or_eq_some (s.find? a) with h | ⟨b, h⟩
    · simp [insert_of_none h, h]
    · simp [insert_of_find? h, h]
  | drain => rfl
  | _ => simp [apply, fresh]

/-- The id handed out is the new last id. -/
theorem Call.fresh_eq_lastId {c : Call} {s : BreakpointStore} {id : UInt64}
    (h : c.fresh s = some id) : id = (c.apply s).lastId := by
  cases c with
  | insert a kind saved =>
    simp only [fresh] at h
    split at h
    · next hn =>
      cases h
      simp only [apply, insert_of_none hn]
    · cases h
  | _ => cases h

theorem Call.ordered_apply (c : Call) (hs : s.Ordered)
    (hlast : s.lastId.toNat + (if c.isInsert then 1 else 0) < UInt64.size) :
    (c.apply s).Ordered := by
  cases c with
  | insert a kind saved => exact hs.insert a kind saved (by simpa [isInsert] using hlast)
  | get => exact hs
  | find => exact hs
  | setState a state => exact hs.modifyAt a _ (fun _ => rfl) (fun _ => rfl)
  | setSavedByte a byte => exact hs.modifyAt a _ (fun _ => rfl) (fun _ => rfl)
  | remove id => exact hs.remove id
  | removeAt a => exact hs.removeAt a
  | recordHit a => exact hs.recordHit a
  | drain => exact ordered_drain s

/-- A call raises the last id by one if it hands one out, which only an installation does, and
leaves it otherwise. -/
theorem Call.lastId_apply (c : Call) (s : BreakpointStore)
    (hlast : s.lastId.toNat + (if c.isInsert then 1 else 0) < UInt64.size) :
    (c.apply s).lastId.toNat = s.lastId.toNat + (c.fresh s).toList.length ∧
      (c.fresh s).toList.length ≤ (if c.isInsert then 1 else 0) := by
  rw [c.apply_lastId s]
  cases hf : c.fresh s with
  | none => simp
  | some id =>
    cases c with
    | insert =>
      simp only [isInsert, if_true] at hlast
      simp [UInt64.toNat_add, Nat.mod_eq_of_lt hlast, isInsert]
    | _ => cases hf

end Steps

/-! ## Runs of calls -/

/-- Along a run that installs few enough times, the store stays ordered, the last id rises by
the number of ids handed out, and each id handed out lies above the last id before the run and
at most at the last id after it, the ids rising strictly. -/
theorem ordered_runCalls (calls : List Call) :
    ∀ s : BreakpointStore, s.Ordered →
      s.lastId.toNat + calls.countP Call.isInsert < UInt64.size →
      (runCalls s calls).Ordered ∧
      (runCalls s calls).lastId.toNat = s.lastId.toNat + (allocated s calls).length ∧
      (allocated s calls).length ≤ calls.countP Call.isInsert ∧
      (allocated s calls).Pairwise (·.toNat < ·.toNat) ∧
      ∀ id ∈ allocated s calls, s.lastId.toNat < id.toNat := by
  induction calls with
  | nil =>
    intro s hs _
    exact ⟨hs, rfl, Nat.zero_le _, List.Pairwise.nil, fun _ h => nomatch h⟩
  | cons c cs ih =>
    intro s hs hbound
    -- the call itself installs at most once, so the rest of the run keeps within the bound
    rw [List.countP_cons] at hbound ⊢
    have hlast : s.lastId.toNat + (if c.isInsert then 1 else 0) < UInt64.size := by omega
    obtain ⟨hstep, hfresh⟩ := c.lastId_apply s hlast
    obtain ⟨ho, hl, hlen, hinc, hbelow⟩ :=
      ih (c.apply s) (c.ordered_apply hs hlast) (by omega)
    -- an id handed out by the call is one past the last id before it, below the rest
    have hnew : ∀ id ∈ (c.fresh s).toList, id.toNat = s.lastId.toNat + 1 ∧
        id.toNat = (c.apply s).lastId.toNat := by
      intro id hid
      cases hf : c.fresh s with
      | none => simp [hf] at hid
      | some n =>
        simp only [hf, Option.toList_some, List.mem_singleton] at hid hstep
        rw [hid, Call.fresh_eq_lastId hf]
        simp only [List.length_singleton] at hstep
        exact ⟨hstep, rfl⟩
    simp only [runCalls, List.foldl_cons, allocated, List.length_append, List.mem_append] at hl ⊢
    refine ⟨ho, by omega, by omega, ?_, ?_⟩
    · refine List.pairwise_append.2 ⟨?_, hinc, ?_⟩
      · cases c.fresh s <;> simp
      · intro id hid id' hid'
        have := hbelow id' hid'
        have := (hnew id hid).2
        omega
    · rintro id (hid | hid)
      · have := (hnew id hid).1
        omega
      · have := hbelow id hid
        omega

/-! ## What an ordered store answers -/

/-- The laws of a store's lookups and of its installing and hit counting: the id and address
indexes are inverse, the breakpoint found at an address is the one there, the size counts the
distinct addresses, the temporary breakpoints are listed in id order, installing at a taken
address returns its id and at most promotes it to a user breakpoint, and a hit counts only on
an armed breakpoint, saturating. -/
structure Indexed (s : BreakpointStore) : Prop where
  /-- The breakpoint with an id carries that id and is found at its address. -/
  byId : ∀ id b, s.get id = some b → b.id = id ∧ (s.find? b.address).map (·.id) = some id
  /-- The id found at an address is that of a breakpoint with that address. -/
  byAddress : ∀ a id, (s.find? a).map (·.id) = some id → (s.get id).map (·.address) = some a
  /-- What is found at an address is the one breakpoint listed there. -/
  find?_iff : ∀ a b, s.find? a = some b ↔ b ∈ s.list ∧ b.address = a
  /-- The size is the number of distinct addresses. -/
  size_eq : s.size = (s.list.map (·.address)).toFinset.card
  /-- The temporary breakpoints, listed in id order. -/
  temporaries : ∃ L : List Breakpoint, L.Pairwise (·.id.toNat < ·.id.toNat) ∧
    (∀ b, b ∈ L ↔ b ∈ s.list ∧ b.kind = .temporary) ∧ s.temporaries = L.map (·.address)
  /-- Installing at a taken address returns its id and changes at most that breakpoint's kind,
  to user, on a user request. -/
  insert_taken : ∀ a kind saved b, s.find? a = some b →
    s.insert a kind saved = ({ s with entries := s.entries.map fun e =>
      if e.address = a ∧ kind = .user then { e with kind := .user } else e }, b.id)
  /-- A hit counts only on an armed breakpoint, saturating. -/
  recordHit : ∀ a, s.recordHit a =
    ({ s with entries := s.entries.map fun e =>
        if e.address = a ∧ e.isArmed = true then e.withHit else e },
      ((s.find? a).filter (·.isArmed)).map Breakpoint.withHit)

section Answers

variable {s : BreakpointStore}

theorem get_some {id : UInt64} {b : Breakpoint} (h : s.get id = some b) :
    b ∈ s.entries ∧ b.id = id := by
  unfold get at h
  exact ⟨List.mem_of_find?_eq_some h, by simpa using List.find?_some h⟩

/-- The saturating count of the code is the count plus one, capped at the top of the word. -/
theorem saturating_succ (n : UInt64) :
    (if n = UInt64.ofNat (UInt64.size - 1) then n else n + 1) =
      UInt64.ofNat (min (n.toNat + 1) (UInt64.size - 1)) := by
  have hn := n.toNat_lt
  split
  · next h =>
    subst h
    rfl
  · next h =>
    have hsize : UInt64.size = 18446744073709551616 := rfl
    have hne : n.toNat ≠ UInt64.size - 1 := by
      intro he
      apply h
      apply UInt64.toNat_inj.1
      rw [he]
      rfl
    apply UInt64.toNat_inj.1
    rw [UInt64.toNat_add, UInt64.toNat_one, UInt64.toNat_ofNat_of_lt' (by omega),
      Nat.min_eq_left (by omega), Nat.mod_eq_of_lt (by omega)]

/-- On a well-formed store, counting a hit changes the armed breakpoint at the address, if
there is one, and nothing else. -/
theorem recordHit_of_wellFormed (hs : s.WellFormed) (a : Address) :
    s.recordHit a =
      ({ s with entries := s.entries.map fun e =>
          if e.address = a ∧ e.isArmed = true then e.withHit else e },
        ((s.find? a).filter (·.isArmed)).map Breakpoint.withHit) := by
  have hbump : ∀ e : Breakpoint, { e with hitCount := (if e.hitCount =
      UInt64.ofNat (UInt64.size - 1) then e.hitCount else e.hitCount + 1) } = e.withHit := by
    intro e
    rw [saturating_succ]
    rfl
  -- a change that touches no breakpoint leaves the store as it is
  have hkeep : ∀ g : Breakpoint → Breakpoint, (∀ e ∈ s.entries, g e = e) →
      ({ s with entries := s.entries.map g } : BreakpointStore) = s := by
    intro g hg
    rw [(List.map_congr_left hg).trans (List.map_id _)]
  unfold BreakpointStore.recordHit
  cases h : s.find? a with
  | none =>
    -- nothing is at the address, so no breakpoint changes
    have hnone : ∀ e ∈ s.entries, e.address ≠ a := by
      intro e he hea
      rw [← hea, find?_of_mem hs he] at h
      cases h
    simp only [Option.filter_none, Option.map_none]
    rw [hkeep _ fun e he => by simp [hnone e he]]
  | some b =>
    obtain ⟨hb, rfl⟩ := find?_some h
    -- the breakpoint found is the only one at its address
    have honly : ∀ e ∈ s.entries, e.address = b.address → e = b := fun e he hea =>
      List.inj_on_of_nodup_map hs.addresses he hb hea
    by_cases harm : b.isArmed = true
    · simp only [harm, if_true, modifyAt, h, Option.filter_some, Option.map_some, hbump]
      congr 2
      refine List.map_congr_left fun e he => ?_
      by_cases hea : e.address = b.address
      · obtain rfl := honly e he hea
        simp [harm]
      · simp [hea]
    · simp only [harm, Bool.false_eq_true, if_false, Option.filter_some, Option.map_none]
      refine (congrArg (·, none) (hkeep _ fun e he => ?_)).symm
      by_cases hea : e.address = b.address
      · obtain rfl := honly e he hea
        simp [harm]
      · simp [hea]

/-- An ordered store answers as its two indexes promise. -/
theorem Ordered.indexed (hs : s.Ordered) : s.Indexed where
  byId id b h := by
    obtain ⟨hb, rfl⟩ := get_some h
    exact ⟨rfl, by rw [find?_of_mem hs.wellFormed hb]; rfl⟩
  byAddress a id h := by
    obtain ⟨b, hfind, rfl⟩ := Option.map_eq_some_iff.1 h
    obtain ⟨hb, rfl⟩ := find?_some hfind
    rw [get_of_mem hs.wellFormed hb]
    rfl
  find?_iff a b := find?_eq_some_iff hs.wellFormed
  size_eq := by
    rw [list, List.toFinset_card_of_nodup hs.wellFormed.addresses, List.length_map]
    rfl
  temporaries := by
    refine ⟨s.entries.filter (·.isTemporary), hs.increasing.sublist List.filter_sublist,
      fun b => ?_, rfl⟩
    simp [List.mem_filter, list, Breakpoint.isTemporary]
  insert_taken a kind saved b h := insert_of_find? h kind saved
  recordHit a := recordHit_of_wellFormed hs.wellFormed a

end Answers

/-- A run that promotes a temporary breakpoint, counts a hit and removes one. -/
def sampleCalls : List Call :=
  [.insert 0x1000 .user 0x55, .insert 0x2000 .temporary 0x90, .insert 0x1000 .user 0xCC,
   .insert 0x2000 .user 0x90, .recordHit 0x1000, .removeAt 0x1000, .insert 0x3000 .temporary 1]

end BreakpointStore

end RemoteDebugger
