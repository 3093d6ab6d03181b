import RemoteDebugger.Proofs.Remote.RecordingClient
import RemoteDebugger.Proofs.Remote.SessionSteady

/-!
# What a failed update leaves behind

Over a `RecordingStub`, a failed install or removal leaves store and memory as they were, and a
failed write keeps every breakpoint's keys and every logical byte outside the range written.
-/

namespace RemoteDebugger

variable {σ : Type}

namespace RemoteSession

/-- The logical memory of a session over a recording stub: the stub's bytes, with the saved
byte under every armed trap. -/
def logicalView (s : RemoteSession (RecordingStub σ)) : Option (UInt64 → UInt8) :=
  s.host.map fun c => overlay s.breakpoints c.link.transport.memory

/-! ## Running the session's steps -/

section Generic

variable {τ : Type} [Transport τ]

omit [Transport τ] in
/-- The open-and-stopped check changes nothing: it passes on a stopped session with a
connection, and fails otherwise. -/
theorem ensureStopped_cases (s : RemoteSession τ) :
    (ensureStopped s = .ok () s ∧ ∃ c, s.host = some c) ∨ ∃ e, ensureStopped s = .error e s := by
  cases hst : s.state <;> cases hh : s.host <;> cases hr : s.running <;>
    simp [ensureStopped, ensureOpen, bind_apply, get_apply, hst, hh, hr, throw, throwThe,
      MonadExceptOf.throw, EStateM.throw, pure, EStateM.pure]

theorem endState_onHost {α : Type} {s : RemoteSession τ} {c : Client τ} (hc : s.host = some c)
    (m : ClientM τ α) : endState (onHost m s) = { s with host := some (endState (m c)) } := by
  rw [onHost_apply hc]
  cases m c <;> rfl

/-- Writing memory is bookkeeping first: each armed breakpoint under the range remembers the byte
written over it, and the bytes sent keep its trap. Then the bytes go out. -/
theorem writeMemory_of_stopped {s : RemoteSession τ} (h : ensureStopped s = .ok () s)
    (a : Address) (data : List UInt8) :
    writeMemory a data s =
      onHost (Client.writeMemory a (s.breakpoints.entries.foldl (trapPatched a data) data))
        { s with breakpoints := s.breakpoints.entries.foldl (savePatched a data) s.breakpoints } := by
  unfold writeMemory
  rw [bind_apply, h]
  simp only []
  rw [bind_apply, get_apply]
  simp only []
  -- each breakpoint's turn of the loop is pure bookkeeping, described by the two patch steps
  rw [bind_apply, forIn_yield_acc _ _ _
    (fun t b => { t with breakpoints := savePatched a data t.breakpoints b }) (trapPatched a data)
    ?_ s]
  · simp only [foldl_breakpoints, BreakpointStore.list]
  intro b p t
  unfold trapPatched savePatched patchOffset
  cases Address.relativeTo b.address a with
  | none => rfl
  | some off =>
    by_cases hc : off.toNat < data.length ∧ b.isArmed = true
    · simp only [hc, and_self, if_true, bind_apply, discard_apply, onStore_apply]
      rfl
    · simp only [hc, if_false]
      rfl

end Generic

/-! ## Logical bytes after a failed write -/

theorem patchOffset_some {a : Address} {data : List UInt8} {b : Breakpoint} {i : Nat}
    (h : patchOffset a data b = some i) :
    (b.address - a).toNat = i ∧ i < data.length ∧ b.isArmed = true := by
  unfold patchOffset Address.relativeTo at h
  split at h
  · next off hoff =>
    split at hoff
    · cases hoff
      split at h
      · next hc =>
        cases h
        exact ⟨rfl, hc.1, hc.2⟩
      · cases h
    · cases hoff
  · cases h

/-- A breakpoint the write covers at the offset of `y` sits at `y`. -/
theorem address_of_patchOffset {a y : Address} {data : List UInt8} {b : Breakpoint}
    (h : patchOffset a data b = some (y - a).toNat) : b.address = y := by
  have he := (patchOffset_some h).1
  have hsub : b.address - a = y - a := UInt64.toNat_inj.1 he
  simpa using congrArg (· + a) hsub

/-- When the stub's bytes are each as before or as sent, the logical bytes are each as before
or as written: under a covered armed breakpoint the saved byte is the byte written, and
elsewhere the bytes sent are the bytes written. -/
theorem overlay_oldOrNew {st : BreakpointStore} (hs : st.WellFormed) {mem mem' : UInt64 → UInt8}
    {a : Address} {data : List UInt8}
    (h : RecordingStub.OldOrNew mem mem' a (st.entries.foldl (trapPatched a data) data)) :
    RecordingStub.OldOrNew (overlay st mem) (overlay (st.entries.foldl (savePatched a data) st) mem')
      a data := by
  intro y
  have hfind := find?_foldl_savePatched a data st.entries st hs.addresses y
  have hlen := length_foldl_trapPatched a data st.entries data
  -- a byte sent differs from the byte written only under a covered breakpoint, which sits at `y`
  have hsent : ∀ (hj : (y - a).toNat < data.length),
      (∀ b, st.find? y = some b → patchOffset a data b ≠ some (y - a).toNat) →
      (st.entries.foldl (trapPatched a data) data)[(y - a).toNat]? = some data[(y - a).toNat] := by
    intro hj hno
    rw [getElem?_foldl_trapPatched, if_neg, List.getElem?_eq_getElem hj]
    rintro ⟨b, hb, hoff⟩
    have hy := address_of_patchOffset hoff
    exact hno b (by rw [← hy]; exact BreakpointStore.find?_of_mem hs hb) hoff
  have hentries : st.entries.find? (·.address == y) = st.find? y := rfl
  cases hb : st.find? y with
  | none =>
    have hf : (st.entries.foldl (savePatched a data) st).find? y = none := by simp [hfind, hentries, hb]
    rcases h y with hm | ⟨hj, hm⟩
    · exact .inl (by simp [overlay, hf, hb, hm])
    · have hj' : (y - a).toNat < data.length := by rwa [hlen] at hj
      have hget := hsent hj' (fun b' hb' => by simp [hb] at hb')
      rw [List.getElem?_eq_getElem hj, Option.some.injEq] at hget
      exact .inr ⟨hj', by simp [overlay, hf, hm, hget]⟩
  | some b =>
    cases hP : patchOffset a data b with
    | some i =>
      -- an armed breakpoint under the write remembers the byte written there
      obtain ⟨hi, hilen, harmed⟩ := patchOffset_some hP
      have hby : b.address = y := (BreakpointStore.find?_some hb).2
      have hf : (st.entries.foldl (savePatched a data) st).find? y =
          some { b with savedByte := data.getD i 0 } := by simp [hfind, hentries, hb, hP]
      have hiy : (y - a).toNat = i := by rw [← hby]; exact hi
      refine .inr ⟨by omega, ?_⟩
      simp [overlay, hf, Breakpoint.isArmed, ← harmed, hiy, List.getD_eq_getElem?_getD,
        List.getElem?_eq_getElem hilen]
    | none =>
      have hf : (st.entries.foldl (savePatched a data) st).find? y = some b := by
        simp [hfind, hentries, hb, hP]
      cases harmed : b.isArmed with
      | true => exact .inl (by simp [overlay, hf, hb, harmed])
      | false =>
        rcases h y with hm | ⟨hj, hm⟩
        · exact .inl (by simp [overlay, hf, hb, harmed, hm])
        · have hj' : (y - a).toNat < data.length := by rwa [hlen] at hj
          have hget := hsent hj' (fun b' hb' hoff => by
            rw [hb, Option.some.injEq] at hb'
            subst hb'
            rw [hP] at hoff
            cases hoff)
          rw [List.getElem?_eq_getElem hj, Option.some.injEq] at hget
          exact .inr ⟨hj', by simp [overlay, hf, harmed, hm, hget]⟩

/-- Remembering written bytes changes nothing else about a breakpoint. -/
theorem find?_foldl_savePatched_forget {st : BreakpointStore} (hs : st.WellFormed) (a : Address)
    (data : List UInt8) (y : Address) :
    ((st.entries.foldl (savePatched a data) st).find? y).map ({ · with savedByte := 0 }) =
      (st.find? y).map ({ · with savedByte := 0 }) := by
  rw [find?_foldl_savePatched a data st.entries st hs.addresses y]
  split
  · simp only [Option.map_map]
    rfl
  · rfl

/-! ## The three updates -/

/-- The stub's memory behind a session, if it is connected. -/
def stubMemory (s : RemoteSession (RecordingStub σ)) : Option (UInt64 → UInt8) :=
  s.host.map (·.link.transport.memory)

theorem logicalView_eq {s s' : RemoteSession (RecordingStub σ)}
    (hb : s'.breakpoints = s.breakpoints) (hm : stubMemory s' = stubMemory s) :
    logicalView s' = logicalView s := by
  unfold logicalView
  unfold stubMemory at hm
  cases h : s.host <;> cases h' : s'.host <;> simp_all

section Updates

variable {s : RemoteSession (RecordingStub σ)}

/-- A connection changed only by requests that left its memory alone. -/
theorem stubMemory_host {c c' : Client (RecordingStub σ)} (hc : s.host = some c)
    (hm : c'.link.transport.memory = c.link.transport.memory) :
    stubMemory { s with host := some c' } = stubMemory s := by
  simp [stubMemory, hc, hm]

/-- Installing a breakpoint that fails leaves the store and the stub's memory as they were:
a failed read has changed nothing, and the trap is written before the store records it. -/
theorem addBreakpoint_error (hq : ∀ c, s.host = some c → RecordingStub.Quiet c.link)
    {a : Address} {kind : BreakpointKind} {e : DebugError} {s' : RemoteSession (RecordingStub σ)}
    (h : addBreakpoint a kind s = .error e s') :
    s'.breakpoints = s.breakpoints ∧ stubMemory s' = stubMemory s := by
  unfold addBreakpoint at h
  rcases ensureStopped_cases s with ⟨hok, c, hc⟩ | ⟨e0, herr⟩
  · rw [bind_apply, hok] at h
    simp only [] at h
    rw [bind_apply, get_apply] at h
    simp only [] at h
    split at h
    · -- a breakpoint is there already: only the store changes, and nothing fails
      simp [onStore_apply] at h
    · have hread := RecordingStub.readMemory_keeps (hq c hc) a 1
      rw [bind_apply, onHost_apply hc] at h
      cases hr : Client.readMemory a 1 c with
      | error e1 c1 =>
        rw [hr] at h hread
        simp only [endState] at hread
        cases h
        exact ⟨rfl, stubMemory_host hc hread.2⟩
      | ok bytes c1 =>
        rw [hr] at h hread
        simp only [endState] at hread
        cases bytes with
        | nil =>
          cases h
          exact ⟨rfl, stubMemory_host hc hread.2⟩
        | cons saved rest =>
          -- the trap goes out; the store records only after it was accepted
          have hw := RecordingStub.writeMemory_piece hread.1.quiet a
            (List.cons_ne_nil trapInstruction []) (by simp [maxMemoryChunk])
          simp only [] at h
          rw [bind_apply, onHost_apply rfl] at h
          split at hw
          · rw [hw] at h
            simp [onStore_apply] at h
          · obtain ⟨e2, he2⟩ := hw
            rw [he2] at h
            cases h
            refine ⟨rfl, stubMemory_host hc ?_⟩
            simp only [Client.withTransport, RecordingStub.handle_writeRequest_memory, if_neg ‹_›]
            exact hread.2
  · rw [bind_apply, herr] at h
    cases h
    exact ⟨rfl, rfl⟩

/-- Removing a breakpoint that fails leaves the store and the stub's memory as they were: its
byte is restored before the store forgets it. -/
theorem removeBreakpoint_error (hq : ∀ c, s.host = some c → RecordingStub.Quiet c.link)
    {a : Address} {e : DebugError} {s' : RemoteSession (RecordingStub σ)}
    (h : removeBreakpoint a s = .error e s') :
    s'.breakpoints = s.breakpoints ∧ stubMemory s' = stubMemory s := by
  unfold removeBreakpoint at h
  rcases ensureStopped_cases s with ⟨hok, c, hc⟩ | ⟨e0, herr⟩
  · rw [bind_apply, hok] at h
    simp only [] at h
    rw [bind_apply] at h
    cases hb : s.breakpoints.find? a with
    | none =>
      rw [disarm_none hb] at h
      cases h
      exact ⟨rfl, rfl⟩
    | some b =>
      by_cases harmed : b.state = .armed
      · have hw := RecordingStub.writeMemory_piece (hq c hc) a
          (List.cons_ne_nil b.savedByte []) (by simp [maxMemoryChunk])
        have hdisarm : disarm a s = (do
            onHost (Client.writeMemory a [b.savedByte])
            discard <| onStore (·.setState a .suspended)) s := by
          simp only [disarm, bind_apply, get_apply, hb, harmed, if_true]
        rw [hdisarm, bind_apply, onHost_apply hc] at h
        split at hw
        · rw [hw] at h
          simp [discard_apply, onStore_apply] at h
        · obtain ⟨e2, he2⟩ := hw
          rw [he2] at h
          cases h
          refine ⟨rfl, stubMemory_host hc ?_⟩
          simp only [Client.withTransport, RecordingStub.handle_writeRequest_memory, if_neg ‹_›]
      · rw [disarm_of_not_armed hb harmed] at h
        simp [discard_apply, onStore_apply] at h
  · rw [bind_apply, herr] at h
    cases h
    exact ⟨rfl, rfl⟩

/-- A write of memory that fails keeps every breakpoint but for its saved byte, and leaves each
logical byte as it was or as written. -/
theorem writeMemory_error (hq : ∀ c, s.host = some c → RecordingStub.Quiet c.link)
    (hwf : s.breakpoints.WellFormed) {a : Address} {data : List UInt8} {e : DebugError}
    {s' : RemoteSession (RecordingStub σ)} (hlen : data.length ≤ UInt64.size)
    (h : writeMemory a data s = .error e s') :
    s'.breakpoints.lastId = s.breakpoints.lastId ∧
      (∀ y, (s'.breakpoints.find? y).map ({ · with savedByte := 0 }) =
        (s.breakpoints.find? y).map ({ · with savedByte := 0 })) ∧
      ∀ V, logicalView s = some V → ∃ V', logicalView s' = some V' ∧ RecordingStub.OldOrNew V V' a data := by
  rcases ensureStopped_cases s with ⟨hok, c, hc⟩ | ⟨e0, herr⟩
  · rw [writeMemory_of_stopped hok] at h
    have hP : (s.breakpoints.entries.foldl (trapPatched a data) data).length ≤ UInt64.size := by
      rw [length_foldl_trapPatched]
      exact hlen
    obtain ⟨st', hst'⟩ : ∃ st', st' = s.breakpoints.entries.foldl (savePatched a data) s.breakpoints :=
      ⟨_, rfl⟩
    rw [← hst'] at h
    have hc' : ({ s with breakpoints := st' } : RemoteSession (RecordingStub σ)).host = some c := hc
    obtain ⟨hl, hm⟩ := RecordingStub.writeMemory_oldOrNew (hq c hc) a _ hP
    rw [onHost_apply hc'] at h
    cases hr : Client.writeMemory a (s.breakpoints.entries.foldl (trapPatched a data) data) c with
    | ok u c1 =>
      rw [hr] at h
      cases h
    | error e1 c1 =>
      rw [hr] at h hm
      cases h
      subst hst'
      refine ⟨(foldl_savePatched_invariant a data _ _ hwf).2.1,
        find?_foldl_savePatched_forget hwf a data, fun V hV => ?_⟩
      simp only [logicalView, hc, Option.map_some, Option.some.injEq] at hV
      subst hV
      exact ⟨_, rfl, overlay_oldOrNew hwf hm⟩
  · unfold writeMemory at h
    rw [bind_apply, herr] at h
    cases h
    exact ⟨rfl, fun _ => rfl, fun V hV => ⟨V, hV, RecordingStub.OldOrNew.refl _ _ _⟩⟩

/-- Installing, removing or writing that fails. Installing or removing a breakpoint that fails
leaves the store and the logical memory as they were. A write of memory that fails keeps the
last id and every breakpoint's id, address, kind, state and hit count, and leaves each logical
byte as it was or as written there: its saved bytes are taken before the write goes out, and
the pieces of the write before a refused one stay written. -/
theorem failed_update_keeps_store
    (hq : ∀ c, s.host = some c → RecordingStub.Quiet c.link) (hwf : s.breakpoints.WellFormed) :
    (∀ a kind e s', addBreakpoint a kind s = .error e s' →
        s'.breakpoints = s.breakpoints ∧ logicalView s' = logicalView s) ∧
    (∀ a e s', removeBreakpoint a s = .error e s' →
        s'.breakpoints = s.breakpoints ∧ logicalView s' = logicalView s) ∧
    ∀ a data e s', data.length ≤ UInt64.size → writeMemory a data s = .error e s' →
      s'.breakpoints.lastId = s.breakpoints.lastId ∧
      (∀ y, (s'.breakpoints.find? y).map ({ · with savedByte := 0 }) =
        (s.breakpoints.find? y).map ({ · with savedByte := 0 })) ∧
      ∀ V, logicalView s = some V → ∃ V', logicalView s' = some V' ∧ RecordingStub.OldOrNew V V' a data := by
  refine ⟨fun a kind e s' h => ?_, fun a e s' h => ?_, fun a data e s' hlen h => ?_⟩
  · obtain ⟨hb, hm⟩ := addBreakpoint_error hq h
    exact ⟨hb, logicalView_eq hb hm⟩
  · obtain ⟨hb, hm⟩ := removeBreakpoint_error hq h
    exact ⟨hb, logicalView_eq hb hm⟩
  · exact writeMemory_error hq hwf hlen h

end Updates

/-- A stub whose memory is mapped from `0x1000` to `0x17ff`, holding `0x90` there. It gives the registers as zeros and an empty reply to every other
request. -/
def pageStub : RecordingStub Unit where
  memory := fun _ => 0x90
  mapped := fun y => 0x1000 ≤ y && y < 0x1800
  target := ()
  execute := fun _ request =>
    ((), if request = Client.text "g" then some (Hex.digits (List.replicate Registers.gdbMinBytes 0))
      else some [])

/-- A network on which every connection reaches `pageStub`. -/
def pageNetwork : Network (RecordingStub Unit) where
  lookup := fun _ => .ok []
  connect := fun _ => .ok pageStub

/-- A session opened on `pageNetwork` with a user breakpoint at the last mapped byte. -/
def pageSession : RemoteSession (RecordingStub Unit) :=
  endState (addBreakpoint 0x17ff .user (endState («open» pageNetwork "127.0.0.1:1" (new {}))))

theorem pageSession_quiet : ∀ c, pageSession.host = some c → RecordingStub.Quiet c.link := by
  have h : pageSession.host.map (fun c => decide (RecordingStub.Quiet c.link)) = some true := by
    decide +kernel
  intro c hc
  rw [hc] at h
  simpa using h

theorem failed_update_keeps_store_pageSession :
    (∀ a kind e s', addBreakpoint a kind pageSession = .error e s' →
        s'.breakpoints = pageSession.breakpoints ∧ logicalView s' = logicalView pageSession) ∧
    (∀ a e s', removeBreakpoint a pageSession = .error e s' →
        s'.breakpoints = pageSession.breakpoints ∧ logicalView s' = logicalView pageSession) ∧
    ∀ a data e s', data.length ≤ UInt64.size → writeMemory a data pageSession = .error e s' →
      s'.breakpoints.lastId = pageSession.breakpoints.lastId ∧
      (∀ y, (s'.breakpoints.find? y).map ({ · with savedByte := 0 }) =
        (pageSession.breakpoints.find? y).map ({ · with savedByte := 0 })) ∧
      ∀ V, logicalView pageSession = some V →
        ∃ V', logicalView s' = some V' ∧ RecordingStub.OldOrNew V V' a data :=
  failed_update_keeps_store pageSession_quiet ⟨by decide +kernel, by decide +kernel, by decide +kernel⟩

/-- A failed write is not undone. Two bytes written from the breakpoint at `0x17ff` run into
unmapped memory and are refused, yet the logical byte at `0x17ff` has become the byte
written: the breakpoint took it as its saved byte before the write went out. -/
theorem failed_write_not_undone :
    (logicalView pageSession).map (· 0x17ff) = some 0x90 ∧
    (match writeMemory 0x17ff [1, 2] pageSession with
      | .error _ _ => true
      | .ok _ _ => false) = true ∧
    (logicalView (endState (writeMemory 0x17ff [1, 2] pageSession))).map (· 0x17ff) = some 1 := by
  refine ⟨?_, ?_, ?_⟩
  all_goals decide +kernel

end RemoteSession

end RemoteDebugger
