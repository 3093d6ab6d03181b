import RemoteDebugger.Proofs.Remote.SessionSteady

/-!
# What the session commands do to the logical memory

From a ready session, steps and reports of the current stop land, continuing and polling go,
installing and removing keep the logical memory, and reads and writes that do not wrap see and
change exactly its bytes.
-/

namespace RemoteDebugger

variable {σ : Type}

namespace RemoteSession

/-! ## Stopped sessions -/

/-- Run from a ready session whose target is stopped, `m` leaves the target stopped and the
logical memory settled. -/
def Lands {α : Type} (m : SessionM (MemoryStub σ) α) : Prop :=
  ∀ s c, Ready s c → s.running = false →
    Settles s (endState (m s)) ∧ (endState (m s)).running = false

section Lands

variable {α β : Type}

theorem Steady.lands {m : SessionM (MemoryStub σ) α} (hm : Steady m) : Lands m := fun s c hs hr =>
  have k := hm s c hs
  ⟨k.settles, k.running.trans hr⟩

theorem steady_bind_lands {m : SessionM (MemoryStub σ) α} {f : α → SessionM (MemoryStub σ) β}
    (hm : Steady m) (hf : ∀ a, Lands (f a)) : Lands (m >>= f) := by
  intro s c hs hr
  have k := hm s c hs
  cases h : m s with
  | ok a s' =>
    rw [h] at k
    obtain ⟨c', hs'⟩ := k.ready
    obtain ⟨hset, hrun⟩ := hf a s' c' hs' (k.running.trans hr)
    rw [bind_apply, h]
    exact ⟨k.trans_settles hset, hrun⟩
  | error e s' =>
    rw [h] at k
    rw [bind_apply, h]
    exact ⟨k.settles, k.running.trans hr⟩

theorem lands_bind_steady {m : SessionM (MemoryStub σ) α} {f : α → SessionM (MemoryStub σ) β}
    (hm : Lands m) (hf : ∀ a, Steady (f a)) : Lands (m >>= f) := by
  intro s c hs hr
  have l := hm s c hs hr
  cases h : m s with
  | ok a s' =>
    rw [h] at l
    obtain ⟨c', hs'⟩ := l.1.ready
    have k := hf a s' c' hs'
    rw [bind_apply, h]
    exact ⟨l.1.trans_keeps k, k.running.trans l.2⟩
  | error e s' =>
    rw [h] at l
    rw [bind_apply, h]
    exact l

theorem lands_handleStop (stop : StopEvent) (resumed : Bool) :
    Lands (handleStop stop resumed : SessionM (MemoryStub σ) _) :=
  fun _ _ hs _ => settles_handleStop hs stop resumed

/-- A source-level step ends with the target stopped, having kept the logical memory but for
temporary breakpoints left behind by a stop the target does not live through. -/
theorem lands_step (thread : Option ThreadId) (position : Address → Option SourcePosition)
    (fuel : Nat) : Lands (step thread position fuel : SessionM (MemoryStub σ) _) := by
  unfold step
  refine steady_bind_lands steady_ensureStopped fun _ => ?_
  refine steady_bind_lands (steady_onHost (Client.runs_readRegisters thread)) fun regs => ?_
  refine steady_bind_lands (steady_stepLoop _ _ _ _ _) fun r => ?_
  -- a loop that ran out of fuel fails, and one that ended takes in its stop
  cases r with
  | none => exact (steady_throw _).lands
  | some stop =>
    exact lands_bind_steady (lands_handleStop _ _) fun _ =>
      steady_bind (steady_publish _) fun _ => steady_pure _

theorem lands_reportCurrentStop :
    Lands (reportCurrentStop : SessionM (MemoryStub σ) _) := by
  unfold reportCurrentStop
  refine steady_bind_lands steady_ensureStopped fun _ => ?_
  refine steady_bind_lands (steady_onHost Client.runs_lastSignal) fun stop => ?_
  exact lands_bind_steady (lands_handleStop _ _) fun _ => steady_pure _

end Lands

/-! ## Running targets -/

/-- An open session whose target runs: the stub was told to resume, and at most its answer
waits on the link. -/
structure Running (s : RemoteSession (MemoryStub σ)) (c : Client (MemoryStub σ)) : Prop where
  state : s.state = .opened
  host : s.host = some c
  waiting : Client.Waiting c.link
  traps : Traps s.breakpoints c.link.transport.memory
  store : s.breakpoints.WellFormed
  running : s.running = true

/-- `s'` runs the target resumed from `s`, whose logical memory it keeps. -/
structure Resumes (s s' : RemoteSession (MemoryStub σ)) : Prop where
  running : ∃ c', Running s' c'
  memory : logicalMemory s' = logicalMemory s
  lastId : s'.breakpoints.lastId = s.breakpoints.lastId

/-- How an operation that may resume the target ends when run from `s`: stopped with the
memory settled, or running with the memory kept. -/
def Proceeds (s s' : RemoteSession (MemoryStub σ)) : Prop :=
  (Settles s s' ∧ s'.running = false) ∨ Resumes s s'

/-- Run from a ready session whose target is stopped, `m` stops again or resumes the target. -/
def Goes {α : Type} (m : SessionM (MemoryStub σ) α) : Prop :=
  ∀ s c, Ready s c → s.running = false → Proceeds s (endState (m s))

section Goes

variable {α β : Type}

theorem Lands.goes {m : SessionM (MemoryStub σ) α} (hm : Lands m) : Goes m :=
  fun s c hs hr => .inl (hm s c hs hr)

theorem Keeps.trans_proceeds {s s' s'' : RemoteSession (MemoryStub σ)} (h : Keeps s s')
    (h' : Proceeds s' s'') : Proceeds s s'' := by
  rcases h' with ⟨hset, hrun⟩ | hres
  · exact .inl ⟨h.trans_settles hset, hrun⟩
  · exact .inr ⟨hres.running, hres.memory.trans h.memory, hres.lastId.trans h.lastId⟩

/-- What one run from a stopped session keeps, the rest of the operation continues from. -/
theorem proceeds_bind {m : SessionM (MemoryStub σ) α} {f : α → SessionM (MemoryStub σ) β}
    {s : RemoteSession (MemoryStub σ)} (hk : Keeps s (endState (m s))) (hr : s.running = false)
    (hf : ∀ a, Goes (f a)) : Proceeds s (endState ((m >>= f) s)) := by
  cases h : m s with
  | ok a s' =>
    rw [h] at hk
    obtain ⟨c', hs'⟩ := hk.ready
    rw [bind_apply, h]
    exact hk.trans_proceeds (hf a s' c' hs' (hk.running.trans hr))
  | error e s' =>
    rw [h] at hk
    rw [bind_apply, h]
    exact .inl ⟨hk.settles, hk.running.trans hr⟩

theorem steady_bind_goes {m : SessionM (MemoryStub σ) α} {f : α → SessionM (MemoryStub σ) β}
    (hm : Steady m) (hf : ∀ a, Goes (f a)) : Goes (m >>= f) :=
  fun s c hs hr => proceeds_bind (hm s c hs) hr hf

/-- Resuming the target: the stub takes the request, and the target runs with the logical
memory it had; a resume the stub refuses leaves it stopped. -/
theorem goes_resume : Goes (do
    onHost Client.resume
    modify fun s => { s with running := true }
    publish SessionEvent.continuing : SessionM (MemoryStub σ) Unit) := by
  intro s c hs hr
  have hend := Client.runs_resume c hs.quiet
  have hrest : ∀ s' : RemoteSession (MemoryStub σ),
      (do modify fun s => { s with running := true }
          publish SessionEvent.continuing : SessionM (MemoryStub σ) Unit) s' =
        .ok () { s' with running := true, events := s'.events.push .continuing } := fun _ => rfl
  rw [bind_apply, onHost_apply hs.host]
  cases h : (Client.resume : ClientM (MemoryStub σ) Unit) c with
  | ok u c' =>
    rw [h] at hend
    obtain ⟨hwait, hmem⟩ := hend
    simp only []
    rw [hrest]
    right
    refine ⟨⟨c', hs.state, rfl, hwait, ?_, hs.store, rfl⟩, ?_, rfl⟩
    · rw [hmem]
      exact hs.traps
    · simp only [logicalMemory, endState, hs.host, Option.map_some, hmem]
  | error e c' =>
    rw [h] at hend
    obtain ⟨hq, hmem⟩ := hend
    left
    have k : Keeps s { s with host := some c' } := by
      refine ⟨⟨c', hs.state, rfl, hq, ?_, hs.store⟩, ?_, rfl, rfl, fun _ hx => hx⟩
      · rw [hmem]
        exact hs.traps
      · simp only [logicalMemory, hs.host, Option.map_some, hmem]
    exact ⟨k.settles, hr⟩

/-- Continuing either resumes the target with the logical memory kept, or, when stepping off
a breakpoint at the program counter already stopped it, lands as a step does. -/
theorem goes_continueExecution : Goes (continueExecution : SessionM (MemoryStub σ) _) := by
  unfold continueExecution
  refine steady_bind_goes steady_ensureStopped fun _ => ?_
  refine steady_bind_goes (steady_onHost (Client.runs_readRegisters none)) fun regs => ?_
  intro s c hs hr
  rw [bind_apply, get_apply]
  simp only []
  split
  · next harmedAt =>
    -- step off the armed breakpoint first; a stop other than the trap ends the operation
    cases hb : s.breakpoints.find? regs.pc with
    | none => simp [BreakpointStore.isArmedAt, hb] at harmedAt
    | some b =>
      have harmed : b.state = .armed := by
        simpa [BreakpointStore.isArmedAt, hb, Breakpoint.isArmed] using harmedAt
      refine proceeds_bind (keeps_stepOverBreakpoint hs hb harmed) hr fun stop => ?_
      refine steady_bind_goes steady_get fun s' => ?_
      split
      · exact (lands_bind_steady (lands_handleStop _ _) fun _ => steady_pure _).goes
      · exact goes_resume
  · exact goes_resume s c hs hr

theorem Ready.running {s : RemoteSession (MemoryStub σ)} {c : Client (MemoryStub σ)}
    (hs : Ready s c) (hr : s.running = true) : Running s c :=
  ⟨hs.state, hs.host, ⟨none, hs.quiet⟩, hs.traps, hs.store, hr⟩

/-- Whether or not the target runs afterwards, what keeps the session proceeds from it. -/
theorem Keeps.proceeds {s s' : RemoteSession (MemoryStub σ)} (h : Keeps s s') : Proceeds s s' := by
  cases hr : s'.running with
  | false => exact .inl ⟨h.settles, hr⟩
  | true =>
    obtain ⟨c', hs'⟩ := h.ready
    exact .inr ⟨⟨c', hs'.running hr⟩, h.memory, h.lastId⟩

/-- A steady operation followed by `f`: a property of the whole run follows from what `f` does
after any keeping prefix. -/
theorem keeps_bind {m : SessionM (MemoryStub σ) α} {f : α → SessionM (MemoryStub σ) β}
    {s : RemoteSession (MemoryStub σ)} {c : Client (MemoryStub σ)}
    (P : RemoteSession (MemoryStub σ) → Prop) (hm : Steady m) (hs : Ready s c)
    (hstop : ∀ s', Keeps s s' → P s')
    (hf : ∀ a s' c', Keeps s s' → Ready s' c' → P (endState (f a s'))) :
    P (endState ((m >>= f) s)) := by
  have k := hm s c hs
  cases h : m s with
  | ok a s' =>
    rw [h] at k
    obtain ⟨c', hs'⟩ := k.ready
    rw [bind_apply, h]
    exact hf a s' c' k hs'
  | error e s' =>
    rw [h] at k
    rw [bind_apply, h]
    exact hstop s' k

/-- The end of a polling round, once the wait is over: pass on output, then take in the stop if
one came. -/
theorem proceeds_polled {s : RemoteSession (MemoryStub σ)} {c : Client (MemoryStub σ)}
    (hs : Ready s c) (polled : Except DebugError (Option StopEvent))
    (hpolled : polled ≠ .error (.wire .disconnected)) :
    Proceeds s (endState ((do
      let output ← onHost Client.takeOutput
      forIn output PUnit.unit fun text __s => do
        publish (SessionEvent.output text)
        pure (ForInStep.yield PUnit.unit)
      match polled with
      | .ok (some stop) => handleStop stop true
      | .ok none => pure ()
      | .error (.wire .disconnected) => modify fun s => { s with running := false, host := none }
      | .error _ => pure () : SessionM (MemoryStub σ) Unit) s)) := by
  refine keeps_bind (Proceeds s) (steady_onHost Client.runs_takeOutput) hs (fun _ k => k.proceeds)
    fun output s1 c1 k1 hs1 => ?_
  refine keeps_bind (Proceeds s)
    (steady_forIn _ _ fun text => steady_bind (steady_publish _) fun _ => steady_pure _) hs1
    (fun _ k => (k1.trans k).proceeds) fun _ s2 c2 k2 hs2 => ?_
  have k := k1.trans k2
  split
  · next stop =>
    obtain ⟨hset, hrun⟩ := settles_handleStop hs2 stop true
    exact .inl ⟨k.trans_settles hset, hrun⟩
  · exact k.proceeds
  · exact absurd rfl hpolled
  · exact k.proceeds

/-- One round of polling a running target: its stop, if it came, is taken in as a stop; else
the target still runs with the logical memory kept. -/
theorem proceeds_poll {s : RemoteSession (MemoryStub σ)} {c : Client (MemoryStub σ)}
    (hs : Running s c) : Proceeds s (endState (poll s)) := by
  unfold poll
  rw [bind_apply, get_apply]
  simp only []
  split
  · exact .inr ⟨⟨c, hs⟩, rfl, rfl⟩
  rw [bind_apply, attempt_onHost hs.host]
  have hend := Client.runs_pollStop s.config.replyTimeoutMs c hs.waiting
  -- after the wait the link is quiet and the memory as it was
  have hready : ∀ c1 : Client (MemoryStub σ), Link.Quiet c1.link →
      c1.link.transport.memory = c.link.transport.memory →
      Ready { s with host := some c1 } c1 ∧ Keeps s { s with host := some c1 } := by
    intro c1 hq hmem
    have hs1 : Ready { s with host := some c1 } c1 :=
      ⟨hs.state, rfl, hq, by rw [hmem]; exact hs.traps, hs.store⟩
    refine ⟨hs1, ⟨c1, hs1⟩, ?_, rfl, rfl, fun _ hx => hx⟩
    simp only [logicalMemory, hs.host, Option.map_some, hmem]
  cases h : Client.pollStop s.config.replyTimeoutMs c with
  | ok stop c1 =>
    rw [h] at hend
    obtain ⟨hs1, k1⟩ := hready c1 hend.1 hend.2
    exact k1.trans_proceeds (proceeds_polled hs1 (.ok stop) (by simp))
  | error e c1 =>
    rw [h] at hend
    obtain ⟨hs1, k1⟩ := hready c1 hend.1 hend.2
    -- the only failure is a malformed stop reply, never a hang-up
    obtain ⟨d, rfl⟩ := Client.pollStop_error hs.waiting h
    exact k1.trans_proceeds (proceeds_polled hs1 (.error (.wire (.malformed d))) (by simp))

end Goes

/-! ## Installing and removing breakpoints -/

/-- Removing a breakpoint restores its byte before forgetting it. -/
theorem steady_removeBreakpoint (a : Address) :
    Steady (removeBreakpoint a : SessionM (MemoryStub σ) _) := by
  unfold removeBreakpoint
  refine steady_bind steady_ensureStopped fun _ => ?_
  intro s c hs
  have k1 := steady_disarm a s c hs
  have hgone := disarm_unarmed hs a
  cases h : disarm a s with
  | ok u s1 =>
    rw [h] at k1 hgone
    obtain ⟨c1, r1⟩ := k1.ready
    rw [bind_apply, h]
    simp only [discard_apply, onStore_apply]
    exact k1.trans (keeps_removeAt r1 hgone)
  | error e s1 =>
    rw [h] at k1
    rw [bind_apply, h]
    exact k1

/-- How installing a breakpoint ends: the session ready with the target stopped, the logical
memory kept, and at most one more id handed out. -/
structure Installs (s s' : RemoteSession (MemoryStub σ)) : Prop where
  ready : ∃ c', Ready s' c'
  running : s'.running = s.running
  memory : logicalMemory s' = logicalMemory s
  lastId : s'.breakpoints.lastId = s.breakpoints.lastId ∨
    s'.breakpoints.lastId = s.breakpoints.lastId + 1

theorem Keeps.installs {s s' : RemoteSession (MemoryStub σ)} (h : Keeps s s') : Installs s s' :=
  ⟨h.ready, h.running, h.memory, .inl h.lastId⟩

theorem Keeps.trans_installs {s s' s'' : RemoteSession (MemoryStub σ)} (h : Keeps s s')
    (h' : Installs s' s'') : Installs s s'' :=
  ⟨h'.ready, h'.running.trans h.running, h'.memory.trans h.memory, by rw [← h.lastId]; exact h'.lastId⟩

/-- Installing a breakpoint saves the byte at its address and writes the trap there; at an
address that already has one, at most its kind changes. -/
theorem installs_addBreakpoint {s : RemoteSession (MemoryStub σ)} {c : Client (MemoryStub σ)}
    (hs : Ready s c) (hlast : s.breakpoints.lastId.toNat + 1 < UInt64.size) (a : Address)
    (kind : BreakpointKind) : Installs s (endState (addBreakpoint a kind s)) := by
  unfold addBreakpoint
  refine keeps_bind (Installs s) steady_ensureStopped hs (fun _ k => k.installs)
    fun _ s1 c1 k1 hs1 => k1.trans_installs ?_
  have hlast1 : s1.breakpoints.lastId.toNat + 1 < UInt64.size := by rw [k1.lastId]; exact hlast
  have hself : c1.withMemory c1.link.transport.memory = c1 := rfl
  rw [bind_apply, get_apply]
  simp only []
  split
  · next hsome =>
    -- a breakpoint is there already: memory is left alone, and only its kind may change
    obtain ⟨b, hb⟩ := Option.isSome_iff_exists.1 hsome
    have hfind := BreakpointStore.find?_insert_of_some hb kind trapInstruction
    have harm : ∀ b', (s1.breakpoints.insert a kind trapInstruction).1.find? a = some b' →
        b'.isArmed = b.isArmed ∧ b'.savedByte = b.savedByte := by
      intro b' hb'
      rw [hfind, if_pos rfl, Option.some.injEq] at hb'
      subst hb'
      split <;> exact ⟨rfl, rfl⟩
    have hview : overlay (s1.breakpoints.insert a kind trapInstruction).1 c1.link.transport.memory a =
        overlay s1.breakpoints c1.link.transport.memory a := by
      obtain ⟨b', hb'⟩ : ∃ b', (s1.breakpoints.insert a kind trapInstruction).1.find? a = some b' := by
        rw [hfind, if_pos rfl]
        exact ⟨_, rfl⟩
      simp only [overlay, hb', hb, harm b' hb']
    have htrap : ∀ b', (s1.breakpoints.insert a kind trapInstruction).1.find? a = some b' →
        b'.isArmed = true → c1.link.transport.memory a = trapInstruction :=
      fun b' hb' harmed' => hs1.traps a b hb ((harm b' hb').1 ▸ harmed')
    obtain ⟨hr, hm⟩ := ready_at hs1 a (BreakpointStore.wellFormed_insert hs1.store a kind _ hlast1)
      (fun x hx => by rw [hfind, if_neg hx]) (fun x _ => rfl) hview htrap
    rw [hself, ← hs1.host] at hr hm
    rw [onStore_apply]
    exact ⟨⟨_, hr⟩, rfl, hm, BreakpointStore.insert_lastId _ a kind _⟩
  · next hnone =>
    -- a new breakpoint saves the byte it covers and puts the trap in its place
    have hb : s1.breakpoints.find? a = none := by simpa using hnone
    have hfind := BreakpointStore.find?_insert_of_none hb kind (c1.link.transport.memory a)
    have hread : bytesAt c1.link.transport.memory a 1 = [c1.link.transport.memory a] := by
      simp [bytesAt]
    rw [bind_apply, onHost_readMemory hs1, hread]
    simp only []
    rw [bind_apply, onHost_writeMemory hs1 a [trapInstruction] (by simp [UInt64.size])]
    simp only [onStore_apply]
    have hview : overlay (s1.breakpoints.insert a kind (c1.link.transport.memory a)).1
        (storeAt c1.link.transport.memory a [trapInstruction]) a =
        overlay s1.breakpoints c1.link.transport.memory a := by
      simp [overlay, hfind, hb, Breakpoint.isArmed]
    obtain ⟨hr, hm⟩ := ready_at hs1 a
      (BreakpointStore.wellFormed_insert hs1.store a kind (c1.link.transport.memory a) hlast1)
      (fun x hx => by rw [hfind, if_neg hx]) (fun x hx => by rw [storeAt_single, if_neg hx]) hview
      (fun _ _ _ => by simp [storeAt_single])
    exact ⟨⟨_, hr⟩, rfl, hm, BreakpointStore.insert_lastId _ a kind _⟩

/-! ## Reading and writing memory -/

/-- A read that does not wrap returns the logical bytes and changes nothing. -/
theorem readMemory_ready {s : RemoteSession (MemoryStub σ)} {c : Client (MemoryStub σ)}
    (hs : Ready s c) (hr : s.running = false) {a : Address} {n : Nat}
    (h : a.toNat + n ≤ UInt64.size) :
    readMemory a n s = .ok (bytesAt (overlay s.breakpoints c.link.transport.memory) a n) s := by
  unfold readMemory
  rw [bind_apply, ensureStopped_ready hs hr]
  simp only []
  rw [bind_apply, onHost_readMemory hs]
  simp only []
  rw [bind_apply, get_apply]
  simp only []
  rw [unpatch_bytesAt hs.store _ h]
  rfl

/-- A write goes out with the traps of the armed breakpoints it covers kept, after those
breakpoints remember the bytes written over them. -/
theorem writeMemory_ready {s : RemoteSession (MemoryStub σ)} {c : Client (MemoryStub σ)}
    (hs : Ready s c) (hr : s.running = false) {a : Address} {data : List UInt8}
    (h : a.toNat + data.length ≤ UInt64.size) :
    writeMemory a data s =
      .ok () { s with
        host := some (c.withMemory (storeAt c.link.transport.memory a
          (s.breakpoints.entries.foldl (trapPatched a data) data))),
        breakpoints := s.breakpoints.entries.foldl (savePatched a data) s.breakpoints } := by
  have hlen : (s.breakpoints.entries.foldl (trapPatched a data) data).length ≤ UInt64.size := by
    rw [length_foldl_trapPatched]
    omega
  unfold writeMemory
  rw [bind_apply, ensureStopped_ready hs hr]
  simp only []
  rw [bind_apply, get_apply]
  simp only []
  -- the loop: each breakpoint's turn is pure bookkeeping, described by the two patch steps
  rw [bind_apply, forIn_yield_acc _ _ _
    (fun t b => { t with breakpoints := savePatched a data t.breakpoints b }) (trapPatched a data)
    ?_ s]
  · simp only [foldl_breakpoints, BreakpointStore.list, onHost, hs.host, EStateM.run,
      Client.writeMemory_quiet hs.quiet a _ hlen]
  intro b p t
  unfold trapPatched savePatched patchOffset
  cases Address.relativeTo b.address a with
  | none => rfl
  | some off =>
    by_cases hc : off.toNat < data.length ∧ b.isArmed = true
    · simp only [hc, and_self, if_true, bind_apply, discard_apply, onStore_apply]
      rfl
    · simp only [hc, if_false]
      rfl

/-- A write that does not wrap puts exactly its bytes into the logical memory, and keeps the
session ready with the traps of its armed breakpoints in memory. -/
theorem writeMemory_logical {s : RemoteSession (MemoryStub σ)} {c : Client (MemoryStub σ)}
    (hs : Ready s c) (hr : s.running = false) {a : Address} {data : List UInt8}
    (h : a.toNat + data.length ≤ UInt64.size) :
    (∃ c', Ready (endState (writeMemory a data s)) c') ∧
      logicalMemory (endState (writeMemory a data s)) =
        some (storeAt (overlay s.breakpoints c.link.transport.memory) a data) ∧
      (endState (writeMemory a data s)).running = s.running ∧
      (endState (writeMemory a data s)).breakpoints.lastId = s.breakpoints.lastId := by
  obtain ⟨hview, htraps⟩ := overlay_patch hs.store hs.traps h
  obtain ⟨hwf, hlast, _⟩ := foldl_savePatched_invariant a data _ _ hs.store
  rw [writeMemory_ready hs hr h]
  refine ⟨⟨_, hs.state, rfl, Client.quiet_withMemory hs.quiet _, ?_, hwf⟩, ?_, rfl, hlast⟩
  · simpa [endState] using htraps
  · simp [logicalMemory, endState, hview]

end RemoteSession

end RemoteDebugger
