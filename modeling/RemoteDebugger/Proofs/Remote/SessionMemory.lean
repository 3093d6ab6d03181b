import RemoteDebugger.Proofs.Remote.SessionCommands

/-!
# A consistent logical memory

The logical memory of a session is the stub's bytes with the saved byte under
every armed breakpoint. Over stubs that hold a byte map, every session reached by
covered requests keeps it consistent: traps are in the stub, reads that do not
wrap return it, and writes that do not wrap put exactly their bytes there.
-/

namespace RemoteDebugger

variable {σ : Type}

/-- Every stub the network connects to is fresh: nothing half read, nothing to send. -/
def Network.Fresh (net : Network (MemoryStub σ)) : Prop :=
  ∀ a t, net.connect a = .ok t → t.decoder = {} ∧ t.outbox = []

theorem Network.firstConnection_ok {net : Network (MemoryStub σ)} {t : MemoryStub σ} :
    ∀ (last : DialError) (L : List SocketAddress), net.firstConnection last L = .ok t →
      ∃ a, net.connect a = .ok t := by
  intro last L
  induction L generalizing last with
  | nil => intro h; cases h
  | cons a L ih =>
    intro h
    unfold Network.firstConnection at h
    cases hc : net.connect a with
    | ok t' =>
      rw [hc] at h
      cases h
      exact ⟨a, hc⟩
    | error e =>
      rw [hc] at h
      exact ih e h

/-- A connection made is one the network gave for some socket address. -/
theorem Network.dial_ok {net : Network (MemoryStub σ)} {address : String} {t : MemoryStub σ}
    (h : net.dial address = .ok t) : ∃ a, net.connect a = .ok t := by
  unfold Network.dial at h
  split at h
  · exact Network.firstConnection_ok _ _ h
  · split at h
    · cases h
    · split at h
      · cases h
      · split at h
        · cases h
        · exact Network.firstConnection_ok _ _ h

namespace RemoteSession

/-- A closed session that never held a breakpoint. -/
structure Idle (s : RemoteSession (MemoryStub σ)) : Prop where
  state : s.state = .closed
  host : s.host = none
  store : s.breakpoints = {}

/-- Opening a closed session over a network of fresh stubs: it is open and ready with the
target stopped and no breakpoint, or closed as before. -/
theorem open_idle {s : RemoteSession (MemoryStub σ)} (hs : Idle s) {net : Network (MemoryStub σ)}
    (hnet : net.Fresh) (address : String) :
    (∃ c, Ready (endState (RemoteSession.open net address s)) c ∧
      (endState (RemoteSession.open net address s)).running = false ∧
      (endState (RemoteSession.open net address s)).breakpoints = s.breakpoints) ∨
    Idle (endState (RemoteSession.open net address s)) := by
  rw [open_apply, beginOpen_closed hs.state]
  dsimp only
  cases hh : handshake s.config net address with
  | error e =>
    -- the handshake failed: the session is closed again, whatever the error
    rw [endState_finishOpen_error]
    exact .inr ⟨rfl, hs.host, hs.store⟩
  | ok ch =>
    obtain ⟨c, h⟩ := ch
    rw [endState_finishOpen_ok]
    unfold handshake at hh
    split at hh
    · cases hh
    · cases hh
    · next t hdial =>
      obtain ⟨a, hconnect⟩ := Network.dial_ok hdial
      obtain ⟨hdec, hout⟩ := hnet a t hconnect
      have hquiet : Link.Quiet ({ transport := t } : Link (MemoryStub σ)) :=
        ⟨rfl, rfl, rfl, hdec, hout⟩
      have hrun : Client.Runs Link.Quiet Link.Quiet (do
          let architecture ← Client.architecture
          let execPath ← Client.execPath
          let registers ← Client.readRegisters none
          pure { architecture, execPath, registers } : ClientM (MemoryStub σ) Handshake) :=
        Client.runs_bind Client.runs_architecture fun _ =>
          Client.runs_bind Client.runs_execPath fun _ =>
            Client.runs_bind (Client.runs_readRegisters none) fun _ => Client.runs_pure _
      have hend := hrun { link := { transport := t }, timeout := s.config.handshakeTimeoutMs } hquiet
      dsimp only at hh
      split at hh
      · next h' c' hex =>
        -- the handshake went through over a quiet link: the session is open with no breakpoint
        cases hh
        rw [EStateM.run] at hex
        rw [hex] at hend
        refine .inl ⟨c, ⟨rfl, rfl, hend.1, ?_, ?_⟩, rfl, rfl⟩
        · intro x b hb
          change s.breakpoints.find? x = some b at hb
          simp [hs.store, BreakpointStore.find?] at hb
        · show s.breakpoints.WellFormed
          rw [hs.store]
          exact BreakpointStore.wellFormed_empty
      · cases hh

/-- Opening a session that is not closed fails and changes nothing. -/
theorem open_opened {s : RemoteSession (MemoryStub σ)} (hs : s.state = .opened)
    (net : Network (MemoryStub σ)) (address : String) :
    endState (RemoteSession.open net address s) = s := by
  rw [open_apply, beginOpen_refused (by simp [hs])]
  rfl

/-- An operation that fails at once, changing nothing, fails the same way followed by anything. -/
theorem endState_bind_of_error {τ α β : Type} [Transport τ] {m : SessionM τ α}
    {f : α → SessionM τ β} {s : RemoteSession τ} {e : DebugError}
    (h : m s = .error e s) : endState ((m >>= f) s) = s := by
  rw [bind_apply, h]
  rfl

theorem endState_discard {τ α : Type} [Transport τ] (m : SessionM τ α) (s : RemoteSession τ) :
    endState ((discard m : SessionM τ PUnit) s) = endState (m s) := by
  rw [discard_apply]
  cases m s <;> rfl

/-- Reading memory changes nothing but the client, and keeps the link at rest. -/
theorem steady_readMemory (a : Address) (n : Nat) :
    Steady (readMemory a n : SessionM (MemoryStub σ) _) := by
  unfold readMemory
  refine steady_bind steady_ensureStopped fun _ => ?_
  intro s c hs
  rw [bind_apply, onHost_readMemory hs]
  exact steady_bind steady_get (fun _ => steady_pure _) s c hs

theorem steady_startPolling : Steady (startPolling : SessionM (MemoryStub σ) _) := by
  unfold startPolling
  refine steady_bind steady_ensureOpen fun _ => ?_
  intro s c hs
  exact ⟨⟨c, hs.state, hs.host, hs.quiet, hs.traps, hs.store⟩, rfl, rfl, rfl, fun _ hx => hx⟩

/-- Polling a stopped target does nothing. -/
theorem poll_stopped {s : RemoteSession (MemoryStub σ)} (hr : s.running = false) :
    endState (poll s) = s := by
  unfold poll
  rw [bind_apply, get_apply]
  simp [hr, pure, EStateM.pure, endState]

/-- Polling a closed session does nothing. -/
theorem poll_closed {s : RemoteSession (MemoryStub σ)} (hc : s.state = .closed) :
    endState (poll s) = s := by
  unfold poll
  rw [bind_apply, get_apply]
  simp [hc, pure, EStateM.pure, endState]

theorem ensureOpen_closed {s : RemoteSession (MemoryStub σ)} (hc : s.state = .closed) :
    ∃ e, ensureOpen s = .error e s := by
  simp [ensureOpen, bind_apply, get_apply, hc, throw, throwThe, MonadExceptOf.throw,
    EStateM.throw]

/-- Starting to poll a running target keeps it running. -/
theorem running_startPolling {s : RemoteSession (MemoryStub σ)} {c : Client (MemoryStub σ)}
    (hs : Running s c) :
    Running (endState (startPolling s)) c ∧ logicalMemory (endState (startPolling s)) = logicalMemory s ∧
      (endState (startPolling s)).breakpoints = s.breakpoints := by
  have hopen : ensureOpen s = .ok () s := by
    simp [ensureOpen, bind_apply, get_apply, hs.state, hs.host, pure, EStateM.pure]
  unfold startPolling
  rw [bind_apply, hopen]
  exact ⟨⟨hs.state, hs.host, hs.waiting, hs.traps, hs.store, hs.running⟩, rfl, rfl⟩

/-! ## Reachable sessions -/

/-- A session as the commands leave it: closed with no breakpoint, ready with the target
stopped, or running. -/
def Coherent (s : RemoteSession (MemoryStub σ)) : Prop :=
  Idle s ∨ (∃ c, Ready s c ∧ s.running = false) ∨ ∃ c, Running s c

/-- Each logical byte of `s'` is that of `s`, or the trap at the address of one of the temporary
breakpoints of `s`. -/
def MemorySettles (s s' : RemoteSession (MemoryStub σ)) : Prop :=
  ∀ V, logicalMemory s = some V → ∃ V', logicalMemory s' = some V' ∧
    ∀ x, V' x = V x ∨ (x ∈ s.breakpoints.temporaries ∧ V' x = trapInstruction)

theorem MemorySettles.refl (s : RemoteSession (MemoryStub σ)) : MemorySettles s s :=
  fun V hV => ⟨V, hV, fun _ => .inl rfl⟩

theorem Proceeds.memorySettles {s s' : RemoteSession (MemoryStub σ)} (h : Proceeds s s') :
    MemorySettles s s' := by
  rcases h with ⟨hset, _⟩ | hres
  · exact hset.memory
  · exact fun V hV => ⟨V, hres.memory.trans hV, fun _ => .inl rfl⟩

/-- How a command leaves a coherent session: coherent, with at most one more id handed out. -/
structure Follows (s s' : RemoteSession (MemoryStub σ)) : Prop where
  coherent : Coherent s'
  lastId : s'.breakpoints.lastId = s.breakpoints.lastId ∨
    s'.breakpoints.lastId = s.breakpoints.lastId + 1

theorem Follows.refl {s : RemoteSession (MemoryStub σ)} (hs : Coherent s) : Follows s s :=
  ⟨hs, .inl rfl⟩

theorem Keeps.follows {s s' : RemoteSession (MemoryStub σ)} (h : Keeps s s') (hr : s.running = false) :
    Follows s s' := by
  obtain ⟨c', hs'⟩ := h.ready
  exact ⟨.inr (.inl ⟨c', hs', h.running.trans hr⟩), .inl h.lastId⟩

theorem Proceeds.follows {s s' : RemoteSession (MemoryStub σ)} (h : Proceeds s s') : Follows s s' := by
  rcases h with ⟨hset, hr⟩ | hres
  · obtain ⟨c', hs'⟩ := hset.ready
    exact ⟨.inr (.inl ⟨c', hs', hr⟩), .inl hset.lastId⟩
  · obtain ⟨c', hs'⟩ := hres.running
    exact ⟨.inr (.inr ⟨c', hs'⟩), .inl hres.lastId⟩

theorem Installs.follows {s s' : RemoteSession (MemoryStub σ)} (h : Installs s s')
    (hr : s.running = false) : Follows s s' := by
  obtain ⟨c', hs'⟩ := h.ready
  exact ⟨.inr (.inl ⟨c', hs', h.running.trans hr⟩), h.lastId⟩

/-- The commands a debugger gives a session, with their arguments. -/
inductive Request (σ : Type) where
  | «open» (net : Network (MemoryStub σ)) (address : String)
  | startPolling
  | addBreakpoint (a : Address) (kind : BreakpointKind)
  | removeBreakpoint (a : Address)
  | readMemory (a : Address) (length : Nat)
  | writeMemory (a : Address) (data : List UInt8)
  | step (thread : Option ThreadId) (position : Address → Option SourcePosition) (fuel : Nat)
  | continueExecution
  | poll
  | reportCurrentStop

namespace Request

/-- Carry out a request; its answer is dropped. -/
def run : Request σ → SessionM (MemoryStub σ) Unit
  | .open net address => discard (RemoteSession.open net address)
  | .startPolling => RemoteSession.startPolling
  | .addBreakpoint a kind => discard (RemoteSession.addBreakpoint a kind)
  | .removeBreakpoint a => RemoteSession.removeBreakpoint a
  | .readMemory a length => discard (RemoteSession.readMemory a length)
  | .writeMemory a data => RemoteSession.writeMemory a data
  | .step thread position fuel => discard (RemoteSession.step thread position fuel)
  | .continueExecution => RemoteSession.continueExecution
  | .poll => RemoteSession.poll
  | .reportCurrentStop => discard RemoteSession.reportCurrentStop

/-- The requests under which the logical memory stays consistent: every stub reached is fresh,
and no write runs past the top of the address space. -/
def Covered : Request σ → Prop
  | .open net _ => net.Fresh
  | .writeMemory a data => a.toNat + data.length ≤ UInt64.size
  | _ => True

end Request

/-- The sessions that `n` covered requests lead to from a new one. -/
inductive Reachable (config : SessionConfig) : Nat → RemoteSession (MemoryStub σ) → Prop
  | new : Reachable config 0 (RemoteSession.new config)
  | run {n : Nat} {s : RemoteSession (MemoryStub σ)} (r : Request σ) :
      r.Covered → Reachable config n s → Reachable config (n + 1) (endState (r.run s))

/-- A request the session refuses because the target is not stopped changes nothing. -/
theorem endState_guarded {τ α : Type} [Transport τ] {f : Unit → SessionM τ α}
    {s : RemoteSession τ} (h : ∃ e, ensureStopped s = .error e s) :
    endState ((ensureStopped >>= f) s) = s := by
  obtain ⟨e, he⟩ := h
  exact endState_bind_of_error he

/-- Every request leaves a closed session as it was, or opens it. -/
theorem Idle.follows {s : RemoteSession (MemoryStub σ)} (hs : Idle s) (r : Request σ)
    (hr : r.Covered) : Follows s (endState (r.run s)) := by
  have hguard := ensureStopped_closed hs.state
  cases r with
  | «open» net address =>
    simp only [Request.run, endState_discard]
    rcases open_idle hs hr address with ⟨c, hready, hrun, hstore⟩ | hidle
    · exact ⟨.inr (.inl ⟨c, hready, hrun⟩), .inl (by rw [hstore])⟩
    · exact ⟨.inl hidle, .inl (by rw [hidle.store, hs.store])⟩
  | startPolling =>
    obtain ⟨e, he⟩ := ensureOpen_closed hs.state
    simp only [Request.run, startPolling, endState_bind_of_error he]
    exact Follows.refl (.inl hs)
  | addBreakpoint a kind =>
    simp only [Request.run, endState_discard, addBreakpoint, endState_guarded hguard]
    exact Follows.refl (.inl hs)
  | removeBreakpoint a =>
    simp only [Request.run, removeBreakpoint, endState_guarded hguard]
    exact Follows.refl (.inl hs)
  | readMemory a length =>
    simp only [Request.run, endState_discard, readMemory, endState_guarded hguard]
    exact Follows.refl (.inl hs)
  | writeMemory a data =>
    simp only [Request.run, writeMemory, endState_guarded hguard]
    exact Follows.refl (.inl hs)
  | step thread position fuel =>
    simp only [Request.run, endState_discard, step, endState_guarded hguard]
    exact Follows.refl (.inl hs)
  | continueExecution =>
    simp only [Request.run, continueExecution, endState_guarded hguard]
    exact Follows.refl (.inl hs)
  | poll =>
    simp only [Request.run, poll_closed hs.state]
    exact Follows.refl (.inl hs)
  | reportCurrentStop =>
    simp only [Request.run, endState_discard, reportCurrentStop, endState_guarded hguard]
    exact Follows.refl (.inl hs)

/-- Every request leaves a ready session with the target stopped coherent, handing out at most
one more id. -/
theorem Ready.follows {s : RemoteSession (MemoryStub σ)} {c : Client (MemoryStub σ)}
    (hs : Ready s c) (hstop : s.running = false)
    (hlast : s.breakpoints.lastId.toNat + 1 < UInt64.size) (r : Request σ) (hr : r.Covered) :
    Follows s (endState (r.run s)) := by
  cases r with
  | «open» net address =>
    simp only [Request.run, endState_discard, open_opened hs.state]
    exact Follows.refl (.inr (.inl ⟨c, hs, hstop⟩))
  | startPolling => exact (steady_startPolling s c hs).follows hstop
  | addBreakpoint a kind =>
    simp only [Request.run, endState_discard]
    exact (installs_addBreakpoint hs hlast a kind).follows hstop
  | removeBreakpoint a => exact (steady_removeBreakpoint a s c hs).follows hstop
  | readMemory a length =>
    simp only [Request.run, endState_discard]
    exact (steady_readMemory a length s c hs).follows hstop
  | writeMemory a data =>
    obtain ⟨⟨c', hs'⟩, _, hrun, hid⟩ := writeMemory_logical hs hstop hr
    exact ⟨.inr (.inl ⟨c', hs', hrun.trans hstop⟩), .inl hid⟩
  | step thread position fuel =>
    simp only [Request.run, endState_discard]
    exact Proceeds.follows (.inl (lands_step thread position fuel s c hs hstop))
  | continueExecution => exact (goes_continueExecution s c hs hstop).follows
  | poll =>
    simp only [Request.run, poll_stopped hstop]
    exact Follows.refl (.inr (.inl ⟨c, hs, hstop⟩))
  | reportCurrentStop =>
    simp only [Request.run, endState_discard]
    exact Proceeds.follows (.inl (lands_reportCurrentStop s c hs hstop))

/-- While the target runs, every request but polling is refused or changes only the polling
flag; a round of polling takes in the target's stop or leaves it running. -/
theorem Running.follows {s : RemoteSession (MemoryStub σ)} {c : Client (MemoryStub σ)}
    (hs : Running s c) (r : Request σ) : Follows s (endState (r.run s)) := by
  have hguard := ensureStopped_running hs.running
  have hself : Follows s s := Follows.refl (.inr (.inr ⟨c, hs⟩))
  cases r with
  | «open» net address =>
    simp only [Request.run, endState_discard, open_opened hs.state]
    exact hself
  | startPolling =>
    obtain ⟨hrun, _, hstore⟩ := running_startPolling hs
    exact ⟨.inr (.inr ⟨c, hrun⟩), .inl (by simp only [Request.run, hstore])⟩
  | addBreakpoint a kind =>
    simp only [Request.run, endState_discard, addBreakpoint, endState_guarded hguard]
    exact hself
  | removeBreakpoint a =>
    simp only [Request.run, removeBreakpoint, endState_guarded hguard]
    exact hself
  | readMemory a length =>
    simp only [Request.run, endState_discard, readMemory, endState_guarded hguard]
    exact hself
  | writeMemory a data =>
    simp only [Request.run, writeMemory, endState_guarded hguard]
    exact hself
  | step thread position fuel =>
    simp only [Request.run, endState_discard, step, endState_guarded hguard]
    exact hself
  | continueExecution =>
    simp only [Request.run, continueExecution, endState_guarded hguard]
    exact hself
  | poll => exact (proceeds_poll hs).follows
  | reportCurrentStop =>
    simp only [Request.run, endState_discard, reportCurrentStop, endState_guarded hguard]
    exact hself

/-- What `n` covered requests lead to from a new session is coherent, with at most `n` ids handed
out. -/
theorem coherent_of_reachable {config : SessionConfig} {n : Nat} {s : RemoteSession (MemoryStub σ)}
    (h : Reachable config n s) (hn : n < UInt64.size) :
    Coherent s ∧ s.breakpoints.lastId.toNat ≤ n := by
  induction h with
  | new => exact ⟨.inl ⟨rfl, rfl, rfl⟩, by simp [RemoteSession.new]⟩
  | @run n s r hr _ ih =>
    obtain ⟨hs, hid⟩ := ih (by omega)
    have hlast : s.breakpoints.lastId.toNat + 1 < UInt64.size := by omega
    -- one request: by the state the session is in
    have hf : Follows s (endState (r.run s)) := by
      rcases hs with hidle | ⟨c, hready, hstop⟩ | ⟨c, hrun⟩
      · exact hidle.follows r hr
      · exact hready.follows hstop hlast r hr
      · exact hrun.follows r
    refine ⟨hf.coherent, ?_⟩
    rcases hf.lastId with h | h
    · rw [h]
      omega
    · rw [h, UInt64.toNat_add, UInt64.toNat_one, Nat.mod_eq_of_lt hlast]
      omega

section Coherent

variable {s : RemoteSession (MemoryStub σ)}

theorem Coherent.traps (hs : Coherent s) (c : Client (MemoryStub σ)) (hc : s.host = some c) :
    Traps s.breakpoints c.link.transport.memory := by
  rcases hs with hidle | ⟨c', hready, _⟩ | ⟨c', hrun⟩
  · rw [hidle.host] at hc
    cases hc
  · rw [hready.host, Option.some.injEq] at hc
    exact hc ▸ hready.traps
  · rw [hrun.host, Option.some.injEq] at hc
    exact hc ▸ hrun.traps

/-- A request the session refuses unless the target is stopped changes nothing outside a ready,
stopped session. -/
theorem Coherent.guarded {α : Type} (hs : Coherent s) (f : Unit → SessionM (MemoryStub σ) α) :
    endState ((ensureStopped >>= f) s) = s ∨ ∃ c, Ready s c ∧ s.running = false := by
  rcases hs with hidle | hready | ⟨c, hrun⟩
  · exact .inl (endState_guarded (ensureStopped_closed hidle.state))
  · exact .inr hready
  · exact .inl (endState_guarded (ensureStopped_running hrun.running))

theorem Coherent.readMemory (hs : Coherent s) {V : UInt64 → UInt8} (hV : logicalMemory s = some V)
    (hstop : s.running = false) {a : Address} {n : Nat} (h : a.toNat + n ≤ UInt64.size) :
    readMemory a n s = .ok (bytesAt V a n) s := by
  rcases hs with hidle | ⟨c, hready, _⟩ | ⟨c, hrun⟩
  · simp [logicalMemory, hidle.host] at hV
  · simp only [logicalMemory, hready.host, Option.map_some, Option.some.injEq] at hV
    rw [← hV]
    exact readMemory_ready hready hstop h
  · rw [hrun.running] at hstop
    cases hstop

theorem Coherent.addBreakpoint_memory (hs : Coherent s)
    (hlast : s.breakpoints.lastId.toNat + 1 < UInt64.size) (a : Address) (kind : BreakpointKind) :
    logicalMemory (endState (addBreakpoint a kind s)) = logicalMemory s := by
  unfold addBreakpoint
  rcases hs.guarded _ with h | ⟨c, hready, hstop⟩
  · rw [h]
  · exact (installs_addBreakpoint hready hlast a kind).memory

theorem Coherent.removeBreakpoint_memory (hs : Coherent s) (a : Address) :
    logicalMemory (endState (removeBreakpoint a s)) = logicalMemory s := by
  unfold removeBreakpoint
  rcases hs.guarded _ with h | ⟨c, hready, hstop⟩
  · rw [h]
  · exact (steady_removeBreakpoint a s c hready).memory

theorem Coherent.step_memory (hs : Coherent s) (thread : Option ThreadId)
    (position : Address → Option SourcePosition) (fuel : Nat) :
    MemorySettles s (endState (step thread position fuel s)) := by
  unfold step
  rcases hs.guarded _ with h | ⟨c, hready, hstop⟩
  · rw [h]
    exact MemorySettles.refl s
  · exact (lands_step thread position fuel s c hready hstop).1.memory

theorem Coherent.continueExecution_memory (hs : Coherent s) :
    MemorySettles s (endState (continueExecution s)) := by
  unfold continueExecution
  rcases hs.guarded _ with h | ⟨c, hready, hstop⟩
  · rw [h]
    exact MemorySettles.refl s
  · exact (goes_continueExecution s c hready hstop).memorySettles

theorem Coherent.poll_memory (hs : Coherent s) : MemorySettles s (endState (poll s)) := by
  rcases hs with hidle | ⟨c, hready, hstop⟩ | ⟨c, hrun⟩
  · rw [poll_closed hidle.state]
    exact MemorySettles.refl s
  · rw [poll_stopped hstop]
    exact MemorySettles.refl s
  · exact (proceeds_poll hrun).memorySettles

theorem Coherent.reportCurrentStop_memory (hs : Coherent s) :
    MemorySettles s (endState (reportCurrentStop s)) := by
  unfold reportCurrentStop
  rcases hs.guarded _ with h | ⟨c, hready, hstop⟩
  · rw [h]
    exact MemorySettles.refl s
  · exact (lands_reportCurrentStop s c hready hstop).1.memory

theorem Coherent.writeMemory_memory (hs : Coherent s) {V : UInt64 → UInt8}
    (hV : logicalMemory s = some V) (hstop : s.running = false) {a : Address} {data : List UInt8}
    (h : a.toNat + data.length ≤ UInt64.size) :
    logicalMemory (endState (writeMemory a data s)) = some (storeAt V a data) := by
  rcases hs with hidle | ⟨c, hready, _⟩ | ⟨c, hrun⟩
  · simp [logicalMemory, hidle.host] at hV
  · simp only [logicalMemory, hready.host, Option.map_some, Option.some.injEq] at hV
    rw [← hV]
    exact (writeMemory_logical hready hstop h).2.1
  · rw [hrun.running] at hstop
    cases hstop

end Coherent

/-- What a debugger may rely on about the logical memory of a session. -/
structure MemoryConsistent (s : RemoteSession (MemoryStub σ)) : Prop where
  /-- Every armed breakpoint's trap is in the stub's memory. -/
  traps : ∀ c, s.host = some c → Traps s.breakpoints c.link.transport.memory
  /-- A read that does not wrap past the top of the address space returns the logical bytes
  and changes nothing. -/
  read : ∀ V a length, logicalMemory s = some V → s.running = false →
    a.toNat + length ≤ UInt64.size → readMemory a length s = .ok (bytesAt V a length) s
  /-- Installing a breakpoint keeps the logical memory. -/
  addBreakpoint : ∀ a kind, logicalMemory (endState (addBreakpoint a kind s)) = logicalMemory s
  /-- Removing a breakpoint keeps the logical memory. -/
  removeBreakpoint : ∀ a, logicalMemory (endState (removeBreakpoint a s)) = logicalMemory s
  /-- Stepping keeps the logical memory, but for traps left at temporary breakpoints. -/
  step : ∀ thread position fuel, MemorySettles s (endState (step thread position fuel s))
  /-- Continuing keeps the logical memory, but for traps left at temporary breakpoints. -/
  continueExecution : MemorySettles s (endState (continueExecution s))
  /-- Taking in the stop of a running target keeps the logical memory, but for traps left at
  temporary breakpoints. -/
  poll : MemorySettles s (endState (poll s))
  /-- Taking in the current stop keeps the logical memory, but for traps left at temporary
  breakpoints. -/
  reportCurrentStop : MemorySettles s (endState (reportCurrentStop s))
  /-- A write that does not wrap puts exactly its bytes into the logical memory. -/
  write : ∀ V a data, logicalMemory s = some V → s.running = false →
    a.toNat + data.length ≤ UInt64.size →
    logicalMemory (endState (writeMemory a data s)) = some (storeAt V a data)

/-- A stub holding `0x90` at every address whose target exits at its first step. It gives the
registers as zeros and an empty reply to every other request. -/
def exitingStub : MemoryStub Unit where
  memory := fun _ => 0x90
  target := ()
  execute := fun _ request =>
    ((), if request = Client.text "g" then some (Hex.digits (List.replicate Registers.gdbMinBytes 0))
      else if request = Client.text "s" then some (Client.text "W00") else some [])

/-- A network on which every connection reaches a fresh `exitingStub`. -/
def exitingNetwork : Network (MemoryStub Unit) where
  lookup := fun _ => .ok []
  connect := fun _ => .ok exitingStub

theorem exitingNetwork_fresh : exitingNetwork.Fresh := by
  intro a t h
  cases h
  exact ⟨rfl, rfl⟩

/-- A session opened on `exitingNetwork`. -/
def openedSession : RemoteSession (MemoryStub Unit) :=
  endState ((Request.open exitingNetwork "127.0.0.1:1").run (RemoteSession.new {}))

/-- `openedSession` with a user breakpoint armed at `0x1000`. -/
def armedSession : RemoteSession (MemoryStub Unit) :=
  endState ((Request.addBreakpoint 0x1000 .user).run openedSession)

/-- `openedSession` with a user breakpoint armed at address `0`. -/
def wrapSession : RemoteSession (MemoryStub Unit) :=
  endState ((Request.addBreakpoint 0 .user).run openedSession)

end RemoteSession

end RemoteDebugger
