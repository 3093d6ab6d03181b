import RemoteDebugger.Proofs.Remote.StubClient
import RemoteDebugger.Proofs.Remote.Overlay

/-!
# Session steps that keep the logical memory

A session is ready when it is open over a link at rest with a well-formed store whose traps are
in memory. A steady operation ends ready with the same logical memory, last id and running flag,
and no new temporary breakpoint.
-/

namespace RemoteDebugger

variable {σ : Type}

namespace RemoteSession

/-- The logical memory of a connected session. -/
def logicalMemory (s : RemoteSession (MemoryStub σ)) : Option (UInt64 → UInt8) :=
  s.host.map fun c => overlay s.breakpoints c.link.transport.memory

/-- An open session over a link at rest, with a well-formed store whose traps are all in the
stub's memory. -/
structure Ready (s : RemoteSession (MemoryStub σ)) (c : Client (MemoryStub σ)) : Prop where
  state : s.state = .opened
  host : s.host = some c
  quiet : Link.Quiet c.link
  traps : Traps s.breakpoints c.link.transport.memory
  store : s.breakpoints.WellFormed

/-- A step from `s` to `s'` that keeps the session ready, its logical memory, the last id and the
running flag, and adds no temporary breakpoint. -/
structure Keeps (s s' : RemoteSession (MemoryStub σ)) : Prop where
  ready : ∃ c', Ready s' c'
  memory : logicalMemory s' = logicalMemory s
  lastId : s'.breakpoints.lastId = s.breakpoints.lastId
  running : s'.running = s.running
  temporaries : ∀ x ∈ s'.breakpoints.temporaries, x ∈ s.breakpoints.temporaries

theorem Keeps.refl {s : RemoteSession (MemoryStub σ)} {c : Client (MemoryStub σ)} (h : Ready s c) :
    Keeps s s := ⟨⟨c, h⟩, rfl, rfl, rfl, fun _ hx => hx⟩

theorem Keeps.trans {s s' s'' : RemoteSession (MemoryStub σ)} (h : Keeps s s') (h' : Keeps s' s'') :
    Keeps s s'' :=
  ⟨h'.ready, h'.memory.trans h.memory, h'.lastId.trans h.lastId, h'.running.trans h.running,
    fun x hx => h.temporaries x (h'.temporaries x hx)⟩

/-- A session operation that, from a ready session, keeps the logical memory whether it
succeeds or fails. -/
def Steady {α : Type} (m : SessionM (MemoryStub σ) α) : Prop :=
  ∀ s c, Ready s c → Keeps s (endState (m s))

section Steady

variable {α β : Type}

theorem steady_pure (a : α) : Steady (pure a : SessionM (MemoryStub σ) α) :=
  fun _ _ h => Keeps.refl h

theorem steady_throw (e : DebugError) : Steady (throw e : SessionM (MemoryStub σ) α) :=
  fun _ _ h => Keeps.refl h

theorem steady_get : Steady (get : SessionM (MemoryStub σ) _) :=
  fun _ _ h => Keeps.refl h

theorem steady_bind {m : SessionM (MemoryStub σ) α} {f : α → SessionM (MemoryStub σ) β}
    (hm : Steady m) (hf : ∀ a, Steady (f a)) : Steady (m >>= f) := by
  intro s c hs
  have hk := hm s c hs
  cases h : m s with
  | ok a s' =>
    rw [h] at hk
    obtain ⟨c', hs'⟩ := hk.ready
    rw [bind_apply, h]
    exact hk.trans (hf a s' c' hs')
  | error e s' =>
    rw [h] at hk
    rw [bind_apply, h]
    exact hk

theorem steady_tryCatch {m : SessionM (MemoryStub σ) α} {h : DebugError → SessionM (MemoryStub σ) α}
    (hm : Steady m) (hh : ∀ e, Steady (h e)) : Steady (tryCatch m h) := by
  intro s c hs
  have hk := hm s c hs
  cases hr : m s with
  | ok a s' =>
    rw [hr] at hk
    have hrun : tryCatch m h s = .ok a s' := by
      simp only [tryCatch, tryCatchThe, MonadExceptOf.tryCatch, EStateM.tryCatch, hr]
    rw [hrun]
    exact hk
  | error e s' =>
    rw [hr] at hk
    obtain ⟨c', hs'⟩ := hk.ready
    have hrun : tryCatch m h s = h e s' := by
      simp only [tryCatch, tryCatchThe, MonadExceptOf.tryCatch, EStateM.tryCatch, hr]
      rfl
    rw [hrun]
    exact hk.trans (hh e s' c' hs')

theorem steady_map {m : SessionM (MemoryStub σ) α} (f : α → β) (hm : Steady m) :
    Steady (f <$> m) := by
  intro s c hs
  have hk := hm s c hs
  cases hr : m s with
  | ok a s' =>
    rw [hr] at hk
    have hrun : (f <$> m) s = .ok (f a) s' := by simp only [Functor.map, EStateM.map, hr]
    rw [hrun]
    exact hk
  | error e s' =>
    rw [hr] at hk
    have hrun : (f <$> m) s = .error e s' := by simp only [Functor.map, EStateM.map, hr]
    rw [hrun]
    exact hk

theorem steady_attempt {m : SessionM (MemoryStub σ) α} (hm : Steady m) : Steady (attempt m) :=
  steady_tryCatch (steady_map _ hm) fun _ => steady_pure _

/-- Announcing an event keeps the session ready and its logical memory as it was. -/
theorem steady_publish (e : SessionEvent) : Steady (publish e : SessionM (MemoryStub σ) _) := by
  intro s c hs
  exact ⟨⟨c, hs.state, hs.host, hs.quiet, hs.traps, hs.store⟩, rfl, rfl, rfl, fun _ hx => hx⟩

/-- A client operation that leaves the stub's memory alone and the link at rest keeps the
logical memory. -/
theorem steady_onHost {m : ClientM (MemoryStub σ) α} (hm : Client.Runs Link.Quiet Link.Quiet m) :
    Steady (onHost m) := by
  intro s c hs
  have hend := hm c hs.quiet
  have hready : ∀ c', Link.Quiet c'.link → c'.link.transport.memory = c.link.transport.memory →
      Keeps s { s with host := some c' } := by
    intro c' hq hmem
    refine ⟨⟨c', hs.state, rfl, hq, ?_, hs.store⟩, ?_, rfl, rfl, fun _ hx => hx⟩
    · rw [hmem]
      exact hs.traps
    · simp only [logicalMemory, hs.host, Option.map_some, hmem]
  unfold onHost
  simp only [hs.host, EStateM.run]
  cases hr : m c with
  | ok a c' =>
    rw [hr] at hend
    exact hready c' hend.1 hend.2
  | error e c' =>
    rw [hr] at hend
    exact hready c' hend.1 hend.2

/-- A step that changes the store and the stub's memory at one address only, keeping the
trap and the logical byte there, leaves the session ready with its logical memory. -/
theorem ready_at {s : RemoteSession (MemoryStub σ)} {c : Client (MemoryStub σ)} (hs : Ready s c)
    (a : UInt64) {st : BreakpointStore} {m : UInt64 → UInt8} (hwf : st.WellFormed)
    (hfind : ∀ x, x ≠ a → st.find? x = s.breakpoints.find? x)
    (hmem : ∀ x, x ≠ a → m x = c.link.transport.memory x)
    (hview : overlay st m a = overlay s.breakpoints c.link.transport.memory a)
    (htrap : ∀ b, st.find? a = some b → b.isArmed = true → m a = trapInstruction) :
    Ready { s with host := some (c.withMemory m), breakpoints := st } (c.withMemory m) ∧
      logicalMemory { s with host := some (c.withMemory m), breakpoints := st } =
        logicalMemory s := by
  refine ⟨⟨hs.state, rfl, Client.quiet_withMemory hs.quiet m, ?_, hwf⟩, ?_⟩
  · exact traps_congr a hfind hmem hs.traps htrap
  · simp only [logicalMemory, hs.host, Option.map_some, Client.withMemory_memory]
    rw [overlay_congr a hfind hmem hview]

/-- The same step keeps the session when it also keeps the ids and adds no temporary
breakpoint. -/
theorem keeps_at {s : RemoteSession (MemoryStub σ)} {c : Client (MemoryStub σ)} (hs : Ready s c)
    (a : UInt64) {st : BreakpointStore} {m : UInt64 → UInt8} (hwf : st.WellFormed)
    (hfind : ∀ x, x ≠ a → st.find? x = s.breakpoints.find? x)
    (hmem : ∀ x, x ≠ a → m x = c.link.transport.memory x)
    (hview : overlay st m a = overlay s.breakpoints c.link.transport.memory a)
    (htrap : ∀ b, st.find? a = some b → b.isArmed = true → m a = trapInstruction)
    (hlast : st.lastId = s.breakpoints.lastId)
    (htemp : ∀ x ∈ st.temporaries, x ∈ s.breakpoints.temporaries) :
    Keeps s { s with host := some (c.withMemory m), breakpoints := st } :=
  have h := ready_at hs a hwf hfind hmem hview htrap
  ⟨⟨_, h.1⟩, h.2, hlast, rfl, htemp⟩

/-! ### The session's own steps -/

theorem onStore_apply {τ β : Type} [Transport τ] (f : BreakpointStore → BreakpointStore × β)
    (s : RemoteSession τ) :
    onStore f s = .ok (f s.breakpoints).2 { s with breakpoints := (f s.breakpoints).1 } := rfl

theorem get_apply {τ : Type} [Transport τ] (s : RemoteSession τ) :
    (get : SessionM τ _) s = .ok s s := rfl

theorem onHost_apply {τ : Type} [Transport τ] {s : RemoteSession τ} {c : Client τ}
    (hc : s.host = some c) (m : ClientM τ α) :
    onHost m s = match m c with
      | .ok a c' => .ok a { s with host := some c' }
      | .error e c' => .error e { s with host := some c' } := by
  unfold onHost
  simp only [hc, EStateM.run]
  cases m c <;> rfl

theorem publish_apply {τ : Type} [Transport τ] (e : SessionEvent) (s : RemoteSession τ) :
    (publish e : SessionM τ _) s = .ok () { s with events := s.events.push e } := rfl

theorem onHost_writeMemory {s : RemoteSession (MemoryStub σ)} {c : Client (MemoryStub σ)}
    (hs : Ready s c) (a : UInt64) (data : List UInt8) (h : data.length ≤ UInt64.size) :
    onHost (Client.writeMemory a data) s =
      .ok () { s with host := some (c.withMemory (storeAt c.link.transport.memory a data)) } := by
  simp only [onHost, hs.host, EStateM.run, Client.writeMemory_quiet hs.quiet a data h]

theorem onHost_readMemory {s : RemoteSession (MemoryStub σ)} {c : Client (MemoryStub σ)}
    (hs : Ready s c) (a : UInt64) (n : Nat) :
    onHost (Client.readMemory a n) s = .ok (bytesAt c.link.transport.memory a n) s := by
  have hself : ({ s with host := some c } : RemoteSession (MemoryStub σ)) = s := by
    rw [← hs.host]
  simp only [onHost, hs.host, EStateM.run, Client.readMemory_quiet hs.quiet a n, hself]

/-- Lifting an armed trap puts the saved byte back and suspends the breakpoint. -/
theorem disarm_armed {s : RemoteSession (MemoryStub σ)} {c : Client (MemoryStub σ)}
    (hs : Ready s c) {a : Address} {b : Breakpoint} (hb : s.breakpoints.find? a = some b)
    (harmed : b.state = .armed) :
    disarm a s = .ok () { s with host := some (c.withMemory (storeAt c.link.transport.memory a [b.savedByte])),
                                 breakpoints := (s.breakpoints.setState a .suspended).1 } := by
  simp only [disarm, bind_apply, get, getThe, MonadStateOf.get, EStateM.get, hb, harmed, if_true,
    onHost_writeMemory hs a [b.savedByte] (by simp [UInt64.size]), discard, Functor.mapConst]
  rfl

/-- Nothing is written for a breakpoint that is not armed. -/
theorem disarm_of_not_armed {τ : Type} [Transport τ] {s : RemoteSession τ} {a : Address} {b : Breakpoint}
    (hb : s.breakpoints.find? a = some b) (harmed : b.state ≠ .armed) : disarm a s = .ok () s := by
  simp only [disarm, bind_apply, get, getThe, MonadStateOf.get, EStateM.get, hb, harmed, if_false,
    pure, EStateM.pure]

theorem disarm_none {τ : Type} [Transport τ] {s : RemoteSession τ} {a : Address}
    (hb : s.breakpoints.find? a = none) : disarm a s = .error (.noBreakpoint a) s := by
  simp only [disarm, bind_apply, get, getThe, MonadStateOf.get, EStateM.get, hb, throw, throwThe,
    MonadExceptOf.throw, EStateM.throw]

theorem steady_disarm (a : Address) : Steady (disarm a : SessionM (MemoryStub σ) _) := by
  intro s c hs
  cases hb : s.breakpoints.find? a with
  | none =>
    rw [disarm_none hb]
    exact Keeps.refl hs
  | some b =>
    by_cases harmed : b.state = .armed
    · rw [disarm_armed hs hb harmed]
      -- the saved byte goes back under a suspended breakpoint: the logical byte stays
      have hfind := BreakpointStore.find?_setState s.breakpoints a .suspended
      refine keeps_at hs a (BreakpointStore.wellFormed_setState hs.store a _)
        (fun x hx => by rw [hfind, if_neg hx]) (fun x hx => by rw [storeAt_single, if_neg hx]) ?_ ?_
        (BreakpointStore.setState_lastId _ _ _)
        (fun x hx => by rwa [BreakpointStore.temporaries_setState] at hx)
      · simp [overlay, hfind, hb, storeAt_single, Breakpoint.isArmed, harmed]
      · intro b' hb' harmed'
        simp [hfind, hb] at hb'
        subst hb'
        simp [Breakpoint.isArmed] at harmed'
    · rw [disarm_of_not_armed hb harmed]
      exact Keeps.refl hs

/-- Writing the trap back over a suspended breakpoint re-arms it. -/
theorem arm_suspended {s : RemoteSession (MemoryStub σ)} {c : Client (MemoryStub σ)}
    (hs : Ready s c) {a : Address} {b : Breakpoint} (hb : s.breakpoints.find? a = some b)
    (hsusp : b.state = .suspended) :
    arm a s = .ok () { s with host := some (c.withMemory (storeAt c.link.transport.memory a [trapInstruction])),
                              breakpoints := (s.breakpoints.setState a .armed).1 } := by
  have hany : (s.breakpoints.find? a).any (·.state == .suspended) = true := by simp [hb, hsusp]
  simp only [arm, bind_apply, get, getThe, MonadStateOf.get, EStateM.get, hany, if_true,
    onHost_writeMemory hs a [trapInstruction] (by simp [UInt64.size]), discard, Functor.mapConst]
  rfl

/-- Re-arming a suspended breakpoint whose saved byte is in memory keeps the logical memory. -/
theorem keeps_arm {s : RemoteSession (MemoryStub σ)} {c : Client (MemoryStub σ)} (hs : Ready s c)
    {a : Address} {b : Breakpoint} (hb : s.breakpoints.find? a = some b)
    (hsusp : b.state = .suspended) (hsaved : c.link.transport.memory a = b.savedByte) :
    Keeps s { s with host := some (c.withMemory (storeAt c.link.transport.memory a [trapInstruction])),
                     breakpoints := (s.breakpoints.setState a .armed).1 } := by
  have hfind := BreakpointStore.find?_setState s.breakpoints a .armed
  refine keeps_at hs a (BreakpointStore.wellFormed_setState hs.store a _)
    (fun x hx => by rw [hfind, if_neg hx]) (fun x hx => by rw [storeAt_single, if_neg hx]) ?_ ?_
    (BreakpointStore.setState_lastId _ _ _)
    (fun x hx => by rwa [BreakpointStore.temporaries_setState] at hx)
  · simp [overlay, hfind, hb, Breakpoint.isArmed, hsusp, hsaved]
  · intro b' _ _
    simp [storeAt_single]

theorem attempt_onHost {τ α : Type} [Transport τ] {s : RemoteSession τ} {c : Client τ}
    (hc : s.host = some c) (m : ClientM τ α) :
    attempt (onHost m) s = match m c with
      | .ok a c' => .ok (.ok a) { s with host := some c' }
      | .error e c' => .ok (.error e) { s with host := some c' } := by
  simp only [attempt, tryCatch, tryCatchThe, MonadExceptOf.tryCatch, EStateM.tryCatch, Functor.map,
    EStateM.map, onHost, hc, EStateM.run]
  cases m c <;> rfl

/-- Stepping over an armed breakpoint runs the instruction under it with the saved byte in
place and puts the trap back, unless the target is gone: either way the logical memory is what
it was. -/
theorem keeps_stepOverBreakpoint {s : RemoteSession (MemoryStub σ)} {c : Client (MemoryStub σ)}
    (hs : Ready s c) {pc : Address} {b : Breakpoint} (hb : s.breakpoints.find? pc = some b)
    (harmed : b.state = .armed) : Keeps s (endState (stepOverBreakpoint pc s)) := by
  -- after lifting the trap, the breakpoint is suspended over its saved byte
  have hdisarm := disarm_armed hs hb harmed
  have k1 := steady_disarm pc s c hs
  simp only [hdisarm, endState] at k1
  have hb1 : (s.breakpoints.setState pc .suspended).1.find? pc = some { b with state := .suspended } := by
    simp [BreakpointStore.find?_setState, hb]
  -- the single step leaves the store and the memory alone; re-arming then restores the trap
  have hafter : ∀ c2 : Client (MemoryStub σ), Link.Quiet c2.link →
      c2.link.transport.memory = storeAt c.link.transport.memory pc [b.savedByte] →
      ∃ r2 : Ready { s with host := some c2, breakpoints := (s.breakpoints.setState pc .suspended).1 } c2,
        Keeps s { s with host := some c2, breakpoints := (s.breakpoints.setState pc .suspended).1 } ∧
        Keeps s (endState (arm pc
          { s with host := some c2, breakpoints := (s.breakpoints.setState pc .suspended).1 })) := by
    intro c2 hq2 hmem2
    obtain ⟨c1, r1⟩ := k1.ready
    have hc1 : c1.link.transport.memory = storeAt c.link.transport.memory pc [b.savedByte] := by
      have := r1.host
      simp only [Option.some.injEq] at this
      rw [← this]
      rfl
    have r2 : Ready { s with host := some c2, breakpoints := (s.breakpoints.setState pc .suspended).1 } c2 :=
      ⟨r1.state, rfl, hq2, hmem2 ▸ hc1 ▸ r1.traps, r1.store⟩
    have k2 : Keeps s { s with host := some c2, breakpoints := (s.breakpoints.setState pc .suspended).1 } :=
      ⟨⟨c2, r2⟩, by simpa [logicalMemory, hmem2] using k1.memory, k1.lastId, k1.running, k1.temporaries⟩
    refine ⟨r2, k2, ?_⟩
    rw [arm_suspended r2 hb1 rfl]
    exact k2.trans (keeps_arm r2 hb1 rfl (by simp [hmem2, storeAt_single]))
  unfold stepOverBreakpoint
  rw [bind_apply, hdisarm]
  simp only []
  rw [bind_apply, attempt_onHost rfl]
  have hend := Client.runs_singleStep (c.withMemory (storeAt c.link.transport.memory pc [b.savedByte]))
    (Client.quiet_withMemory hs.quiet _)
  cases hr : Client.singleStep (c.withMemory (storeAt c.link.transport.memory pc [b.savedByte])) with
  | ok stop c2 =>
    rw [hr] at hend
    obtain ⟨r2, k2, k3⟩ := hafter c2 hend.1 hend.2
    simp only []
    by_cases halive : stop.reason.isAlive = true
    · simp only [halive, if_true, bind_apply]
      cases harm : arm pc { s with host := some c2, breakpoints := (s.breakpoints.setState pc .suspended).1 } with
      | ok u t =>
        rw [harm] at k3
        exact k3
      | error e t =>
        rw [harm] at k3
        exact k3
    · simp only [halive]
      exact k2
  | error e c2 =>
    rw [hr] at hend
    obtain ⟨r2, k2, k3⟩ := hafter c2 hend.1 hend.2
    simp only [if_true, bind_apply]
    cases harm : arm pc { s with host := some c2, breakpoints := (s.breakpoints.setState pc .suspended).1 } with
    | ok u t =>
      rw [harm] at k3
      exact k3
    | error e' t =>
      rw [harm] at k3
      exact k3

theorem discard_apply {τ α : Type} [Transport τ] (m : SessionM τ α) (s : RemoteSession τ) :
    discard m s = match m s with
      | .ok _ s' => .ok () s'
      | .error e s' => .error e s' := by
  simp only [discard, Functor.mapConst, Function.comp_apply, Function.const_apply, EStateM.map]
  cases m s <;> rfl

theorem attempt_apply {τ α : Type} [Transport τ] (m : SessionM τ α) (s : RemoteSession τ) :
    attempt m s = .ok (match m s with
      | .ok a _ => .ok a
      | .error e _ => .error e) (endState (m s)) := by
  simp only [attempt, tryCatch, tryCatchThe, MonadExceptOf.tryCatch, EStateM.tryCatch, Functor.map,
    EStateM.map]
  cases m s <;> rfl

/-! ### Opening and closing, one locked section at a time -/

theorem beginOpen_closed {τ : Type} [Transport τ] {s : RemoteSession τ} (hs : s.state = .closed) :
    beginOpen s = .ok () { s with state := .opening } := by
  simp [beginOpen, bind_apply, get_apply, hs]
  rfl

theorem beginOpen_refused {τ : Type} [Transport τ] {s : RemoteSession τ} (hs : s.state ≠ .closed) :
    beginOpen s = .error (.invalidState "closed" s.state.render) s := by
  simp [beginOpen, bind_apply, get_apply, hs, throw, throwThe, MonadExceptOf.throw, EStateM.throw]

/-- `open` takes the handshake's outcome in where its first section left the session. -/
theorem open_apply {τ : Type} [Transport τ] (net : Network τ) (address : String)
    (s : RemoteSession τ) :
    «open» net address s = match beginOpen s with
      | .ok _ t => finishOpen address (handshake t.config net address) t
      | .error e t => .error e t := by
  rw [«open», bind_apply]
  cases beginOpen s <;> rfl

theorem endState_finishOpen_ok {τ : Type} [Transport τ] (address : String) (c : Client τ)
    (h : Handshake) (s : RemoteSession τ) :
    endState (finishOpen address (.ok (c, h)) s) =
      { s with host := some c, architecture := some h.architecture, state := .opened,
               running := false } := rfl

theorem endState_finishOpen_error {τ : Type} [Transport τ] (address : String) (e : DebugError)
    (s : RemoteSession τ) : endState (finishOpen address (.error e) s) = { s with state := .closed } := by
  simp only [finishOpen, bind_apply, modify, modifyGet, MonadStateOf.modifyGet, EStateM.modifyGet]
  split <;> rfl

theorem beginClose_apply {τ : Type} [Transport τ] (s : RemoteSession τ) :
    beginClose s = if s.state = .closed ∨ s.state = .closing then .ok false s
      else .ok true { s with state := .closing, polling := false } := by
  simp only [beginClose, bind_apply, get_apply]
  split <;> rfl

/-- `close` goes on to its second section exactly when its first says so. -/
theorem close_apply {τ : Type} [Transport τ] (s : RemoteSession τ) :
    close s = match beginClose s with
      | .ok true t => finishClose t
      | .ok false t => .ok () t
      | .error e t => .error e t := by
  simp only [close, bind_apply]
  cases beginClose s with
  | ok go t => cases go <;> rfl
  | error e t => rfl

/-- Whatever becomes of it, lifting a trap leaves no armed breakpoint at its address. -/
theorem disarm_unarmed {s : RemoteSession (MemoryStub σ)} {c : Client (MemoryStub σ)}
    (hs : Ready s c) (a : Address) :
    ∀ b, (endState (disarm a s)).breakpoints.find? a = some b → b.isArmed = false := by
  intro b' hb'
  cases hb : s.breakpoints.find? a with
  | none =>
    rw [disarm_none hb] at hb'
    simp [endState, hb] at hb'
  | some b =>
    by_cases harmed : b.state = .armed
    · rw [disarm_armed hs hb harmed] at hb'
      simp only [endState, BreakpointStore.find?_setState, hb, if_true, Option.map_some,
        Option.some.injEq] at hb'
      rw [← hb']
      rfl
    · rw [disarm_of_not_armed hb harmed] at hb'
      simp only [endState, hb, Option.some.injEq] at hb'
      rw [← hb']
      simpa [Breakpoint.isArmed] using harmed

/-- Forgetting a breakpoint that is not armed keeps the logical memory: its byte is in memory. -/
theorem keeps_removeAt {s : RemoteSession (MemoryStub σ)} {c : Client (MemoryStub σ)}
    (hs : Ready s c) {a : Address}
    (ha : ∀ b, s.breakpoints.find? a = some b → b.isArmed = false) :
    Keeps s { s with breakpoints := (s.breakpoints.removeAt a).1 } := by
  have hfind := BreakpointStore.find?_removeAt hs.store a
  have hkeep := keeps_at hs a (BreakpointStore.wellFormed_removeAt hs.store a)
    (fun x hx => by rw [hfind, if_neg hx])
    (fun x _ => (rfl : c.link.transport.memory x = c.link.transport.memory x)) ?_ ?_
    (BreakpointStore.removeAt_lastId a) (BreakpointStore.temporaries_removeAt hs.store a)
  · have hself : c.withMemory c.link.transport.memory = c := rfl
    rw [hself, ← hs.host] at hkeep
    exact hkeep
  · cases hb : s.breakpoints.find? a with
    | none => simp [overlay, hfind, hb]
    | some b => simp [overlay, hfind, hb, ha b hb]
  · intro b hb
    simp [hfind] at hb

/-- A loop of steps that each keep the logical memory keeps it. -/
theorem steady_forIn {α : Type} (xs : List α)
    (f : α → PUnit → SessionM (MemoryStub σ) (ForInStep PUnit)) (hf : ∀ x, Steady (f x ⟨⟩)) :
    Steady (forIn xs ⟨⟩ f) := by
  induction xs with
  | nil => exact steady_pure _
  | cons x xs ih =>
    rw [List.forIn_cons]
    refine steady_bind (hf x) fun r => ?_
    cases r with
    | done u => exact steady_pure _
    | yield u => exact ih

/-- Lifting a breakpoint, as far as its byte can be restored, and forgetting it, then going on
with a step that keeps the logical memory. -/
theorem steady_lift (a : Address) {β : Type} {k : SessionM (MemoryStub σ) β} (hk : Steady k) :
    Steady (do discard <| attempt (disarm a); discard <| onStore (·.removeAt a); k) := by
  intro s c hs
  have k1 := steady_disarm a s c hs
  obtain ⟨c1, r1⟩ := k1.ready
  have k2 := keeps_removeAt r1 (disarm_unarmed hs a)
  obtain ⟨c2, r2⟩ := k2.ready
  simp only [bind_apply, discard_apply, attempt_apply, onStore_apply]
  exact (k1.trans k2).trans (hk _ c2 r2)

theorem steady_removeTemporaries : Steady (removeTemporaries : SessionM (MemoryStub σ) Unit) := by
  unfold removeTemporaries
  refine steady_bind steady_get fun s => ?_
  exact steady_bind (steady_forIn _ _ fun a => steady_lift a (steady_pure _)) fun _ => steady_pure _

/-- Counting a hit changes no byte, logical or in memory. -/
theorem steady_recordHit (a : Address) :
    Steady (onStore (·.recordHit a) : SessionM (MemoryStub σ) _) := by
  intro s c hs
  rw [onStore_apply]
  rcases BreakpointStore.recordHit_eq s.breakpoints a with h | ⟨f, hf, h⟩
  · simp only [endState, h]
    exact Keeps.refl hs
  · simp only [endState, h]
    have hfa : ∀ e, (f e).address = e.address := fun e => by rw [hf e]
    have hfind := BreakpointStore.find?_modifyAt s.breakpoints a f hfa
    have hkeep := keeps_at hs a
      (BreakpointStore.wellFormed_modifyAt hs.store a f hfa (fun e => by rw [hf e]))
      (fun x hx => by rw [hfind, if_neg hx])
      (fun x _ => (rfl : c.link.transport.memory x = c.link.transport.memory x)) ?_ ?_
      (BreakpointStore.modifyAt_lastId _ _ _)
      (fun x hx => by rwa [BreakpointStore.temporaries_modifyAt _ _ f hfa (fun e => by rw [hf e])] at hx)
    · have hself : c.withMemory c.link.transport.memory = c := rfl
      rw [hself, ← hs.host] at hkeep
      exact hkeep
    · cases hb : s.breakpoints.find? a with
      | none => simp [overlay, hfind, hb]
      | some b =>
        simp only [overlay, hfind, if_true, hb, Option.map_some]
        rw [hf b]
        rfl
    · intro b hb harmed
      simp only [hfind, if_true] at hb
      cases hb0 : s.breakpoints.find? a with
      | none => simp [hb0] at hb
      | some b0 =>
        simp only [hb0, Option.map_some, Option.some.injEq] at hb
        rw [← hb, hf b0] at harmed
        exact hs.traps a b0 hb0 harmed

theorem steady_rewindTrap (stop : StopEvent) (resumed : Bool) :
    Steady (rewindTrap stop resumed : SessionM (MemoryStub σ) _) := by
  unfold rewindTrap
  refine steady_bind (steady_onHost (Client.runs_readRegisters none)) fun regs => ?_
  refine steady_bind steady_get fun s => ?_
  split
  · exact steady_pure _
  · refine steady_bind steady_get fun s' => ?_
    split
    · exact steady_pure _
    · refine steady_bind (steady_onHost (Client.runs_writeRegisters _)) fun _ => ?_
      exact steady_bind (steady_recordHit _) fun _ => steady_pure _

/-- A step from `s` to `s'` that may forget temporary traps without restoring them: the session
stays ready, and each logical byte is what it was or the trap at a temporary breakpoint's
address. -/
structure Settles (s s' : RemoteSession (MemoryStub σ)) : Prop where
  ready : ∃ c', Ready s' c'
  memory : ∀ V, logicalMemory s = some V → ∃ V', logicalMemory s' = some V' ∧
    ∀ x, V' x = V x ∨ (x ∈ s.breakpoints.temporaries ∧ V' x = trapInstruction)
  lastId : s'.breakpoints.lastId = s.breakpoints.lastId

theorem Keeps.settles {s s' : RemoteSession (MemoryStub σ)} (h : Keeps s s') : Settles s s' :=
  ⟨h.ready, fun V hV => ⟨V, h.memory.trans hV, fun _ => .inl rfl⟩, h.lastId⟩

theorem Keeps.trans_settles {s s' s'' : RemoteSession (MemoryStub σ)} (h : Keeps s s')
    (h' : Settles s' s'') : Settles s s'' := by
  refine ⟨h'.ready, fun V hV => ?_, h'.lastId.trans h.lastId⟩
  obtain ⟨V', hV', hx⟩ := h'.memory V (h.memory.trans hV)
  refine ⟨V', hV', fun x => ?_⟩
  rcases hx x with hx | ⟨ht, hx⟩
  · exact .inl hx
  · exact .inr ⟨h.temporaries x ht, hx⟩

theorem Settles.trans_keeps {s s' s'' : RemoteSession (MemoryStub σ)} (h : Settles s s')
    (h' : Keeps s' s'') : Settles s s'' := by
  refine ⟨h'.ready, fun V hV => ?_, h'.lastId.trans h.lastId⟩
  obtain ⟨V', hV', hx⟩ := h.memory V hV
  exact ⟨V', h'.memory.trans hV', hx⟩

/-- Taking in a stop: the target is no longer running, and what follows keeps the memory. -/
theorem settles_after_stop {s : RemoteSession (MemoryStub σ)} {c : Client (MemoryStub σ)}
    (hs : Ready s c) (stop : StopEvent) {α : Type} {m : SessionM (MemoryStub σ) α} (hm : Steady m) :
    Settles s (endState (m { s with running := false, lastStop := some stop })) ∧
      (endState (m { s with running := false, lastStop := some stop })).running = false := by
  have r0 : Ready { s with running := false, lastStop := some stop } c :=
    ⟨hs.state, hs.host, hs.quiet, hs.traps, hs.store⟩
  have k := hm _ c r0
  refine ⟨⟨k.ready, fun V hV => ⟨V, k.memory.trans hV, fun _ => .inl rfl⟩, k.lastId⟩, k.running⟩

/-- The part of taking in a stop after the breakpoints are dealt with: pass on output and
announce the stop. -/
theorem steady_announce (stop : StopEvent) (pc : Option Address) (hit : Option UInt64) :
    Steady (do
      let __do_lift ← get
      if __do_lift.host.isSome = true then do
          let output ← onHost Client.takeOutput
          forIn output PUnit.unit fun text __s => do
              publish (SessionEvent.output text)
              pure (ForInStep.yield PUnit.unit)
          publish (SessionEvent.stopped stop.reason stop.thread pc hit)
        else do
          let output ← pure []
          forIn output PUnit.unit fun text __s => do
              publish (SessionEvent.output text)
              pure (ForInStep.yield PUnit.unit)
          publish (SessionEvent.stopped stop.reason stop.thread pc hit) :
      SessionM (MemoryStub σ) Unit) := by
  have hpublish : ∀ output : List String, Steady (do
      forIn output PUnit.unit fun text __s => do
          publish (SessionEvent.output text)
          pure (ForInStep.yield PUnit.unit)
      publish (SessionEvent.stopped stop.reason stop.thread pc hit) : SessionM (MemoryStub σ) Unit) :=
    fun output => steady_bind (steady_forIn _ _ fun text =>
      steady_bind (steady_publish _) fun _ => steady_pure _) fun _ => steady_publish _
  refine steady_bind steady_get fun s => ?_
  split
  · exact steady_bind (steady_onHost Client.runs_takeOutput) hpublish
  · exact steady_bind (steady_pure _) hpublish

theorem foldl_breakpoints {τ β : Type} (F : BreakpointStore → β → BreakpointStore) (L : List β)
    (s : RemoteSession τ) :
    L.foldl (fun s b => { s with breakpoints := F s.breakpoints b }) s =
      { s with breakpoints := L.foldl F s.breakpoints } := by
  induction L generalizing s with
  | nil => rfl
  | cons b L ih => exact ih _

/-- Taking in a stop keeps the logical memory, except that after a stop the target does not live
through, temporary breakpoints are forgotten with their traps left in memory. The target is not
running afterwards. -/
theorem settles_handleStop {s : RemoteSession (MemoryStub σ)} {c : Client (MemoryStub σ)}
    (hs : Ready s c) (stop : StopEvent) (resumed : Bool) :
    Settles s (endState (handleStop stop resumed s)) ∧
      (endState (handleStop stop resumed s)).running = false := by
  unfold handleStop
  rw [bind_apply]
  simp only [modify, modifyGet, MonadStateOf.modifyGet, EStateM.modifyGet]
  by_cases halive : stop.reason.isAlive = true
  · simp only [halive, if_true]
    refine settles_after_stop hs stop ?_
    refine steady_bind (steady_attempt (steady_rewindTrap _ _)) fun rewound => ?_
    refine steady_bind steady_removeTemporaries fun _ => ?_
    split
    · exact steady_bind (steady_pure _) fun x => steady_announce stop x.1 x.2
    · exact steady_bind (steady_pure _) fun x => steady_announce stop x.1 x.2
  · simp only [halive, Bool.false_eq_true, if_false]
    -- without restoring their bytes, the temporary breakpoints are forgotten
    have hloop := forIn_yield s.breakpoints.temporaries
      (fun a (_ : PUnit) => (discard (onStore fun x => x.removeAt a) >>= fun _ =>
        pure (ForInStep.yield PUnit.unit) : SessionM (MemoryStub σ) (ForInStep PUnit)))
      (fun a s => { s with breakpoints := (s.breakpoints.removeAt a).1 }) (fun _ => True)
      (fun a t _ => ⟨by simp only [bind_apply, discard_apply, onStore_apply]; rfl, trivial⟩)
      { s with running := false, lastStop := some stop } trivial
    rw [foldl_breakpoints fun st a => (st.removeAt a).1] at hloop
    obtain ⟨hwf, htraps, hlast, hview⟩ := overlay_foldl_removeAt c.link.transport.memory
      (overlay s.breakpoints c.link.transport.memory) s.breakpoints.temporaries
      s.breakpoints.temporaries s.breakpoints (fun _ h => h) hs.store hs.traps (fun _ => .inl rfl)
    have r1 : Ready { s with running := false, lastStop := some stop,
                             breakpoints := s.breakpoints.temporaries.foldl
                               (fun st a => (st.removeAt a).1) s.breakpoints } c :=
      ⟨hs.state, hs.host, hs.quiet, htraps, hwf⟩
    rw [bind_apply, show (get : SessionM (MemoryStub σ) _) { s with running := false, lastStop := some stop } =
      .ok { s with running := false, lastStop := some stop } { s with running := false, lastStop := some stop }
      from rfl]
    simp only []
    rw [bind_apply, hloop]
    simp only []
    have k := (steady_bind (steady_pure (none, none)) fun x => steady_announce stop x.1 x.2) _ c r1
    refine ⟨⟨k.ready, fun V hV => ?_, k.lastId.trans hlast⟩, k.running⟩
    refine ⟨overlay (s.breakpoints.temporaries.foldl (fun st a => (st.removeAt a).1) s.breakpoints)
      c.link.transport.memory, ?_, ?_⟩
    · rw [k.memory]
      simp [logicalMemory, hs.host]
    · simp only [logicalMemory, hs.host, Option.map_some, Option.some.injEq] at hV
      subst hV
      exact hview

theorem steady_ite {c : Prop} [Decidable c] {m m' : SessionM (MemoryStub σ) α}
    (hm : Steady m) (hm' : Steady m') : Steady (if c then m else m') := by
  split
  · exact hm
  · exact hm'

theorem steady_stepInstruction (pc : Address) :
    Steady (stepInstruction pc : SessionM (MemoryStub σ) _) := by
  intro s c hs
  unfold stepInstruction
  rw [bind_apply, get_apply]
  simp only []
  split
  · next harmedAt =>
    -- an armed breakpoint sits at the program counter
    cases hb : s.breakpoints.find? pc with
    | none => simp [BreakpointStore.isArmedAt, hb] at harmedAt
    | some b =>
      have harmed : b.state = .armed := by
        simpa [BreakpointStore.isArmedAt, hb, Breakpoint.isArmed] using harmedAt
      exact keeps_stepOverBreakpoint hs hb harmed
  · exact steady_onHost Client.runs_singleStep s c hs

theorem steady_stepRound (start : Option SourcePosition) (position : Address → Option SourcePosition)
    (pc : Address) (executed : Nat) :
    Steady (stepRound start position pc executed : SessionM (MemoryStub σ) _) := by
  unfold stepRound
  refine steady_bind (steady_stepInstruction pc) fun stop => ?_
  refine steady_bind steady_get fun s => ?_
  refine steady_ite (steady_pure _) ?_
  refine steady_bind (steady_onHost (Client.runs_readRegisters none)) fun regs => ?_
  exact steady_ite (steady_pure _) (steady_pure _)

theorem steady_stepLoop (start : Option SourcePosition) (position : Address → Option SourcePosition)
    (fuel : Nat) (pc : Address) (executed : Nat) :
    Steady (stepLoop start position fuel pc executed : SessionM (MemoryStub σ) _) := by
  -- each round is steady; the next round has less fuel
  induction fuel generalizing pc executed with
  | zero =>
    rw [stepLoop]
    refine steady_bind (steady_stepRound _ _ pc executed) fun r => ?_
    cases r <;> exact steady_pure _
  | succ fuel ih =>
    rw [stepLoop]
    refine steady_bind (steady_stepRound _ _ pc executed) fun r => ?_
    cases r with
    | ends stop => exact steady_pure _
    | goesOn pc' => exact ih _ _

theorem steady_ensureOpen : Steady (ensureOpen : SessionM (MemoryStub σ) _) := by
  unfold ensureOpen
  refine steady_bind steady_get fun s => ?_
  split
  · exact steady_pure _
  · exact steady_throw _
  · exact steady_throw _

theorem steady_ensureStopped : Steady (ensureStopped : SessionM (MemoryStub σ) _) :=
  steady_bind steady_ensureOpen fun _ =>
    steady_bind steady_get fun _ => steady_ite (steady_throw _) (steady_pure _)

/-- A ready session whose target is stopped passes the check. -/
theorem ensureStopped_ready {s : RemoteSession (MemoryStub σ)} {c : Client (MemoryStub σ)}
    (hs : Ready s c) (hr : s.running = false) : ensureStopped s = .ok () s := by
  simp [ensureStopped, ensureOpen, bind_apply, get_apply, hs.state, hs.host, hr, pure,
    EStateM.pure]

/-- The check fails, changing nothing, while the target runs. -/
theorem ensureStopped_running {τ : Type} [Transport τ] {s : RemoteSession τ} (hr : s.running = true) :
    ∃ e, ensureStopped s = .error e s := by
  unfold ensureStopped ensureOpen
  rw [bind_apply, bind_apply, get_apply]
  simp only []
  cases hst : s.state <;> cases hh : s.host <;>
    simp [bind_apply, get_apply, hr, throw, throwThe, MonadExceptOf.throw, EStateM.throw, pure,
      EStateM.pure]

/-- The check fails, changing nothing, on a closed session. -/
theorem ensureStopped_closed {τ : Type} [Transport τ] {s : RemoteSession τ} (hc : s.state = .closed) :
    ∃ e, ensureStopped s = .error e s := by
  simp [ensureStopped, ensureOpen, bind_apply, get_apply, hc, throw, throwThe,
    MonadExceptOf.throw, EStateM.throw]

end Steady

end RemoteSession

end RemoteDebugger
