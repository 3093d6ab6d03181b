import RemoteDebugger.Proofs.Remote.StopHandling
import RemoteDebugger.Proofs.Remote.SessionMemory

/-!
# How stops are announced, over every run

Whatever a debugger asks of a session and however the stub answers, each operation announces at
most one stop, never with a temporary breakpoint left, names a breakpoint only for a counted hit,
and keeps every user breakpoint unless it removes one (`stop_rules_of_reached`).
-/

namespace RemoteDebugger

namespace RemoteSession

variable {τ : Type} {α β : Type}

theorem Leads.mono {R S : RemoteSession τ → RemoteSession τ → Prop} {m : SessionM τ α}
    (hRS : ∀ s s', R s s' → S s s') (hm : Leads R m) : Leads S m :=
  fun s => hRS s _ (hm s)

theorem Leads.of_ok {R : RemoteSession τ → RemoteSession τ → Prop} {m : SessionM τ α}
    (hm : Leads R m) {s s' : RemoteSession τ} {x : α} (h : m s = .ok x s') : R s s' := by
  have h1 := hm s
  rw [h] at h1
  exact h1

theorem leads_forwards_publish {e : SessionEvent} (he : e.isStopped = false) :
    Leads Forwards (publish e : SessionM τ _) :=
  leads_modify fun s => ⟨rfl, rfl, [e], by simp, by simpa using he⟩

theorem Forwards.calm {s s' : RemoteSession τ} (h : Forwards s s') : Calm s s' :=
  ⟨h.config, by rw [h.breakpoints]; exact .refl _, h.events⟩

/-- What reads the session first is taken from the session it reads. -/
theorem leads_get_bind {R : RemoteSession τ → RemoteSession τ → Prop}
    {f : RemoteSession τ → SessionM τ α} (h : ∀ d, R d (endState (f d d))) :
    Leads R (get >>= f) :=
  h

/-! ## A calm stretch, then a stop taken in -/

section Taken

variable [Transport τ] {Q : StopEvent → RemoteSession τ → Prop} {resumed : Bool}

/-- `s'` follows `s` calmly, or a calm stretch from `s` to some `t` is followed by taking in, at `t`,
a stop that `Q` allows there. -/
def CalmOrTaken (Q : StopEvent → RemoteSession τ → Prop) (resumed : Bool)
    (s s' : RemoteSession τ) : Prop :=
  Calm s s' ∨ ∃ t stop, Calm s t ∧ Q stop t ∧
    (t.breakpoints.WellFormed → TakenIn stop resumed t s')

theorem TakenIn.forwards {stop : StopEvent} {s t s' : RemoteSession τ}
    (h : TakenIn stop resumed s t) (h' : Forwards t s') : TakenIn stop resumed s s' := by
  obtain ⟨pc, hit, st, E, F, hr, hc, hb, hev, hE, hF⟩ := h
  obtain ⟨G, hG, hq⟩ := h'.events
  refine ⟨pc, hit, st, E, F ++ G, hr, h'.config.trans hc, h'.breakpoints.trans hb,
    by simp [hG, hev], hE, fun e he => ?_⟩
  rcases List.mem_append.1 he with he | he
  · exact hF e he
  · exact hq e he

theorem CalmOrTaken.calm_trans {s t s' : RemoteSession τ} (h : Calm s t)
    (h' : CalmOrTaken Q resumed t s') : CalmOrTaken Q resumed s s' := by
  rcases h' with h' | ⟨u, stop, hu, hq, htaken⟩
  · exact .inl (h.trans h')
  · exact .inr ⟨u, stop, h.trans hu, hq, htaken⟩

theorem CalmOrTaken.forwards {s t s' : RemoteSession τ} (h : CalmOrTaken Q resumed s t)
    (h' : Forwards t s') : CalmOrTaken Q resumed s s' := by
  rcases h with h | ⟨u, stop, hu, hq, htaken⟩
  · exact .inl (h.trans h'.calm)
  · exact .inr ⟨u, stop, hu, hq, fun hwf => (htaken hwf).forwards h'⟩

/-- A calm start does not change what follows. -/
theorem leads_calmOrTaken_bind {m : SessionM τ α} {f : α → SessionM τ β} (hm : Leads Calm m)
    (hf : ∀ a, Leads (CalmOrTaken Q resumed) (f a)) : Leads (CalmOrTaken Q resumed) (m >>= f) :=
  leads_bind_of hm hf (fun _ _ _ h h' => h'.calm_trans h) fun _ _ h => .inl h

/-- Taking in a stop that `Q` allows, and passing on output after it. -/
theorem calmOrTaken_handleStop {stop : StopEvent} {t : RemoteSession τ} {k : Unit → SessionM τ β}
    (hq : Q stop t) (hk : ∀ a, Leads Forwards (k a)) :
    CalmOrTaken Q resumed t (endState ((handleStop stop resumed >>= k) t)) := by
  refine .inr ⟨t, stop, .refl t, hq, fun hwf => ?_⟩
  obtain ⟨t', hrun, htaken⟩ := handleStop_spec stop resumed t hwf
  rw [bind_apply, hrun]
  exact htaken.forwards (hk () t')

end Taken

/-! ## A single edit of the store -/

section Edits

variable {E : BreakpointStore → BreakpointStore → Prop}

/-- `s'` follows `s` by a calm stretch, at most one edit `E` of the store, and another calm
stretch. -/
def EditsOnce (E : BreakpointStore → BreakpointStore → Prop) (s s' : RemoteSession τ) : Prop :=
  ∃ t st, Calm s t ∧ (st = t.breakpoints ∨ E t.breakpoints st) ∧
    Calm { t with breakpoints := st } s'

theorem EditsOnce.of_calm {s s' : RemoteSession τ} (h : Calm s s') : EditsOnce E s s' :=
  ⟨s, s.breakpoints, .refl s, .inl rfl, h⟩

theorem EditsOnce.calm_trans {s t s' : RemoteSession τ} (h : Calm s t) (h' : EditsOnce E t s') :
    EditsOnce E s s' := by
  obtain ⟨u, st, hu, hst, hu'⟩ := h'
  exact ⟨u, st, h.trans hu, hst, hu'⟩

theorem EditsOnce.trans_calm {s t s' : RemoteSession τ} (h : EditsOnce E s t) (h' : Calm t s') :
    EditsOnce E s s' := by
  obtain ⟨u, st, hu, hst, hu'⟩ := h
  exact ⟨u, st, hu, hst, hu'.trans h'⟩

theorem leads_editsOnce_bind {m : SessionM τ α} {f : α → SessionM τ β} (hm : Leads Calm m)
    (hf : ∀ a, Leads (EditsOnce E) (f a)) : Leads (EditsOnce E) (m >>= f) :=
  leads_bind_of hm hf (fun _ _ _ h h' => h'.calm_trans h) fun _ _ h => .of_calm h

theorem leads_editsOnce_then {m : SessionM τ α} {f : α → SessionM τ β}
    (hm : Leads (EditsOnce E) m) (hf : ∀ a, Leads Calm (f a)) : Leads (EditsOnce E) (m >>= f) :=
  leads_bind_of hm hf (fun _ _ _ h h' => h.trans_calm h') fun _ _ h => h

/-- An edit announces no stop. -/
theorem EditsOnce.quiet {s s' : RemoteSession τ} (h : EditsOnce E s s') :
    ∀ e ∈ published s s', e.isStopped = false := by
  obtain ⟨t, st, ht, -, ht'⟩ := h
  exact published_quiet (ht.events.trans ht'.events)

theorem EditsOnce.keepsUsers {s s' : RemoteSession τ} (h : EditsOnce E s s')
    (hE : ∀ st u, E st u → BreakpointStore.KeepsUsers st u) :
    BreakpointStore.KeepsUsers s.breakpoints s'.breakpoints := by
  obtain ⟨t, st, ht, hst, ht'⟩ := h
  have hedit : BreakpointStore.KeepsUsers t.breakpoints st := by
    rcases hst with rfl | hst
    · exact .refl _
    · exact hE _ _ hst
  exact ht.store.keepsUsers.trans (hedit.trans ht'.store.keepsUsers)

theorem EditsOnce.within {n : Nat} {s s' : RemoteSession τ} (h : EditsOnce E s s')
    (hE : ∀ st u, E st u → BreakpointStore.Within n st → BreakpointStore.Within (n + 1) u)
    (hn : BreakpointStore.Within n s.breakpoints) :
    BreakpointStore.Within (n + 1) s'.breakpoints := by
  obtain ⟨t, st, ht, hst, ht'⟩ := h
  have hnt := ht.store.within hn
  refine ht'.store.within ?_
  rcases hst with rfl | hst
  · exact hnt.mono (Nat.le_succ n)
  · exact hE _ _ hst hnt

variable [Transport τ]

theorem leads_editsOnce_onStore {f : BreakpointStore → BreakpointStore × β}
    (hE : ∀ st, E st (f st).1) : Leads (EditsOnce E) (onStore f : SessionM τ β) := by
  intro s
  rw [onStore_apply]
  exact ⟨s, (f s.breakpoints).1, .refl s, .inr (hE _), .refl _⟩

theorem leads_addBreakpoint (a : Address) (kind : BreakpointKind) :
    Leads (EditsOnce fun st u => ∃ saved, u = (st.insert a kind saved).1)
      (addBreakpoint a kind : SessionM τ _) := by
  unfold addBreakpoint
  refine leads_editsOnce_bind leads_calm_ensureStopped fun _ => ?_
  refine leads_editsOnce_bind leads_get fun d => ?_
  refine leads_ite (leads_editsOnce_onStore fun _ => ⟨_, rfl⟩) ?_
  refine leads_editsOnce_bind (leads_calm_onHost _) fun bytes => ?_
  split
  · exact (leads_throw _).mono fun _ _ => .of_calm
  · exact leads_editsOnce_bind (leads_calm_onHost _) fun _ =>
      leads_editsOnce_onStore fun _ => ⟨_, rfl⟩

theorem leads_removeBreakpoint (a : Address) :
    Leads (EditsOnce fun st u => u = (st.removeAt a).1) (removeBreakpoint a : SessionM τ _) := by
  unfold removeBreakpoint
  refine leads_editsOnce_bind leads_calm_ensureStopped fun _ => ?_
  exact leads_editsOnce_bind (leads_disarm a) fun _ =>
    leads_discard (leads_editsOnce_onStore fun _ => rfl)

theorem leads_calm_beginClose : Leads Calm (beginClose : SessionM τ _) := by
  intro s
  rw [beginClose_apply]
  split
  · exact Calm.refl s
  · exact calm_of_eq rfl rfl rfl

/-- The second section of closing restores what it can and drains the store. -/
theorem leads_finishClose :
    Leads (EditsOnce fun st u => u = st.drain.1) (finishClose : SessionM τ _) := by
  unfold finishClose
  refine leads_editsOnce_bind leads_get fun _ => ?_
  dsimp only
  refine leads_ite (leads_editsOnce_bind leads_get fun _ => leads_editsOnce_bind
    (leads_forIn _ _ _ fun _ _ => leads_bind (leads_discard (leads_attempt (leads_disarm _)))
      fun _ => leads_pure _) fun _ => ?_) ?_
  -- with or without the traps lifted, the store is drained and the session closed
  all_goals
    refine leads_editsOnce_then (leads_discard (leads_editsOnce_onStore fun _ => rfl)) fun _ => ?_
    refine leads_bind leads_get fun _ => leads_ite ?_ ?_
    all_goals
      first
      | exact leads_bind (leads_modify fun s => calm_of_eq rfl rfl rfl) fun _ => leads_calm_publish rfl
      | exact leads_bind (leads_discard (leads_attempt (leads_calm_onHost _))) fun _ =>
          leads_bind (leads_modify fun s => calm_of_eq rfl rfl rfl) fun _ => leads_calm_publish rfl

theorem leads_close : Leads (EditsOnce fun st u => u = st.drain.1) (close : SessionM τ _) :=
  leads_editsOnce_bind leads_calm_beginClose fun _ =>
    leads_ite leads_finishClose fun s => .of_calm (.refl s)

end Edits

/-! ## The operations that take in a stop -/

section Operations

variable [Transport τ]

theorem leads_reportCurrentStop :
    Leads (CalmOrTaken (fun _ _ => True) false) (reportCurrentStop : SessionM τ _) := by
  unfold reportCurrentStop
  refine leads_calmOrTaken_bind leads_calm_ensureStopped fun _ => ?_
  refine leads_calmOrTaken_bind (leads_calm_onHost _) fun stop t => ?_
  exact calmOrTaken_handleStop trivial fun _ => leads_pure _

theorem leads_step (thread : Option ThreadId) (position : Address → Option SourcePosition)
    (fuel : Nat) :
    Leads (CalmOrTaken (fun _ _ => True) false) (step thread position fuel : SessionM τ _) := by
  unfold step
  refine leads_calmOrTaken_bind leads_calm_ensureStopped fun _ => ?_
  refine leads_calmOrTaken_bind (leads_calm_onHost _) fun regs => ?_
  refine leads_calmOrTaken_bind (leads_stepLoop _ _ _ _ _) fun r t => ?_
  cases r with
  | none => exact Or.inl (.refl t)
  | some stop =>
    exact calmOrTaken_handleStop trivial fun _ =>
      leads_bind (leads_forwards_publish rfl) fun _ => leads_pure _

/-- A step that returns a stop has taken in that very stop, after a calm stretch. -/
theorem step_ok {thread : Option ThreadId} {position : Address → Option SourcePosition}
    {fuel : Nat} {s s' : RemoteSession τ} {stop : StopEvent}
    (h : step thread position fuel s = .ok stop s') :
    ∃ t, Calm s t ∧ (t.breakpoints.WellFormed → TakenIn stop false t s') := by
  unfold step at h
  obtain ⟨_, s1, h1, h⟩ := bind_eq_ok h
  obtain ⟨regs, s2, h2, h⟩ := bind_eq_ok h
  obtain ⟨r, s4, h4, h⟩ := bind_eq_ok h
  -- the loop ended with a stop: one that ran out of fuel fails the step
  cases r with
  | none => cases h
  | some stop' =>
  obtain ⟨_, s5, h5, h⟩ := bind_eq_ok h
  obtain ⟨_, s6, h6, h⟩ := bind_eq_ok h
  rw [publish_apply] at h6
  cases h6
  cases h
  refine ⟨s4, (leads_calm_ensureStopped.of_ok h1).trans ((leads_calm_onHost _).of_ok h2 |>.trans
    ((leads_stepLoop _ _ _ _ _).of_ok h4)), fun hwf => ?_⟩
  obtain ⟨s5', hrun, htaken⟩ := handleStop_spec _ false s4 hwf
  rw [hrun] at h5
  cases h5
  exact htaken.publish rfl

/-- A continue takes in only the stop of a step over a breakpoint that is not the trap. -/
theorem leads_continueExecution :
    Leads (CalmOrTaken (fun stop t => t.isTrap stop = false) false)
      (continueExecution : SessionM τ _) := by
  unfold continueExecution
  refine leads_calmOrTaken_bind leads_calm_ensureStopped fun _ => ?_
  refine leads_calmOrTaken_bind (leads_calm_onHost _) fun regs => ?_
  dsimp only
  refine leads_calmOrTaken_bind leads_get fun d => ?_
  -- resuming the target is calm
  have hresume : Leads Calm (do
      onHost Client.resume
      modify fun s : RemoteSession τ => { s with running := true }
      publish SessionEvent.continuing : SessionM τ Unit) :=
    leads_bind (leads_calm_onHost _) fun _ =>
      leads_bind (leads_modify fun s => calm_of_eq rfl rfl rfl) fun _ => leads_calm_publish rfl
  refine leads_ite ?_ (hresume.mono fun _ _ => Or.inl)
  refine leads_calmOrTaken_bind (leads_stepOverBreakpoint _) fun stop => ?_
  refine leads_get_bind fun t => ?_
  split
  · next htrap =>
    exact calmOrTaken_handleStop (by simpa using htrap) fun _ => leads_pure _
  · exact (hresume.mono fun _ _ => Or.inl) t

/-- A poll is calm unless the stub reports a stop of the running target. That stop is taken in as
a resumed one, after the program output is passed on, over the connection the report left. -/
theorem poll_course (s : RemoteSession τ) :
    Calm s (endState (poll s)) ∨
      ∃ c c1 stop t, s.running = true ∧ s.host = some c ∧
        Client.pollStop s.config.replyTimeoutMs c = .ok (some stop) c1 ∧
        Forwards s t ∧ t.host = some { c1 with output := #[] } ∧
        endState (poll s) = endState (handleStop stop true t) := by
  unfold poll
  rw [bind_apply, get_apply]
  dsimp only
  split
  · exact .inl (Calm.refl s)
  · next hguard =>
    obtain ⟨-, -, hrun, hhost⟩ : s.state = .opened ∧ s.polling = true ∧ s.running = true ∧
        s.host ≠ none := by
      simpa using hguard
    obtain ⟨c, hc⟩ := Option.ne_none_iff_exists'.1 hhost
    rw [bind_apply, attempt_apply, onHost_apply hc]
    -- passing on the output is calm, whatever the stub reported
    have hpass : ∀ c1 : Client τ, Calm s { s with host := some c1 } := fun _ => calm_of_eq rfl rfl rfl
    cases hp : Client.pollStop s.config.replyTimeoutMs c with
    | ok r c1 =>
      dsimp only [endState]
      have htake : Client.takeOutput c1 = .ok c1.output.toList { c1 with output := #[] } := rfl
      rw [bind_apply, onHost_apply rfl, htake]
      dsimp only
      obtain ⟨t, hloop, hfw, hth⟩ := forIn_output c1.output.toList
        { s with host := some { c1 with output := #[] } }
      rw [bind_apply, hloop]
      cases r with
      | none => exact .inl ((hpass _).trans hfw.calm)
      | some stop =>
        have hhost' : Forwards s { s with host := some { c1 with output := #[] } } :=
          ⟨rfl, rfl, .refl _⟩
        exact .inr ⟨c, c1, stop, t, hrun, hc, hp, trans_of Forwards hhost' hfw, hth, rfl⟩
    | error e c1 =>
      dsimp only [endState]
      left
      refine (hpass c1).trans ((leads_bind (leads_calm_onHost _) fun _ =>
        leads_bind (leads_forIn _ _ _ fun _ _ => leads_bind (leads_calm_publish rfl) fun _ =>
          leads_pure _) fun _ => ?_) _)
      -- the stub reported no stop: a hang-up drops the connection, anything else changes nothing
      split
      next heq => exact absurd heq (by simp)
      next heq => exact absurd heq (by simp)
      next => exact leads_modify fun s => calm_of_eq rfl rfl rfl
      next => exact leads_pure _

end Operations

/-! ## What a calm stretch and a stop taken in announce -/

section Announced

variable [Transport τ] {Q : StopEvent → RemoteSession τ → Prop} {resumed : Bool}
  {s s' : RemoteSession τ}

/-- At most one stop is announced, and it is one taken in after a calm stretch. -/
theorem CalmOrTaken.announced (h : CalmOrTaken Q resumed s s') (hwf : s.breakpoints.WellFormed) :
    (published s s').countP SessionEvent.isStopped ≤ 1 ∧
      ∀ e ∈ published s s', e.isStopped = true → ∃ t stop pc hit st, Calm s t ∧ Q stop t ∧
        Rewound t stop resumed pc hit st ∧ s'.breakpoints = st.dropTemporaries ∧
        e = .stopped stop.reason stop.thread pc hit := by
  rcases h with h | ⟨t, stop, ht, hq, htaken⟩
  · have hquiet := published_quiet h.events
    exact ⟨by rw [countP_isStopped_eq_zero hquiet]; exact Nat.zero_le 1,
      fun e he hs => by simp [hquiet e he] at hs⟩
  · obtain ⟨pc, hit, st, hr, hb, hcount, -, honly⟩ :=
      (htaken (ht.store.wellFormed hwf)).stopped ht.events
    exact ⟨hcount.le, fun e he hs => ⟨t, stop, pc, hit, st, ht, hq, hr, hb, honly e he hs⟩⟩

theorem CalmOrTaken.temporaries (h : CalmOrTaken Q resumed s s') (hwf : s.breakpoints.WellFormed)
    {e : SessionEvent} (he : e ∈ published s s') (hs : e.isStopped = true) :
    s'.breakpoints.temporaries = [] := by
  obtain ⟨t, stop, pc, hit, st, ht, -, hr, hb, -⟩ := (h.announced hwf).2 e he hs
  rw [hb]
  exact BreakpointStore.temporaries_dropTemporaries (hr.wellFormed (ht.store.wellFormed hwf))

theorem CalmOrTaken.keepsUsers (h : CalmOrTaken Q resumed s s') (hwf : s.breakpoints.WellFormed) :
    BreakpointStore.KeepsUsers s.breakpoints s'.breakpoints := by
  rcases h with h | ⟨t, stop, ht, -, htaken⟩
  · exact h.store.keepsUsers
  · exact ht.store.keepsUsers.trans ((htaken (ht.store.wellFormed hwf)).keepsUsers
      (ht.store.wellFormed hwf))

theorem CalmOrTaken.within {n : Nat} (h : CalmOrTaken Q resumed s s')
    (hn : BreakpointStore.Within n s.breakpoints) : BreakpointStore.Within (n + 1) s'.breakpoints := by
  rcases h with h | ⟨t, stop, ht, -, htaken⟩
  · exact (h.store.within hn).mono (Nat.le_succ n)
  · have hnt := ht.store.within hn
    exact (htaken hnt.wellFormed).within hnt

/-- A stop taken in without a resumed target names no breakpoint. -/
theorem CalmOrTaken.no_hit {n : Nat} (h : CalmOrTaken Q false s s')
    (hn : BreakpointStore.Within n s.breakpoints) (htop : n + 1 < UInt64.size)
    {r : StopReason} {th : Option ThreadId} {pc : Option Address} {id : UInt64} :
    SessionEvent.stopped r th pc (some id) ∉ published s s' := by
  intro he
  obtain ⟨t, stop, pc', hit, st, ht, -, hr, -, heq⟩ := (h.announced hn.wellFormed).2 _ he rfl
  simp only [SessionEvent.stopped.injEq] at heq
  obtain ⟨-, -, -, rfl⟩ := heq
  exact absurd (hr.counted (ht.store.within hn) htop).1 (by decide)

end Announced

end RemoteSession

/-! ## Runs of operations -/

/-- Everything a debugger asks of a session, with its arguments. -/
inductive SessionCall (τ : Type) where
  | «open» (net : Network τ) (address : String)
  | startPolling
  | reportCurrentStop
  | addBreakpoint (a : Address) (kind : BreakpointKind)
  | removeBreakpoint (a : Address)
  | step (thread : Option ThreadId) (position : Address → Option SourcePosition) (fuel : Nat)
  | continueExecution
  | requestBreak
  | registers (thread : Option ThreadId)
  | readMemory (a : Address) (length : Nat)
  | writeMemory (a : Address) (data : List UInt8)
  | threads
  | lastSignal
  | close
  | poll
  | takeEvents

namespace SessionCall

variable {τ : Type} [Transport τ]

/-- Carry out an operation; its answer is dropped. -/
def run : SessionCall τ → SessionM τ Unit
  | .open net address => discard (RemoteSession.open net address)
  | .startPolling => RemoteSession.startPolling
  | .reportCurrentStop => discard RemoteSession.reportCurrentStop
  | .addBreakpoint a kind => discard (RemoteSession.addBreakpoint a kind)
  | .removeBreakpoint a => RemoteSession.removeBreakpoint a
  | .step thread position fuel => discard (RemoteSession.step thread position fuel)
  | .continueExecution => RemoteSession.continueExecution
  | .requestBreak => RemoteSession.requestBreak
  | .registers thread => discard (RemoteSession.registers thread)
  | .readMemory a length => discard (RemoteSession.readMemory a length)
  | .writeMemory a data => RemoteSession.writeMemory a data
  | .threads => discard RemoteSession.threads
  | .lastSignal => discard RemoteSession.lastSignal
  | .close => RemoteSession.close
  | .poll => RemoteSession.poll
  | .takeEvents => discard RemoteSession.takeEvents

/-- Whether an operation may forget breakpoints: removing one, and closing. -/
def removes : SessionCall τ → Bool
  | .removeBreakpoint _ => true
  | .close => true
  | _ => false

end SessionCall

namespace RemoteSession

variable {τ : Type} [Transport τ]

/-- The sessions that `n` operations lead to from a new one. -/
inductive Reached (config : SessionConfig) : Nat → RemoteSession τ → Prop
  | new : Reached config 0 (RemoteSession.new config)
  | run {n : Nat} {s : RemoteSession τ} (op : SessionCall τ) :
      Reached config n s → Reached config (n + 1) (endState (op.run s))

/-- What one operation run from `s` to `s'` keeps to in announcing stops and in keeping user
breakpoints. -/
structure StopRules (op : SessionCall τ) (s s' : RemoteSession τ) : Prop where
  /-- A stop is announced only when no temporary breakpoint is left. -/
  noTemporaries : ∀ e ∈ published s s', e.isStopped = true → s'.breakpoints.temporaries = []
  /-- At most one stop is announced. -/
  atMostOne : (published s s').countP SessionEvent.isStopped ≤ 1
  /-- A step that returns a stop announces that one, and no other. -/
  stepAnnounces : ∀ thread position fuel stop, op = .step thread position fuel →
    valueOf (step thread position fuel s) = some stop →
    (published s s').countP SessionEvent.isStopped = 1 ∧
      ∃ pc hit, SessionEvent.stopped stop.reason stop.thread pc hit ∈ published s s'
  /-- A continue announces no trap: its step over a breakpoint is announced only when it ends
  elsewhere. -/
  continueSkipsTrap : op = .continueExecution → ∀ r th pc hit,
    SessionEvent.stopped r th pc hit ∈ published s s' → r ≠ .signal s.config.trapSignal
  /-- A stop names a breakpoint only when a poll took in the trap signal of the running target,
  one byte past an armed user breakpoint: its count rose by one, and the stub took the program
  counter moved back onto it, over the connection the report left. -/
  hits : ∀ r th pc id, SessionEvent.stopped r th pc (some id) ∈ published s s' →
    op = .poll ∧ s.running = true ∧ ∃ c c1 stop b, s.host = some c ∧
      Client.pollStop s.config.replyTimeoutMs c = .ok (some stop) c1 ∧ stop.reason = r ∧
      b.id = id ∧ CountedHit s.config s.breakpoints { c1 with output := #[] } stop pc b s'.breakpoints
  /-- Only removing a breakpoint and closing remove a user breakpoint or make it temporary. -/
  keepsUsers : op.removes = false → BreakpointStore.KeepsUsers s.breakpoints s'.breakpoints

section Rules

variable {op : SessionCall τ} {s s' : RemoteSession τ} {n : Nat}

/-- An operation that announces no stop keeps every rule about announcements. -/
theorem StopRules.of_quiet (hq : ∀ e ∈ published s s', e.isStopped = false)
    (hstep : ∀ thread position fuel, op ≠ .step thread position fuel)
    (hkeep : op.removes = false → BreakpointStore.KeepsUsers s.breakpoints s'.breakpoints) :
    StopRules op s s' where
  noTemporaries e he hs := by simp [hq e he] at hs
  atMostOne := by
    rw [countP_isStopped_eq_zero hq]
    exact Nat.zero_le 1
  stepAnnounces thread position fuel _ hop := absurd hop (hstep thread position fuel)
  continueSkipsTrap _ r th pc hit he := by
    have := hq _ he
    simp [SessionEvent.isStopped] at this
  hits r th pc id he := by
    have := hq _ he
    simp [SessionEvent.isStopped] at this
  keepsUsers := hkeep

/-- An operation that takes in no stop of a resumed target keeps the rules, given what it
announces for a step and a continue. -/
theorem StopRules.of_calmOrTaken {Q : StopEvent → RemoteSession τ → Prop}
    (h : CalmOrTaken Q false s s') (hn : BreakpointStore.Within n s.breakpoints)
    (htop : n + 1 < UInt64.size)
    (hstep : ∀ thread position fuel stop, op = .step thread position fuel →
      valueOf (step thread position fuel s) = some stop →
      (published s s').countP SessionEvent.isStopped = 1 ∧
        ∃ pc hit, SessionEvent.stopped stop.reason stop.thread pc hit ∈ published s s')
    (hcont : op = .continueExecution → ∀ stop t, Calm s t → Q stop t → t.isTrap stop = false) :
    StopRules op s s' where
  noTemporaries _ he hs := h.temporaries hn.wellFormed he hs
  atMostOne := (h.announced hn.wellFormed).1
  stepAnnounces := hstep
  continueSkipsTrap hop r th pc hit he := by
    obtain ⟨t, stop, pc', hit', st, ht, hq, -, -, heq⟩ := (h.announced hn.wellFormed).2 _ he rfl
    simp only [SessionEvent.stopped.injEq] at heq
    obtain ⟨rfl, -, -, -⟩ := heq
    have htrap := hcont hop stop t ht hq
    intro hr
    simp [RemoteSession.isTrap, hr, ht.config] at htrap
  hits r th pc id he := absurd he (h.no_hit hn htop)
  keepsUsers _ := h.keepsUsers hn.wellFormed

/-- A calm operation keeps the rules, and its store stays within the next bound. -/
theorem rules_of_calm (h : Calm s s') (hn : BreakpointStore.Within n s.breakpoints)
    (hstep : ∀ thread position fuel, op ≠ .step thread position fuel) :
    StopRules op s s' ∧ BreakpointStore.Within (n + 1) s'.breakpoints :=
  ⟨.of_quiet (published_quiet h.events) hstep fun _ => h.store.keepsUsers,
    (h.store.within hn).mono (Nat.le_succ n)⟩

/-- An operation that edits the store once keeps the rules, when the edit keeps user
breakpoints unless the operation may remove them. -/
theorem rules_of_editsOnce {E : BreakpointStore → BreakpointStore → Prop} (h : EditsOnce E s s')
    (hn : BreakpointStore.Within n s.breakpoints)
    (hstep : ∀ thread position fuel, op ≠ .step thread position fuel)
    (hkeep : op.removes = false → ∀ st u, E st u → BreakpointStore.KeepsUsers st u)
    (hE : ∀ st u, E st u → BreakpointStore.Within n st → BreakpointStore.Within (n + 1) u) :
    StopRules op s s' ∧ BreakpointStore.Within (n + 1) s'.breakpoints :=
  ⟨.of_quiet h.quiet hstep fun hr => h.keepsUsers (hkeep hr), h.within hE hn⟩

/-- A step that returns a stop announces exactly that stop. -/
theorem step_announces {thread : Option ThreadId} {position : Address → Option SourcePosition}
    {fuel : Nat} {stop : StopEvent} (hn : BreakpointStore.Within n s.breakpoints)
    (hval : valueOf (step thread position fuel s) = some stop) :
    (published s (endState ((SessionCall.step thread position fuel).run s))).countP
        SessionEvent.isStopped = 1 ∧
      ∃ pc hit, SessionEvent.stopped stop.reason stop.thread pc hit ∈
        published s (endState ((SessionCall.step thread position fuel).run s)) := by
  obtain ⟨s'', hs''⟩ : ∃ s'', step thread position fuel s = .ok stop s'' := by
    cases hr : step thread position fuel s with
    | ok v u =>
      rw [hr] at hval
      cases hval
      exact ⟨u, rfl⟩
    | error e u =>
      rw [hr] at hval
      cases hval
  have hend : endState ((SessionCall.step thread position fuel).run s) = s'' := by
    show endState (discard (step thread position fuel) s) = s''
    rw [discard_apply, hs'']
    rfl
  rw [hend]
  obtain ⟨t, ht, htaken⟩ := step_ok hs''
  obtain ⟨pc, hit, st, -, -, hcount, hmem, -⟩ :=
    (htaken (ht.store.wellFormed hn.wellFormed)).stopped ht.events
  exact ⟨hcount, pc, hit, hmem⟩

/-- A poll keeps the rules: the one stop it can announce is that of the running target, taken in
as a resumed one, and it names a breakpoint only for the hit counted there. -/
theorem rules_poll (hn : BreakpointStore.Within n s.breakpoints) (htop : n + 1 < UInt64.size) :
    StopRules .poll s (endState ((SessionCall.poll : SessionCall τ).run s)) ∧
      BreakpointStore.Within (n + 1) (endState ((SessionCall.poll : SessionCall τ).run s)).breakpoints := by
  have hrun : (SessionCall.poll : SessionCall τ).run s = poll s := rfl
  rw [hrun]
  rcases poll_course s with hcalm | ⟨c, c1, stop, t, hrunning, hc, hp, hfw, hth, hend⟩
  · exact rules_of_calm hcalm hn fun _ _ _ h => nomatch h
  · have hnt : BreakpointStore.Within n t.breakpoints := hfw.breakpoints ▸ hn
    obtain ⟨s2, hrun2, htaken⟩ := handleStop_spec stop true t hnt.wellFormed
    rw [hend, hrun2]
    have hct : CalmOrTaken (fun _ _ => True) true s s2 :=
      .inr ⟨t, stop, hfw.calm, trivial, fun _ => htaken⟩
    refine ⟨{ noTemporaries := fun _ he hs => hct.temporaries hn.wellFormed he hs
              atMostOne := (hct.announced hn.wellFormed).1
              stepAnnounces := fun _ _ _ _ hop => nomatch hop
              continueSkipsTrap := fun hop => nomatch hop
              hits := fun r th pc id he => ?_
              keepsUsers := fun _ => hct.keepsUsers hn.wellFormed }, hct.within hn⟩
    -- the hit was counted over the connection the report left, on the session's own store
    obtain ⟨hr, -, c', b, hc', hid, hcount⟩ := htaken.hit hfw.events hnt htop he
    rw [hth, Option.some.injEq] at hc'
    subst hc'
    rw [hfw.config, hfw.breakpoints] at hcount
    exact ⟨rfl, hrunning, c, c1, stop, b, hc, hp, hr.symm, hid, hcount⟩

/-- Taking the events announces nothing and leaves the store alone. -/
theorem rules_takeEvents (hn : BreakpointStore.Within n s.breakpoints) :
    StopRules .takeEvents s (endState ((SessionCall.takeEvents : SessionCall τ).run s)) ∧
      BreakpointStore.Within (n + 1)
        (endState ((SessionCall.takeEvents : SessionCall τ).run s)).breakpoints := by
  have hend : endState ((SessionCall.takeEvents : SessionCall τ).run s) =
      { s with events := #[] } := rfl
  rw [hend]
  have hq : ∀ e ∈ published s { s with events := #[] }, e.isStopped = false := by
    simp [published]
  have hstep : ∀ thread position fuel,
      (SessionCall.takeEvents : SessionCall τ) ≠ .step thread position fuel := by
    intro _ _ _ h
    cases h
  exact ⟨.of_quiet hq hstep fun _ => .refl _, hn.mono (Nat.le_succ n)⟩

/-- Every operation keeps the rules about stops, from a store within `n` below the top of the
word, and leaves its store within `n + 1`. -/
theorem stopRules_run (op : SessionCall τ) (hn : BreakpointStore.Within n s.breakpoints)
    (htop : n + 1 < UInt64.size) :
    StopRules op s (endState (op.run s)) ∧
      BreakpointStore.Within (n + 1) (endState (op.run s)).breakpoints := by
  cases op with
  | «open» net address =>
    exact rules_of_calm (leads_discard (leads_open net address) s) hn fun _ _ _ h => nomatch h
  | startPolling => exact rules_of_calm (leads_startPolling s) hn fun _ _ _ h => nomatch h
  | reportCurrentStop =>
    have h := leads_discard leads_reportCurrentStop s
    exact ⟨.of_calmOrTaken h hn htop (fun _ _ _ _ hop => nomatch hop) (fun hop => nomatch hop),
      h.within hn⟩
  | addBreakpoint a kind =>
    exact rules_of_editsOnce (leads_discard (leads_addBreakpoint a kind) s) hn
      (fun _ _ _ h => nomatch h)
      (fun _ st u ⟨saved, hu⟩ => hu ▸ BreakpointStore.keepsUsers_insert st a kind saved)
      (fun st u ⟨saved, hu⟩ hst => hu ▸ hst.insert htop a kind saved)
  | removeBreakpoint a =>
    exact rules_of_editsOnce (leads_removeBreakpoint a s) hn (fun _ _ _ h => nomatch h)
      (fun h => nomatch h) (fun st u hu hst => hu ▸ (hst.removeAt a).mono (Nat.le_succ n))
  | step thread position fuel =>
    have h := leads_discard (leads_step thread position fuel) s
    refine ⟨.of_calmOrTaken h hn htop ?_ (fun hop => nomatch hop), h.within hn⟩
    intro thread' position' fuel' stop hop hval
    cases hop
    exact step_announces hn hval
  | continueExecution =>
    have h := leads_continueExecution s
    exact ⟨.of_calmOrTaken h hn htop (fun _ _ _ _ hop => nomatch hop) (fun _ _ _ _ hq => hq),
      h.within hn⟩
  | requestBreak => exact rules_of_calm (leads_requestBreak s) hn fun _ _ _ h => nomatch h
  | registers thread =>
    exact rules_of_calm (leads_discard (leads_registers thread) s) hn fun _ _ _ h => nomatch h
  | readMemory a length =>
    exact rules_of_calm (leads_discard (leads_readMemory a length) s) hn fun _ _ _ h => nomatch h
  | writeMemory a data =>
    exact rules_of_calm (leads_writeMemory a data s) hn fun _ _ _ h => nomatch h
  | threads => exact rules_of_calm (leads_discard leads_threads s) hn fun _ _ _ h => nomatch h
  | lastSignal => exact rules_of_calm (leads_discard leads_lastSignal s) hn fun _ _ _ h => nomatch h
  | close =>
    exact rules_of_editsOnce (leads_close s) hn (fun _ _ _ h => nomatch h) (fun h => nomatch h)
      (fun st u hu hst => hu ▸ hst.drain.mono (Nat.le_succ n))
  | poll => exact rules_poll hn htop
  | takeEvents => exact rules_takeEvents hn

end Rules

/-- The store of a session that `n` operations reached has its ids and counts within `n`. -/
theorem Reached.within {config : SessionConfig} {n : Nat} {s : RemoteSession τ}
    (h : Reached config n s) (htop : n < UInt64.size) : BreakpointStore.Within n s.breakpoints := by
  induction h with
  | new => exact BreakpointStore.within_empty
  | run op _ ih => exact (stopRules_run op (ih (by omega)) htop).2

/-- Over every run from a new session, whatever the operations and the stub's answers, each
operation keeps the rules about stops: it announces at most one stop, and only with no temporary
breakpoint left; a step announces the stop it returns and no other; a continue announces no
trap; a stop names a breakpoint only for a hit counted when a poll takes in the trap of the
running target; and only removing and closing remove a user breakpoint or make it temporary.
Runs are shorter than the range of the hit counts. -/
theorem stop_rules_of_reached {config : SessionConfig} {n : Nat} {s : RemoteSession τ}
    (hs : Reached config n s) (htop : n + 1 < UInt64.size) (op : SessionCall τ) :
    StopRules op s (endState (op.run s)) :=
  (stopRules_run op (hs.within (by omega)) htop).1

/-- A stub holding `0x90` at every address whose target, once resumed, stops with the trap signal
one byte past `0x1000`: it gives `0x1001` as the program counter, takes every register write and
gives an empty reply to every other request. -/
def hittingStub : MemoryStub Unit where
  memory := fun _ => 0x90
  target := ()
  execute := fun _ request =>
    ((), if request = Client.text "g" then
        some (Hex.digits (List.replicate 128 0 ++ [0x01, 0x10] ++ List.replicate 10 0))
      else if request = Client.text "c" then some (Client.text "T05")
      else if request.head? = some 0x47 then some (Client.text "OK") else some [])

/-- A network on which every connection reaches `hittingStub`. -/
def hittingNetwork : Network (MemoryStub Unit) where
  lookup := fun _ => .ok []
  connect := fun _ => .ok hittingStub

/-- A session opened on `hittingNetwork`, polling, with a user breakpoint at `0x1000`, and
continued. -/
def hitSession : RemoteSession (MemoryStub Unit) :=
  endState (SessionCall.continueExecution.run
    (endState ((SessionCall.addBreakpoint 0x1000 .user).run
      (endState (SessionCall.startPolling.run
        (endState ((SessionCall.open hittingNetwork "127.0.0.1:1").run (RemoteSession.new {}))))))))

theorem stop_rules_of_reached_hitSession :
    Reached {} 4 hitSession ∧ 4 + 1 < UInt64.size ∧
      StopRules .poll hitSession (endState (SessionCall.poll.run hitSession)) ∧
      published hitSession (endState (SessionCall.poll.run hitSession)) =
        [.stopped (.signal 5) none (some 0x1000) (some 1)] ∧
      (endState (SessionCall.poll.run hitSession)).breakpoints.find? 0x1000 =
        some { id := 1, address := 0x1000, kind := .user, hitCount := 1, savedByte := 0x90 } := by
  have hs : Reached {} 4 hitSession := .run _ (.run _ (.run _ (.run _ .new)))
  exact ⟨hs, by decide, stop_rules_of_reached hs (by decide) .poll, by decide +kernel,
    by decide +kernel⟩

end RemoteSession

end RemoteDebugger
