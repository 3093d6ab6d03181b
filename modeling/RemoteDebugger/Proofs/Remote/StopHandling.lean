import RemoteDebugger.Proofs.Remote.CalmSteps
import RemoteDebugger.Proofs.Remote.StepOver

/-!
# Taking in a stop

`handleStop` announces exactly one stop, counts at most one hit, and leaves the store without
its temporary breakpoints, whatever the connection answers.
-/

namespace RemoteDebugger

namespace RemoteSession

variable {τ : Type} {α : Type}

/-- Neither the configuration nor the events change. -/
structure Silent (s s' : RemoteSession τ) : Prop where
  config : s'.config = s.config
  events : s'.events = s.events

instance : IsPreorder (RemoteSession τ) Silent where
  refl _ := ⟨rfl, rfl⟩
  trans _ _ _ h h' := ⟨h'.config.trans h.config, h'.events.trans h.events⟩

/-- A run of `A >>= K` that succeeds ran `A` to success first. -/
theorem bind_eq_ok {β : Type} {A : SessionM τ α} {K : α → SessionM τ β} {s s' : RemoteSession τ}
    {y : β} (h : (A >>= K) s = .ok y s') : ∃ x s1, A s = .ok x s1 ∧ K x s1 = .ok y s' := by
  rw [bind_apply] at h
  cases hA : A s with
  | ok x s1 =>
    rw [hA] at h
    exact ⟨x, s1, rfl, h⟩
  | error e s1 =>
    rw [hA] at h
    cases h

/-- `s'` follows `s` passing on output: the configuration and the store are the same, and the
events added announce no stop. -/
structure Forwards (s s' : RemoteSession τ) : Prop where
  config : s'.config = s.config
  breakpoints : s'.breakpoints = s.breakpoints
  events : QuietlyExtends s.events s'.events

instance : IsPreorder (RemoteSession τ) Forwards where
  refl _ := ⟨rfl, rfl, .refl _⟩
  trans _ _ _ h h' := ⟨h'.config.trans h.config, h'.breakpoints.trans h.breakpoints,
    h.events.trans h'.events⟩

theorem Silent.forwards {s s' : RemoteSession τ} (h : Silent s s') (hb : s'.breakpoints = s.breakpoints) :
    Forwards s s' :=
  ⟨h.config, hb, by rw [h.events]; exact .refl _⟩

theorem leads_silent_onStore {β : Type} (f : BreakpointStore → BreakpointStore × β) :
    Leads Silent (onStore f : SessionM τ β) :=
  leads_onStore f fun _ => ⟨rfl, rfl⟩

/-- A loop each of whose turns forgets the breakpoint at its address, silently, forgets them
all. -/
theorem forIn_removeAt {L : List Address} {f : Address → PUnit → SessionM τ (ForInStep PUnit)}
    (hf : ∀ a t, t.breakpoints.WellFormed → ∃ t', f a ⟨⟩ t = .ok (.yield ⟨⟩) t' ∧
      t'.breakpoints = (t.breakpoints.removeAt a).1 ∧ Silent t t') :
    ∀ t : RemoteSession τ, t.breakpoints.WellFormed → ∃ t', forIn L ⟨⟩ f t = .ok ⟨⟩ t' ∧
      t'.breakpoints = L.foldl (fun st a => (st.removeAt a).1) t.breakpoints ∧ Silent t t' := by
  induction L with
  | nil => exact fun t _ => ⟨t, rfl, rfl, refl_of Silent t⟩
  | cons a L ih =>
    intro t ht
    obtain ⟨t1, hrun1, hb1, hs1⟩ := hf a t ht
    have hwf1 : t1.breakpoints.WellFormed := by
      rw [hb1]
      exact BreakpointStore.wellFormed_removeAt ht a
    obtain ⟨t2, hrun2, hb2, hs2⟩ := ih t1 hwf1
    refine ⟨t2, ?_, by rw [hb2, hb1, List.foldl_cons], trans_of Silent hs1 hs2⟩
    rw [List.forIn_cons, bind_apply, hrun1]
    exact hrun2

/-- The events a run from `s` to `s'` added. -/
def published (s s' : RemoteSession τ) : List SessionEvent := s'.events.toList.drop s.events.size

theorem published_of_append {s s' : RemoteSession τ} {X : List SessionEvent}
    (h : s'.events.toList = s.events.toList ++ X) : published s s' = X := by
  simp [published, h]

/-- Events that announce no stop announce none. -/
theorem countP_isStopped_eq_zero {L : List SessionEvent} (h : ∀ e ∈ L, e.isStopped = false) :
    L.countP SessionEvent.isStopped = 0 :=
  List.countP_eq_zero.2 fun e he => by simp [h e he]

theorem published_quiet {s s' : RemoteSession τ} (h : QuietlyExtends s.events s'.events) :
    ∀ e ∈ published s s', e.isStopped = false := by
  obtain ⟨X, hX, hq⟩ := h
  rw [published_of_append hX]
  exact hq

variable [Transport τ]

/-- How a stop taken in at `s` comes to name breakpoint `hit` at `pc`, `st` being the store after
counting. Either nothing is counted and no breakpoint named; or the stop answers a continue
with the trap signal, the registers read give a program counter one past an armed breakpoint,
the stub takes the registers with the program counter moved back onto it, and the hit is
counted there. -/
def Rewound (s : RemoteSession τ) (stop : StopEvent) (resumed : Bool) (pc : Option Address)
    (hit : Option UInt64) (st : BreakpointStore) : Prop :=
  (st = s.breakpoints ∧ hit = none) ∨
    (resumed = true ∧ s.isTrap stop = true ∧
      ∃ c regs c1 c2, s.host = some c ∧ Client.readRegisters none c = .ok regs c1 ∧
        s.breakpoints.isArmedAt (regs.pc - 1) = true ∧
        Client.writeRegisters (regs.setPc (regs.pc - 1)) c1 = .ok () c2 ∧
        pc = some (regs.pc - 1) ∧ st = (s.breakpoints.recordHit (regs.pc - 1)).1 ∧
        hit = ((s.breakpoints.recordHit (regs.pc - 1)).2.filter (!·.isTemporary)).map (·.id))

theorem leads_silent_onHost (m : ClientM τ α) : Leads Silent (onHost m) :=
  leads_onHost (fun _ _ => ⟨rfl, rfl⟩) m

theorem leads_silent_disarm (a : Address) : Leads Silent (disarm a : SessionM τ _) := by
  unfold disarm
  refine leads_bind leads_get fun s => ?_
  split
  · exact leads_throw _
  · exact leads_ite (leads_bind (leads_silent_onHost _) fun _ =>
      leads_discard (leads_silent_onStore _)) (leads_pure _)

/-! ## Forgetting the temporary breakpoints -/

/-- Lifting a trap, whether it succeeds or fails, suspends the breakpoint or leaves the store as
it was. -/
theorem disarm_breakpoints (a : Address) (s : RemoteSession τ) :
    (endState (disarm a s)).breakpoints = s.breakpoints ∨
      (endState (disarm a s)).breakpoints = (s.breakpoints.setState a .suspended).1 := by
  unfold disarm
  rw [bind_apply, get_apply]
  dsimp only
  cases hb : s.breakpoints.find? a with
  | none => exact .inl rfl
  | some b =>
    dsimp only
    split
    · have hw := keepsStore_onHost (Client.writeMemory a [b.savedByte]) s
      rw [bind_apply]
      cases h : onHost (Client.writeMemory a [b.savedByte]) s with
      | ok u s1 =>
        rw [h] at hw
        simp only [endState] at hw
        right
        simp only [discard_apply, onStore_apply, endState, hw]
      | error e s1 =>
        rw [h] at hw
        exact .inl hw
    · exact .inl rfl

/-- Lifting and forgetting the temporary breakpoints forgets them, whether or not their bytes go
back, and announces nothing. -/
theorem removeTemporaries_spec (s : RemoteSession τ) (hwf : s.breakpoints.WellFormed) :
    ∃ s', removeTemporaries s = .ok () s' ∧ s'.breakpoints = s.breakpoints.dropTemporaries ∧
      Silent s s' := by
  unfold removeTemporaries
  rw [bind_apply, get_apply]
  dsimp only
  obtain ⟨t, hrun, hb, hs⟩ := forIn_removeAt (L := s.breakpoints.temporaries)
    (f := fun a _ => do
      discard (attempt (disarm a))
      discard (onStore fun x => x.removeAt a)
      pure (ForInStep.yield PUnit.unit)) (fun a t ht => by
    -- the trap may or may not come off; either way the breakpoint is gone afterwards
    have hsilent := leads_silent_disarm a t
    refine ⟨{ endState (disarm a t) with
      breakpoints := ((endState (disarm a t)).breakpoints.removeAt a).1 }, ?_, ?_,
      ⟨hsilent.config, hsilent.events⟩⟩
    · rw [bind_apply, discard_apply, attempt_apply]
      rfl
    · show ((endState (disarm a t)).breakpoints.removeAt a).1 = (t.breakpoints.removeAt a).1
      rcases disarm_breakpoints a t with h | h
      · rw [h]
      · rw [h, BreakpointStore.removeAt_setState ht]) s hwf
  rw [bind_apply, hrun]
  exact ⟨t, rfl, hb, hs⟩

/-! ## Rewinding over a trap -/

/-- Reading the registers after a stop and, for a trap one byte past an armed breakpoint after a
continue, moving the program counter back and counting the hit. Whatever it does, it announces
nothing; when it counts no hit it names no breakpoint and leaves the store as it was. -/
theorem rewindTrap_spec (stop : StopEvent) (resumed : Bool) (s : RemoteSession τ) :
    ((endState (rewindTrap stop resumed s)).breakpoints = s.breakpoints ∧
        ∀ pc hit, valueOf (rewindTrap stop resumed s) = some (pc, hit) → hit = none) ∨
      (resumed = true ∧ s.isTrap stop = true ∧ ∃ c regs c1 c2, s.host = some c ∧
        Client.readRegisters none c = .ok regs c1 ∧ s.breakpoints.isArmedAt (regs.pc - 1) = true ∧
        Client.writeRegisters (regs.setPc (regs.pc - 1)) c1 = .ok () c2 ∧
        rewindTrap stop resumed s =
          .ok (regs.pc - 1,
            ((s.breakpoints.recordHit (regs.pc - 1)).2.filter (!·.isTemporary)).map (·.id))
            { s with host := some c2, breakpoints := (s.breakpoints.recordHit (regs.pc - 1)).1 }) := by
  unfold rewindTrap
  rw [bind_apply]
  cases hs : s.host with
  | none =>
    have hrun : onHost (Client.readRegisters none) s = .error .notConnected s := by
      simp [onHost, hs]
    rw [hrun]
    exact .inl ⟨rfl, fun _ _ h => by cases h⟩
  | some c =>
    rw [onHost_apply hs]
    cases hr : Client.readRegisters none c with
    | error e c1 => exact .inl ⟨rfl, fun _ _ h => by cases h⟩
    | ok regs c1 =>
      dsimp only
      rw [bind_apply, get_apply]
      dsimp only
      split
      · exact .inl ⟨rfl, fun _ _ h => (Prod.mk.inj (Option.some.inj h)).2.symm⟩
      · next hguard =>
        rw [bind_apply, get_apply]
        dsimp only
        split
        · exact .inl ⟨rfl, fun _ _ h => (Prod.mk.inj (Option.some.inj h)).2.symm⟩
        · next harmed =>
          rw [bind_apply, onHost_apply rfl]
          cases hw : Client.writeRegisters (regs.setPc (regs.pc - 1)) c1 with
          | error e c2 => exact .inl ⟨rfl, fun _ _ h => by cases h⟩
          | ok u c2 =>
            -- the guards passed: a continue, the trap signal, an armed breakpoint
            simp only [Bool.or_eq_true, Bool.not_eq_true', not_or, Bool.not_eq_false] at hguard
            simp only [Bool.not_eq_true', Bool.not_eq_false] at harmed
            exact .inr ⟨hguard.1, hguard.2, c, regs, c1, c2, rfl, hr, harmed, hw, rfl⟩

theorem leads_silent_rewindTrap (stop : StopEvent) (resumed : Bool) :
    Leads Silent (rewindTrap stop resumed : SessionM τ _) := by
  unfold rewindTrap
  refine leads_bind (leads_silent_onHost _) fun regs => leads_bind leads_get fun s => ?_
  refine leads_ite (leads_pure _) (leads_bind leads_get fun s => leads_ite (leads_pure _) ?_)
  exact leads_bind (leads_silent_onHost _) fun _ =>
    leads_bind (leads_silent_onStore _) fun _ => leads_pure _

/-! ## Announcing the stop -/

/-- Passing on program output announces no stop and keeps the connection. -/
theorem forIn_output (L : List String) (t : RemoteSession τ) :
    ∃ t', forIn L PUnit.unit (fun text (_ : PUnit) =>
      (publish (SessionEvent.output text) >>= fun _ => pure (ForInStep.yield PUnit.unit) :
        SessionM τ (ForInStep PUnit))) t = .ok PUnit.unit t' ∧ Forwards t t' ∧ t'.host = t.host := by
  induction L generalizing t with
  | nil => exact ⟨t, rfl, refl_of Forwards t, rfl⟩
  | cons text L ih =>
    obtain ⟨t', hrun, hfw, hhost⟩ := ih { t with events := t.events.push (.output text) }
    have hpub : Forwards t { t with events := t.events.push (.output text) } :=
      ⟨rfl, rfl, [.output text], by simp, by simp [SessionEvent.isStopped]⟩
    refine ⟨t', ?_, trans_of Forwards hpub hfw, hhost⟩
    rw [List.forIn_cons, bind_apply, bind_apply, publish_apply]
    exact hrun

/-- Passing on the program output and announcing the stop, as taking in a stop ends. -/
theorem announce_spec (stop : StopEvent) (pc : Option Address) (hit : Option UInt64)
    (t : RemoteSession τ) :
    ∃ u, Forwards t u ∧ (do
      let __do_lift ← get
      if __do_lift.host.isSome = true then do
          let output ← onHost Client.takeOutput
          forIn output PUnit.unit fun text __s => do
              publish (SessionEvent.output text)
              pure (ForInStep.yield PUnit.unit)
          publish (SessionEvent.stopped stop.reason stop.thread pc hit)
        else do
          let output ← pure []
          forIn output PUnit.unit fun text __s => do
              publish (SessionEvent.output text)
              pure (ForInStep.yield PUnit.unit)
          publish (SessionEvent.stopped stop.reason stop.thread pc hit) : SessionM τ Unit) t =
      .ok () { u with events := u.events.push (.stopped stop.reason stop.thread pc hit) } := by
  rw [bind_apply, get_apply]
  dsimp only
  cases hh : t.host with
  | none => exact ⟨t, refl_of Forwards t, rfl⟩
  | some c =>
    have htake : Client.takeOutput c = .ok c.output.toList { c with output := #[] } := rfl
    have hhost : Forwards t { t with host := some { c with output := #[] } } := ⟨rfl, rfl, .refl _⟩
    obtain ⟨u, hloop, hfw, -⟩ := forIn_output c.output.toList
      { t with host := some { c with output := #[] } }
    refine ⟨u, trans_of Forwards hhost hfw, ?_⟩
    simp only [Option.isSome_some, ↓reduceIte]
    rw [bind_apply, onHost_apply hh, htake]
    dsimp only
    rw [bind_apply, hloop]
    exact publish_apply _ u

/-- What taking in `stop` at `s` leaves: the configuration kept, the store after counting
(`Rewound`) without its temporary breakpoints, and one announcement of the stop, with events
that announce none before and after it. -/
def TakenIn (stop : StopEvent) (resumed : Bool) (s s' : RemoteSession τ) : Prop :=
  ∃ pc hit st E F, Rewound s stop resumed pc hit st ∧ s'.config = s.config ∧
    s'.breakpoints = st.dropTemporaries ∧
    s'.events.toList = s.events.toList ++ E ++ SessionEvent.stopped stop.reason stop.thread pc hit :: F ∧
    (∀ e ∈ E, e.isStopped = false) ∧ ∀ e ∈ F, e.isStopped = false

theorem takenIn_of {stop : StopEvent} {resumed : Bool} {s t u : RemoteSession τ}
    {pc : Option Address} {hit : Option UInt64} {st : BreakpointStore}
    (hr : Rewound s stop resumed pc hit st) (hs : Silent s t)
    (hb : t.breakpoints = st.dropTemporaries) (hf : Forwards t u) :
    TakenIn stop resumed s
      { u with events := u.events.push (.stopped stop.reason stop.thread pc hit) } := by
  obtain ⟨E, hE, hq⟩ := hf.events
  refine ⟨pc, hit, st, E, [], hr, hf.config.trans hs.config, hf.breakpoints.trans hb, ?_, hq,
    by simp⟩
  simp [hE, hs.events]

/-- Taking in a stop never fails. It announces the stop once, after the program output, and
leaves the store as counting left it, without temporary breakpoints. -/
theorem handleStop_spec (stop : StopEvent) (resumed : Bool) (s : RemoteSession τ)
    (hwf : s.breakpoints.WellFormed) :
    ∃ s', handleStop stop resumed s = .ok () s' ∧ TakenIn stop resumed s s' := by
  have hs0 : Silent s { s with running := false, lastStop := some stop } := ⟨rfl, rfl⟩
  unfold handleStop
  rw [bind_apply]
  simp only [modify, modifyGet, MonadStateOf.modifyGet, EStateM.modifyGet]
  cases halive : stop.reason.isAlive
  · -- a stop the target did not live through: the temporary breakpoints are forgotten as they are
    simp only [Bool.false_eq_true, ↓reduceIte]
    rw [bind_apply, get_apply]
    dsimp only
    have hloop := forIn_yield (s.breakpoints.temporaries)
      (fun a (_ : PUnit) => (discard (onStore fun x => x.removeAt a) >>= fun _ =>
        pure (ForInStep.yield PUnit.unit) : SessionM τ (ForInStep PUnit)))
      (fun a s => { s with breakpoints := (s.breakpoints.removeAt a).1 }) (fun _ => True)
      (fun a t _ => ⟨by simp only [bind_apply, discard_apply, onStore_apply]; rfl, trivial⟩)
      { s with running := false, lastStop := some stop } trivial
    rw [foldl_breakpoints fun st a => (st.removeAt a).1] at hloop
    rw [bind_apply, hloop]
    have hsd : Silent s
        { s with running := false, lastStop := some stop, breakpoints := s.breakpoints.dropTemporaries } :=
      ⟨rfl, rfl⟩
    obtain ⟨u, hfw, hann⟩ := announce_spec stop none none
      { s with running := false, lastStop := some stop, breakpoints := s.breakpoints.dropTemporaries }
    exact ⟨_, hann, takenIn_of (.inl ⟨rfl, rfl⟩) hsd rfl hfw⟩
  · simp only [↓reduceIte]
    rw [bind_apply, attempt_apply]
    dsimp only
    have hsil := leads_silent_rewindTrap stop resumed { s with running := false, lastStop := some stop }
    rcases rewindTrap_spec stop resumed { s with running := false, lastStop := some stop } with
      ⟨hbps, hnone⟩ | ⟨hres, htrap, c, regs, c1, c2, hc, hr, harmed, hw, hrun⟩
    · -- nothing counted, whether or not the registers could be read
      cases hrt : rewindTrap stop resumed { s with running := false, lastStop := some stop } with
      | ok v u =>
        obtain ⟨pc, hit⟩ := v
        have hhit : hit = none := hnone pc hit (by rw [hrt]; rfl)
        rw [hrt] at hbps hsil
        have hbu : u.breakpoints = s.breakpoints := hbps
        obtain ⟨u', hrem, hb', hs'⟩ := removeTemporaries_spec u (by rw [hbu]; exact hwf)
        dsimp only [endState]
        rw [bind_apply, hrem]
        obtain ⟨w, hfw, hann⟩ := announce_spec stop (some pc) hit u'
        exact ⟨_, hann, takenIn_of (.inl ⟨rfl, hhit⟩) (trans_of Silent (trans_of Silent hs0 hsil) hs')
          (by rw [hb', hbu]) hfw⟩
      | error e u =>
        rw [hrt] at hbps hsil
        have hbu : u.breakpoints = s.breakpoints := hbps
        obtain ⟨u', hrem, hb', hs'⟩ := removeTemporaries_spec u (by rw [hbu]; exact hwf)
        dsimp only [endState]
        rw [bind_apply, hrem]
        obtain ⟨w, hfw, hann⟩ := announce_spec stop none none u'
        exact ⟨_, hann, takenIn_of (.inl ⟨rfl, rfl⟩) (trans_of Silent (trans_of Silent hs0 hsil) hs')
          (by rw [hb', hbu]) hfw⟩
    · -- the hit is counted on the breakpoint the program counter was moved back onto
      rw [hrun] at hsil ⊢
      dsimp only [endState]
      obtain ⟨u', hrem, hb', hs'⟩ := removeTemporaries_spec
        { s with running := false, lastStop := some stop, host := some c2, breakpoints := _ }
        (BreakpointStore.wellFormed_recordHit hwf (regs.pc - 1))
      rw [bind_apply, hrem]
      obtain ⟨w, hfw, hann⟩ := announce_spec stop (some (regs.pc - 1))
        (((s.breakpoints.recordHit (regs.pc - 1)).2.filter (!·.isTemporary)).map (·.id)) u'
      exact ⟨_, hann, takenIn_of (.inr ⟨hres, htrap, c, regs, c1, c2, hc, hr, harmed, hw, rfl, rfl, rfl⟩)
        (trans_of Silent (trans_of Silent hs0 hsil) hs') hb' hfw⟩

/-! ## A counted hit -/

/-- A hit counted on taking in `stop` under `config` over client `c`, from store `store` to `st`:
the stop is the trap signal; the stub gave a program counter one byte past the armed user
breakpoint `b` and took it moved back onto `b`, which `pc` names; and `st` holds `b` with its
count one higher. -/
structure CountedHit (config : SessionConfig) (store : BreakpointStore) (c : Client τ)
    (stop : StopEvent) (pc : Option Address) (b : Breakpoint) (st : BreakpointStore) : Prop where
  trap : stop.reason = .signal config.trapSignal
  rewound : ∃ regs c1 c2, Client.readRegisters none c = .ok regs c1 ∧ regs.pc - 1 = b.address ∧
    Client.writeRegisters (regs.setPc b.address) c1 = .ok () c2
  announced : pc = some b.address
  found : store.find? b.address = some b
  armed : b.state = .armed
  user : b.kind = .user
  counted : st.find? b.address = some { b with hitCount := b.hitCount + 1 }
  below : b.hitCount.toNat + 1 < UInt64.size

/-- Forgetting the temporary breakpoints keeps a counted hit, on a user breakpoint. -/
theorem CountedHit.dropTemporaries {config : SessionConfig} {store : BreakpointStore} {c : Client τ}
    {stop : StopEvent} {pc : Option Address} {b : Breakpoint} {st : BreakpointStore}
    (h : CountedHit config store c stop pc b st) (hwf : st.WellFormed) :
    CountedHit config store c stop pc b st.dropTemporaries := by
  refine { h with counted := ?_ }
  rw [BreakpointStore.dropTemporaries, BreakpointStore.find?_dropTemporaries hwf, h.counted]
  simp [Option.filter, Breakpoint.isTemporary, h.user]

section Rewound

variable {s : RemoteSession τ} {stop : StopEvent} {resumed : Bool} {pc : Option Address}
  {hit : Option UInt64} {st : BreakpointStore}

/-- Counting changes the store at most by one counted hit. -/
theorem Rewound.store (h : Rewound s stop resumed pc hit st) :
    ∃ a, st = s.breakpoints ∨ st = (s.breakpoints.recordHit a).1 := by
  rcases h with ⟨hst, _⟩ | ⟨_, _, _, regs, _, _, _, _, _, _, _, hst, _⟩
  · exact ⟨0, .inl hst⟩
  · exact ⟨regs.pc - 1, .inr hst⟩

theorem Rewound.wellFormed (h : Rewound s stop resumed pc hit st) (hwf : s.breakpoints.WellFormed) :
    st.WellFormed := by
  obtain ⟨a, hst | hst⟩ := h.store <;> rw [hst]
  · exact hwf
  · exact BreakpointStore.wellFormed_recordHit hwf a

theorem Rewound.keepsUsers (h : Rewound s stop resumed pc hit st) :
    BreakpointStore.KeepsUsers s.breakpoints st := by
  obtain ⟨a, hst | hst⟩ := h.store <;> rw [hst]
  · exact .refl _
  · exact BreakpointStore.keepsUsers_recordHit _ a

theorem Rewound.within {n : Nat} (h : Rewound s stop resumed pc hit st)
    (hn : BreakpointStore.Within n s.breakpoints) : BreakpointStore.Within (n + 1) st := by
  obtain ⟨a, hst | hst⟩ := h.store <;> rw [hst]
  · exact hn.mono (Nat.le_succ n)
  · exact hn.recordHit a

/-- A breakpoint is named only for a counted hit, which needs a resumed target; below the top of
the word the count rises by exactly one. -/
theorem Rewound.counted {id : UInt64} {n : Nat} (h : Rewound s stop resumed pc (some id) st)
    (hn : BreakpointStore.Within n s.breakpoints) (htop : n + 1 < UInt64.size) :
    resumed = true ∧ ∃ c b, s.host = some c ∧ b.id = id ∧
      CountedHit s.config s.breakpoints c stop pc b st := by
  rcases h with ⟨_, hnone⟩ | ⟨hres, htrap, c, regs, c1, c2, hc, hr, harmed, hw, hpc, hst, hhit⟩
  · cases hnone
  obtain ⟨b, hb, hba⟩ : ∃ b, s.breakpoints.find? (regs.pc - 1) = some b ∧ b.isArmed = true := by
    unfold BreakpointStore.isArmedAt at harmed
    cases hb : s.breakpoints.find? (regs.pc - 1) with
    | none => simp [hb] at harmed
    | some b => exact ⟨b, rfl, by simpa [hb] using harmed⟩
  have haddr : b.address = regs.pc - 1 := (BreakpointStore.find?_some hb).2
  rw [← haddr] at hb hw hpc hst hhit
  have hbelow : b.hitCount.toNat + 1 < UInt64.size :=
    Nat.lt_of_le_of_lt (Nat.add_le_add_right (hn.hits b (BreakpointStore.find?_some hb).1) 1) htop
  obtain ⟨hrec, hfind⟩ := BreakpointStore.recordHit_of_armed hb hba hbelow
  rw [hrec] at hhit
  -- the hit names the breakpoint only when it is not temporary
  have huser : b.kind = .user := by
    cases hk : b.kind
    · rfl
    · simp [Option.filter, Breakpoint.isTemporary, hk] at hhit
  have hid : b.id = id := by
    simp [Option.filter, Breakpoint.isTemporary, huser] at hhit
    exact hhit.symm
  refine ⟨hres, c, b, hc, hid, by simpa [RemoteSession.isTrap] using htrap, ⟨regs, c1, c2, hr, haddr.symm, hw⟩, hpc, hb,
    by simpa [Breakpoint.isArmed] using hba, huser, by rw [hst]; exact hfind, hbelow⟩

end Rewound

/-! ## What a stop taken in leaves -/

section Taken

variable {stop : StopEvent} {resumed : Bool} {s s' : RemoteSession τ}

theorem TakenIn.publish (h : TakenIn stop resumed s s') {e : SessionEvent} (he : e.isStopped = false) :
    TakenIn stop resumed s { s' with events := s'.events.push e } := by
  obtain ⟨pc, hit, st, E, F, hr, hc, hb, hev, hE, hF⟩ := h
  refine ⟨pc, hit, st, E, F ++ [e], hr, hc, hb, by simp [hev], hE, fun x hx => ?_⟩
  rcases List.mem_append.1 hx with hx | hx
  · exact hF x hx
  · rw [List.mem_singleton.1 hx]
    exact he

/-- Of the events added since `s₀`, when nothing announced a stop between `s₀` and taking one in
at `s`, exactly one announces a stop: the one taken in. -/
theorem TakenIn.stopped {s₀ : RemoteSession τ} (h : TakenIn stop resumed s s')
    (hq : QuietlyExtends s₀.events s.events) :
    ∃ pc hit st, Rewound s stop resumed pc hit st ∧ s'.breakpoints = st.dropTemporaries ∧
      (published s₀ s').countP SessionEvent.isStopped = 1 ∧
      SessionEvent.stopped stop.reason stop.thread pc hit ∈ published s₀ s' ∧
      ∀ e ∈ published s₀ s', e.isStopped = true → e = .stopped stop.reason stop.thread pc hit := by
  obtain ⟨pc, hit, st, E, F, hr, -, hb, hev, hE, hF⟩ := h
  obtain ⟨X, hX, hqX⟩ := hq
  have hpub : published s₀ s' = X ++ E ++ SessionEvent.stopped stop.reason stop.thread pc hit :: F :=
    published_of_append (by rw [hev, hX]; simp)
  refine ⟨pc, hit, st, hr, hb, ?_, by simp [hpub], fun e he hs => ?_⟩
  · rw [hpub, List.countP_append, List.countP_append, List.countP_cons,
      countP_isStopped_eq_zero hqX, countP_isStopped_eq_zero hE, countP_isStopped_eq_zero hF]
    rfl
  · rw [hpub] at he
    simp only [List.mem_append, List.mem_cons] at he
    rcases he with (he | he) | he | he
    · simp [hqX e he] at hs
    · simp [hE e he] at hs
    · exact he
    · simp [hF e he] at hs

theorem TakenIn.temporaries (h : TakenIn stop resumed s s') (hwf : s.breakpoints.WellFormed) :
    s'.breakpoints.temporaries = [] := by
  obtain ⟨pc, hit, st, hr, hb, -⟩ := h.stopped (.refl _)
  rw [hb]
  exact BreakpointStore.temporaries_dropTemporaries (hr.wellFormed hwf)

theorem TakenIn.keepsUsers (h : TakenIn stop resumed s s') (hwf : s.breakpoints.WellFormed) :
    BreakpointStore.KeepsUsers s.breakpoints s'.breakpoints := by
  obtain ⟨pc, hit, st, hr, hb, -⟩ := h.stopped (.refl _)
  rw [hb]
  exact hr.keepsUsers.trans (BreakpointStore.keepsUsers_dropTemporaries (hr.wellFormed hwf))

theorem TakenIn.within {n : Nat} (h : TakenIn stop resumed s s')
    (hn : BreakpointStore.Within n s.breakpoints) : BreakpointStore.Within (n + 1) s'.breakpoints := by
  obtain ⟨pc, hit, st, hr, hb, -⟩ := h.stopped (.refl _)
  rw [hb]
  exact (hr.within hn).dropTemporaries

/-- A stop taken in names a breakpoint only for a hit counted after a resumed target stopped. -/
theorem TakenIn.hit {s₀ : RemoteSession τ} {n : Nat} (h : TakenIn stop resumed s s')
    (hq : QuietlyExtends s₀.events s.events)
    (hn : BreakpointStore.Within n s.breakpoints) (htop : n + 1 < UInt64.size)
    {r : StopReason} {th : Option ThreadId} {pc : Option Address} {id : UInt64}
    (he : SessionEvent.stopped r th pc (some id) ∈ published s₀ s') :
    r = stop.reason ∧ resumed = true ∧
      ∃ c b, s.host = some c ∧ b.id = id ∧
        CountedHit s.config s.breakpoints c stop pc b s'.breakpoints := by
  obtain ⟨pc', hit, st, hr, hb, -, -, honly⟩ := h.stopped hq
  have heq := honly _ he rfl
  simp only [SessionEvent.stopped.injEq] at heq
  obtain ⟨rfl, -, rfl, rfl⟩ := heq
  obtain ⟨hres, c, b, hc, hid, hcount⟩ := hr.counted hn htop
  rw [hb]
  exact ⟨rfl, hres, c, b, hc, hid, hcount.dropTemporaries (hr.wellFormed hn.wellFormed)⟩

end Taken

end RemoteSession

end RemoteDebugger
