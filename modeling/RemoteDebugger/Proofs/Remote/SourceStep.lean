import RemoteDebugger.Proofs.Remote.StopHandling
import RemoteDebugger.Proofs.Remote.SessionPackets

/-!
# Stepping one source line

What a source-level `step` does over a `RecordingStub`: single steps, each read back with the
registers, until the first exit `Stepping` describes. The loop has no bound of its own: with too
little fuel the step reports `outOfFuel` after rounds that all went on (`Going`), and once it has
ended, more fuel changes nothing (`step_add_fuel`).
-/

namespace RemoteDebugger

variable {σ : Type}

/-- Whether the configured limit is reached after `n` single steps: a limit `k` after `max k 1`
of them, and no limit ever. -/
def LimitReached (cfg : SessionConfig) (n : Nat) : Prop :=
  ∃ k, cfg.maxStepInstructions = some k ∧ max k.toNat 1 ≤ n

/-- Whether a source-level step from `start` goes on after its `n`-th single step, which reported
`stop` and after which the registers gave the program counter `pc`: the stop is the trap, the step
started on a line, `pc` is on that line (columns aside), and the limit is not reached. -/
def GoesOn (cfg : SessionConfig) (start : Option SourcePosition)
    (position : Address → Option SourcePosition) (n : Nat) (stop : StopEvent) (pc : Address) : Prop :=
  stop.reason = .signal cfg.trapSignal ∧
    (∃ origin, start = some origin ∧ (position pc).any (·.sameLine origin)) ∧ ¬ LimitReached cfg n

/-- The exchanges `ex` of the single steps of a source-level step from `pc`, `n` single steps in,
as the target answered them, and the stop it ends with. Each single step goes out as
`stepPackets` sends it. A stop other than the trap ends the step at once; after the trap the
registers are read, and the step goes on from the program counter they give if it `GoesOn`,
and ends otherwise. -/
inductive Stepping (cfg : SessionConfig) (find : Address → Option Breakpoint)
    (start : Option SourcePosition) (position : Address → Option SourcePosition) :
    Nat → Address → List (List UInt8 × Option (List UInt8)) → StopEvent → Prop
  | other {n : Nat} {pc : Address} {rs : Option (List UInt8)} {stop : StopEvent} :
      stopOf rs = some stop → stop.reason ≠ .signal cfg.trapSignal →
      Stepping cfg find start position n pc (stepPackets find pc rs) stop
  | ends {n : Nat} {pc : Address} {rs ans : Option (List UInt8)} {stop : StopEvent}
      {regs : Registers} :
      stopOf rs = some stop → stop.reason = .signal cfg.trapSignal → registersOf ans = some regs →
      ¬ GoesOn cfg start position (n + 1) stop regs.pc →
      Stepping cfg find start position n pc (stepPackets find pc rs ++ [(Client.text "g", ans)]) stop
  | next {n : Nat} {pc : Address} {rs ans : Option (List UInt8)} {stop last : StopEvent}
      {regs : Registers} {ex : List (List UInt8 × Option (List UInt8))} :
      stopOf rs = some stop → registersOf ans = some regs →
      GoesOn cfg start position (n + 1) stop regs.pc →
      Stepping cfg find start position (n + 1) regs.pc ex last →
      Stepping cfg find start position n pc
        (stepPackets find pc rs ++ (Client.text "g", ans) :: ex) last

/-- The exchanges `ex` of `m` rounds of a source-level step from `pc`, `n` single steps in, after
each of which the step `GoesOn`: what a step has done when its fuel runs out. -/
inductive Going (cfg : SessionConfig) (find : Address → Option Breakpoint)
    (start : Option SourcePosition) (position : Address → Option SourcePosition) :
    Nat → Address → List (List UInt8 × Option (List UInt8)) → Nat → Prop
  | one {n : Nat} {pc : Address} {rs ans : Option (List UInt8)} {stop : StopEvent}
      {regs : Registers} :
      stopOf rs = some stop → registersOf ans = some regs →
      GoesOn cfg start position (n + 1) stop regs.pc →
      Going cfg find start position n pc (stepPackets find pc rs ++ [(Client.text "g", ans)]) 1
  | next {n : Nat} {pc : Address} {rs ans : Option (List UInt8)} {stop : StopEvent}
      {regs : Registers} {ex : List (List UInt8 × Option (List UInt8))} {m : Nat} :
      stopOf rs = some stop → registersOf ans = some regs →
      GoesOn cfg start position (n + 1) stop regs.pc →
      Going cfg find start position (n + 1) regs.pc ex m →
      Going cfg find start position n pc (stepPackets find pc rs ++ (Client.text "g", ans) :: ex)
        (m + 1)

/-- An exchange in which the stub failed a request a source-level step depends on: a single step
answered without a stop, a register read without registers, or a thread selection not answered
`OK`. -/
def StepFailure (q : List UInt8 × Option (List UInt8)) : Prop :=
  (q.1 = Client.text "s" ∧ stopOf q.2 = none) ∨ (q.1 = Client.text "g" ∧ registersOf q.2 = none) ∨
    ∃ t : ThreadId, q.1 = Client.text ("Hg" ++ Hex.natDigits t.toNat) ∧ q.2 ≠ some okReply

theorem mem_stepPackets (find : Address → Option Breakpoint) (pc : Address)
    (rs : Option (List UInt8)) : (Client.text "s", rs) ∈ stepPackets find pc rs := by
  unfold stepPackets overBreakpoint
  cases find pc with
  | none => simp
  | some b => by_cases h : b.isArmed <;> simp [h]

theorem writeRequest_ne_text_s (a : UInt64) (data : List UInt8) :
    writeRequest a data ≠ Client.text "s" :=
  fun h => writeRequest_not_moves a data (.inl h)

/-- One instruction is one single step, whether or not a breakpoint is stepped over. -/
theorem countP_stepPackets (find : Address → Option Breakpoint) (pc : Address)
    (rs : Option (List UInt8)) : (stepPackets find pc rs).countP (·.1 == Client.text "s") = 1 := by
  unfold stepPackets overBreakpoint
  cases find pc with
  | none => simp
  | some b =>
    by_cases h : b.isArmed
    · by_cases halive : (stopOf rs).all (·.reason.isAlive) <;>
        simp [h, halive, writeRequest_ne_text_s]
    · simp [h]

theorem text_g_ne_text_s : Client.text "g" ≠ Client.text "s" := by
  rw [Client.text_eq, Client.text_eq]
  decide

/-- After at least one single step, the code's test of the limit is `LimitReached`. -/
theorem limitReached_iff {cfg : SessionConfig} {n : Nat} :
    LimitReached cfg (n + 1) ↔
      cfg.maxStepInstructions.any (fun k => decide (n + 1 ≥ k.toNat)) = true := by
  unfold LimitReached
  cases cfg.maxStepInstructions with
  | none => simp
  | some k =>
    simp only [Option.some.injEq, exists_eq_left', Option.any_some, decide_eq_true_eq]
    omega

/-- After a single step that stopped with the trap, the code's test for going on is `GoesOn`. -/
theorem goesOn_iff {cfg : SessionConfig} {start : Option SourcePosition}
    {position : Address → Option SourcePosition} {n : Nat} {stop : StopEvent} {pc : Address} :
    GoesOn cfg start position (n + 1) stop pc ↔ stop.reason = .signal cfg.trapSignal ∧
      RemoteSession.stepGoesOn cfg start position (n + 1) pc = true := by
  unfold GoesOn RemoteSession.stepGoesOn
  rw [limitReached_iff]
  cases start <;> simp

section Counts

variable {cfg : SessionConfig} {find : Address → Option Breakpoint} {start : Option SourcePosition}
  {position : Address → Option SourcePosition} {n : Nat} {pc : Address}
  {ex : List (List UInt8 × Option (List UInt8))}

/-- A source-level step runs at least one single step, and with a limit `k` configured, no more
than `max k 1` in all. -/
theorem Stepping.countP_le {stop : StopEvent} (h : Stepping cfg find start position n pc ex stop)
    (hn : ¬ LimitReached cfg n) :
    0 < ex.countP (·.1 == Client.text "s") ∧ ∀ k, cfg.maxStepInstructions = some k →
      n + ex.countP (·.1 == Client.text "s") ≤ max k.toNat 1 := by
  induction h with
  | other =>
    rw [countP_stepPackets]
    exact ⟨Nat.one_pos, fun k hk => Nat.succ_le_of_lt (Nat.lt_of_not_le fun hle => hn ⟨k, hk, hle⟩)⟩
  | ends =>
    simp only [List.countP_append, countP_stepPackets, List.countP_singleton]
    simp only [text_g_ne_text_s, beq_iff_eq, if_false, Nat.add_zero]
    exact ⟨Nat.one_pos, fun k hk => Nat.succ_le_of_lt (Nat.lt_of_not_le fun hle => hn ⟨k, hk, hle⟩)⟩
  | next _ _ hgoes _ ih =>
    -- the step went on, so the limit was not reached after one more single step
    obtain ⟨-, hle⟩ := ih hgoes.2.2
    simp only [List.countP_append, countP_stepPackets, List.countP_cons, text_g_ne_text_s,
      beq_iff_eq, if_false, Nat.add_zero]
    exact ⟨by omega, fun k hk => by have := hle k hk; omega⟩

/-- Rounds that all went on are as many single steps. -/
theorem Going.countP {m : Nat} (h : Going cfg find start position n pc ex m) :
    ex.countP (·.1 == Client.text "s") = m := by
  induction h with
  | one => simp [List.countP_append, countP_stepPackets, text_g_ne_text_s]
  | next _ _ _ _ ih =>
    simp [List.countP_append, countP_stepPackets, text_g_ne_text_s, ih]
    omega

/-- After rounds that all went on, the limit is not reached. -/
theorem Going.not_limitReached {m : Nat} (h : Going cfg find start position n pc ex m) :
    ¬ LimitReached cfg (n + m) := by
  induction h with
  | one _ _ hgoes => exact hgoes.2.2
  | next _ _ _ _ ih => rwa [Nat.add_assoc, Nat.add_comm 1] at ih

end Counts

namespace RecordingStub

variable {c : Client (RecordingStub σ)}

/-- Reading the registers of `thread` records its requests and leaves the link at rest with the
same memory mapped; when none of the requests failed, it gives registers. -/
theorem readRegisters_recorded (hc : Quiet c.link) (thread : Option ThreadId) :
    ∃ pre c1, endState (Client.readRegisters thread c) = c1 ∧ Quiet c1.link ∧
      c1.link.transport.mapped = c.link.transport.mapped ∧
      c1.link.transport.transcript = c.link.transport.transcript ++ pre ∧
      ((∀ q ∈ pre, ¬ StepFailure q) → ∃ regs, Client.readRegisters thread c = .ok regs c1) := by
  -- the read of the current thread is one g
  have hcurrent : ∀ c : Client (RecordingStub σ), Quiet c.link →
      ∃ pre c1, endState (Client.readRegisters none c) = c1 ∧ Quiet c1.link ∧
        c1.link.transport.mapped = c.link.transport.mapped ∧
        c1.link.transport.transcript = c.link.transport.transcript ++ pre ∧
        ((∀ q ∈ pre, ¬ StepFailure q) → ∃ regs, Client.readRegisters none c = .ok regs c1) := by
    intro c hc
    have hrun := readRegisters_run hc
    refine ⟨[(Client.text "g", (c.link.transport.answer (Client.text "g")).2)],
      c.withTransport (c.link.transport.handle (Client.text "g")), ?_, quiet_handle hc _,
      by simp [Client.withTransport], by simp [Client.withTransport], fun hok => ?_⟩
    · split at hrun
      · rw [hrun]
        rfl
      · obtain ⟨e, he⟩ := hrun
        rw [he]
        rfl
    · cases hr : registersOf (c.link.transport.answer (Client.text "g")).2 with
      | none => exact absurd (.inr (.inl ⟨rfl, hr⟩)) (hok _ (List.mem_singleton_self _))
      | some regs =>
        rw [hr] at hrun
        exact ⟨regs, hrun⟩
  cases thread with
  | none => exact hcurrent c hc
  | some t =>
    -- a named thread is selected first, and must be answered OK
    have hsome : Client.readRegisters (some t) =
        (Client.expectOk (Client.text ("Hg" ++ Hex.natDigits t.toNat)) >>= fun _ =>
          (Client.readRegisters none : ClientM (RecordingStub σ) _)) := rfl
    rw [hsome, bind_apply]
    rcases expectOk_run hc (Client.text ("Hg" ++ Hex.natDigits t.toNat)) with
      ⟨hok, -⟩ | ⟨e, herr, hne⟩
    · rw [hok]
      obtain ⟨pre, c1, hend, hq1, hmap1, htr1, hregs⟩ := hcurrent _ (quiet_handle hc _)
      refine ⟨(Client.text ("Hg" ++ Hex.natDigits t.toNat),
          (c.link.transport.answer (Client.text ("Hg" ++ Hex.natDigits t.toNat))).2) :: pre,
        c1, hend, hq1, by rw [hmap1]; simp [Client.withTransport], by rw [htr1]; simp [Client.withTransport],
        fun hall => hregs fun q hq => hall q (List.mem_cons_of_mem _ hq)⟩
    · rw [herr]
      exact ⟨[(Client.text ("Hg" ++ Hex.natDigits t.toNat),
          (c.link.transport.answer (Client.text ("Hg" ++ Hex.natDigits t.toNat))).2)],
        c.withTransport (c.link.transport.handle (Client.text ("Hg" ++ Hex.natDigits t.toNat))), rfl,
        quiet_handle hc _, by simp [Client.withTransport], by simp [Client.withTransport],
        fun hall => absurd (.inr (.inr ⟨t, rfl, hne⟩)) (hall _ (List.mem_singleton_self _))⟩

end RecordingStub

namespace RemoteSession

open RecordingStub

section Announce

variable {τ : Type} [Transport τ]

/-- Passing on program output publishes it, in order. -/
theorem forIn_output_events (L : List String) (t : RemoteSession τ) :
    ∃ t', forIn L PUnit.unit (fun text (_ : PUnit) =>
      (publish (SessionEvent.output text) >>= fun _ => pure (ForInStep.yield PUnit.unit) :
        SessionM τ (ForInStep PUnit))) t = .ok PUnit.unit t' ∧
      t'.events.toList = t.events.toList ++ L.map .output := by
  induction L generalizing t with
  | nil => exact ⟨t, rfl, by simp⟩
  | cons text L ih =>
    obtain ⟨t', hrun, hev⟩ := ih { t with events := t.events.push (.output text) }
    refine ⟨t', ?_, by simp [hev]⟩
    rw [List.forIn_cons, bind_apply, bind_apply, publish_apply]
    exact hrun

/-- Announcing a stop publishes the program output the connection held, then the stop. -/
theorem announce_events (stop : StopEvent) (pc : Option Address) (hit : Option UInt64)
    (t : RemoteSession τ) :
    ∃ u, ∃ outs : List String, (do
      let __do_lift ← get
      if __do_lift.host.isSome = true then do
          let output ← onHost Client.takeOutput
          forIn output PUnit.unit fun text __s => do
              publish (SessionEvent.output text)
              pure (ForInStep.yield PUnit.unit)
          publish (SessionEvent.stopped stop.reason stop.thread pc hit)
        else do
          let output ← pure []
          forIn output PUnit.unit fun text __s => do
              publish (SessionEvent.output text)
              pure (ForInStep.yield PUnit.unit)
          publish (SessionEvent.stopped stop.reason stop.thread pc hit) : SessionM τ Unit) t =
      .ok () u ∧ u.events.toList = t.events.toList ++ outs.map .output ++
        [.stopped stop.reason stop.thread pc hit] := by
  rw [bind_apply, get_apply]
  dsimp only
  cases hh : t.host with
  | none => exact ⟨_, [], rfl, by simp⟩
  | some c =>
    have htake : Client.takeOutput c = .ok c.output.toList { c with output := #[] } := rfl
    obtain ⟨u, hloop, hev⟩ := forIn_output_events c.output.toList
      { t with host := some { c with output := #[] } }
    refine ⟨{ u with events := u.events.push (.stopped stop.reason stop.thread pc hit) },
      c.output.toList, ?_, by simp [hev]⟩
    simp only [Option.isSome_some, ↓reduceIte]
    rw [bind_apply, onHost_apply hh, htake]
    dsimp only
    rw [bind_apply, hloop]
    exact publish_apply _ u

/-- Taking in a stop publishes the program output the connection held, then the stop, and
nothing else. -/
theorem handleStop_events (stop : StopEvent) (resumed : Bool) (s : RemoteSession τ)
    (hwf : s.breakpoints.WellFormed) :
    ∃ s', handleStop stop resumed s = .ok () s' ∧ ∃ (outs : List String) (pc : Option Address) (hit : Option UInt64),
      s'.events.toList = s.events.toList ++ outs.map .output ++
        [.stopped stop.reason stop.thread pc hit] := by
  unfold handleStop
  rw [bind_apply]
  simp only [modify, modifyGet, MonadStateOf.modifyGet, EStateM.modifyGet]
  -- rewinding and forgetting the temporary breakpoints publish nothing, and never fail
  cases halive : stop.reason.isAlive
  · simp only [Bool.false_eq_true, ↓reduceIte]
    rw [bind_apply, get_apply]
    dsimp only
    have hloop := forIn_yield (s.breakpoints.temporaries)
      (fun a (_ : PUnit) => (discard (onStore fun x => x.removeAt a) >>= fun _ =>
        pure (ForInStep.yield PUnit.unit) : SessionM τ (ForInStep PUnit)))
      (fun a s => { s with breakpoints := (s.breakpoints.removeAt a).1 }) (fun _ => True)
      (fun a t _ => ⟨by simp only [bind_apply, discard_apply, onStore_apply]; rfl, trivial⟩)
      { s with running := false, lastStop := some stop } trivial
    rw [foldl_breakpoints fun st a => (st.removeAt a).1] at hloop
    rw [bind_apply, hloop]
    obtain ⟨u, outs, hrun, hev⟩ := announce_events stop none none
      { s with running := false, lastStop := some stop, breakpoints := s.breakpoints.dropTemporaries }
    exact ⟨u, hrun, outs, none, none, hev⟩
  · simp only [↓reduceIte]
    rw [bind_apply, attempt_apply]
    dsimp only
    have hsil := leads_silent_rewindTrap stop resumed { s with running := false, lastStop := some stop }
    have hwf1 : (endState (rewindTrap stop resumed
        { s with running := false, lastStop := some stop })).breakpoints.WellFormed := by
      rcases rewindTrap_spec stop resumed { s with running := false, lastStop := some stop } with
        ⟨hb, -⟩ | ⟨-, -, c, regs, c1, c2, -, -, -, -, hrun⟩
      · rw [hb]
        exact hwf
      · rw [hrun]
        exact BreakpointStore.wellFormed_recordHit hwf _
    obtain ⟨u, hrem, -, hs⟩ := removeTemporaries_spec _ hwf1
    have hev : u.events = s.events := hs.events.trans hsil.events
    rw [bind_apply, hrem]
    cases rewindTrap stop resumed { s with running := false, lastStop := some stop } with
    | ok v u0 =>
      obtain ⟨pc, hit⟩ := v
      obtain ⟨w, outs, hrun, hevw⟩ := announce_events stop (some pc) hit u
      exact ⟨w, hrun, outs, some pc, hit, by rw [hevw, hev]⟩
    | error e u0 =>
      obtain ⟨w, outs, hrun, hevw⟩ := announce_events stop none none u
      exact ⟨w, hrun, outs, none, none, by rw [hevw, hev]⟩

end Announce

/-- The rounds of a source-level step from `pc`, `executed` single steps in, with `fuel` rounds
left after the first: whatever the stub answers, the link is at rest afterwards and the exchanges
are recorded; when none of them is a failure, the loop either returns the stop they end with, as
`Stepping` describes them, after at most `fuel + 1` single steps, or runs out of fuel after
`fuel + 1` rounds that all went on. Only the connection and the store change. -/
theorem stepLoop_stepping (start : Option SourcePosition)
    (position : Address → Option SourcePosition) (fuel : Nat) :
    ∀ (pc : Address) (executed : Nat) (s : RemoteSession (RecordingStub σ))
      (c : Client (RecordingStub σ)), s.host = some c → Quiet c.link →
      (∀ y b, s.breakpoints.find? y = some b → b.state = .armed →
        c.link.transport.mapped y = true) →
      ∃ ex c', (endState (stepLoop start position fuel pc executed s)).host = some c' ∧
        Quiet c'.link ∧ c'.link.transport.transcript = c.link.transport.transcript ++ ex ∧
        ((∀ q ∈ ex, ¬ StepFailure q) →
          (∃ stop st, stepLoop start position fuel pc executed s =
              .ok (some stop) { s with host := some c', breakpoints := st } ∧
            Stepping s.config s.breakpoints.find? start position executed pc ex stop ∧
            ex.countP (·.1 == Client.text "s") ≤ fuel + 1) ∨
          ∃ st, stepLoop start position fuel pc executed s =
              .ok none { s with host := some c', breakpoints := st } ∧
            Going s.config s.breakpoints.find? start position executed pc ex (fuel + 1)) := by
  -- the induction is on the fuel; each round reads the registers and starts again where they say
  induction fuel using Nat.strong_induction_on with
  | _ fuel ih =>
  intro pc executed s c hc hq hmapped
  obtain ⟨rs, more, c1, st1, hq1, hmap1, htr1, hend1, hfind1, -, hends⟩ :=
    stepRound_run hc hq hmapped start position pc executed
  have htr : c1.link.transport.transcript =
      c.link.transport.transcript ++ (stepPackets s.breakpoints.find? pc rs ++ more) := by
    rw [htr1, List.append_assoc]
  rw [stepLoop, bind_apply]
  cases hround : stepRound start position pc executed s with
  | error e s1 =>
    rw [hround] at hend1 hends
    simp only [endState] at hend1
    subst hend1
    -- a failed round: a single step without a stop, or a register read without registers
    refine ⟨_, c1, rfl, hq1, htr, fun hok => ?_⟩
    exfalso
    rcases hends.fails rfl with ⟨hs, -⟩ | ⟨ans, hr, hmore⟩
    · exact hok _ (List.mem_append_left _ (mem_stepPackets _ pc rs)) (.inl ⟨rfl, hs⟩)
    · exact hok (Client.text "g", ans) (by simp [hmore]) (.inr (.inl ⟨rfl, hr⟩))
  | ok r s1 =>
    rw [hround] at hend1 hends
    simp only [endState] at hend1
    subst hend1
    simp only [valueOf] at hends
    cases r with
    | ends stop =>
      -- the round ends the step
      obtain ⟨hs, hexit⟩ := hends.ends rfl
      refine ⟨_, c1, rfl, hq1, htr, fun _ => .inl ⟨stop, st1, rfl, ?_, ?_⟩⟩
      · rcases hexit with ⟨hother, hmore⟩ | ⟨htrapR, ans, regs, hr, hmore, hstay⟩
        · rw [hmore, List.append_nil]
          exact .other hs hother
        · rw [hmore]
          refine .ends hs htrapR hr fun hgoes => ?_
          rw [(goesOn_iff.1 hgoes).2] at hstay
          cases hstay
      · rcases hexit with ⟨-, hmore⟩ | ⟨-, ans, regs, -, hmore, -⟩ <;>
          simp [hmore, List.countP_append, countP_stepPackets, text_g_ne_text_s]
    | goesOn pc' =>
      -- the round went on after the trap, from the program counter its register read gave
      obtain ⟨stop, ans, regs, hs, htrapR, hr, hmore, hpc, hgo⟩ := hends.goesOn rfl
      subst hpc
      have hgoes : GoesOn s.config start position (executed + 1) stop regs.pc :=
        goesOn_iff.2 ⟨htrapR, hgo⟩
      rw [hmore] at htr
      cases fuel with
      | zero => exact ⟨_, c1, rfl, hq1, htr, fun _ => .inr ⟨st1, rfl, .one hs hr hgoes⟩⟩
      | succ f =>
        dsimp only
        -- the next round starts from the same lookups, with the stub as the read left it
        have hfind : st1.find? = s.breakpoints.find? := hfind1 (by simp [hs, htrapR, StopReason.isAlive])
        have hmapped1 : ∀ y b, st1.find? y = some b → b.state = .armed →
            c1.link.transport.mapped y = true := by
          intro y b hb harmed
          rw [hmap1]
          exact hmapped y b (hfind ▸ hb) harmed
        obtain ⟨ex, c', hend', hq', htr', hrest⟩ := ih f (Nat.lt_succ_self f) regs.pc
          (executed + 1) { s with host := some c1, breakpoints := st1 } c1 rfl hq1 hmapped1
        refine ⟨stepPackets s.breakpoints.find? pc rs ++ (Client.text "g", ans) :: ex, c', hend',
          hq', by rw [htr', htr]; simp, fun hok => ?_⟩
        dsimp only at hrest
        rw [hfind] at hrest
        rcases hrest fun q hq => hok q (by simp [hq]) with
          ⟨stop', st', hrun', hstep', hcount'⟩ | ⟨st', hrun', hgoing'⟩
        · refine .inl ⟨stop', st', hrun', .next hs hr hgoes hstep', ?_⟩
          simp [List.countP_append, countP_stepPackets, text_g_ne_text_s]
          omega
        · exact .inr ⟨st', hrun', .next hs hr hgoes hgoing'⟩

/-! ## Fuel -/

section Fuel

variable {τ : Type} [Transport τ] {start : Option SourcePosition}
  {position : Address → Option SourcePosition}

/-- A loop that did not run out of fuel ends the same way with more. -/
theorem stepLoop_add_fuel (k : Nat) : ∀ fuel pc executed (s : RemoteSession τ),
    (∀ s', stepLoop start position fuel pc executed s ≠ .ok none s') →
      stepLoop start position (fuel + k) pc executed s = stepLoop start position fuel pc executed s := by
  intro fuel
  induction fuel with
  | zero =>
    intro pc executed s h
    rw [Nat.zero_add]
    unfold stepLoop at h ⊢
    rw [bind_apply] at h ⊢
    rw [bind_apply]
    cases hround : stepRound start position pc executed s with
    | error e s1 => rfl
    | ok r s1 =>
      rw [hround] at h
      cases r with
      | ends stop => rfl
      | goesOn pc' => exact absurd rfl (h s1)
  | succ fuel ih =>
    intro pc executed s h
    rw [show fuel + 1 + k = fuel + k + 1 by omega]
    unfold stepLoop at h ⊢
    rw [bind_apply] at h ⊢
    rw [bind_apply]
    cases hround : stepRound start position pc executed s with
    | error e s1 => rfl
    | ok r s1 =>
      rw [hround] at h
      cases r with
      | ends stop => rfl
      | goesOn pc' => exact ih pc' (executed + 1) s1 h

/-- A step that ended with a stop ends the same way with more fuel. -/
theorem step_add_fuel {thread : Option ThreadId} {fuel : Nat} {s s' : RemoteSession τ}
    {stop : StopEvent} (h : step thread position fuel s = .ok stop s') (k : Nat) :
    step thread position (fuel + k) s = .ok stop s' := by
  unfold step at h ⊢
  obtain ⟨_, s1, h1, h⟩ := bind_eq_ok h
  obtain ⟨regs, s2, h2, h⟩ := bind_eq_ok h
  obtain ⟨r, s3, h3, h⟩ := bind_eq_ok h
  -- the loop ended with a stop: a loop that ran out of fuel fails the step
  cases r with
  | none => cases h
  | some stop' =>
    have hmore : stepLoop (position regs.pc) position (fuel + k) regs.pc 0 s2 =
        stepLoop (position regs.pc) position fuel regs.pc 0 s2 :=
      stepLoop_add_fuel k fuel regs.pc 0 s2 fun _ h' => by rw [h3] at h'; cases h'
    rw [bind_apply, h1]
    dsimp only
    rw [bind_apply, h2]
    dsimp only
    rw [bind_apply, hmore, h3]
    exact h

end Fuel

section Step

variable {s : RemoteSession (RecordingStub σ)} {c : Client (RecordingStub σ)}

/-- What a step given `fuel` does over a `RecordingStub`, as `step_stops_at_first_exit` states
it, but for the fuel the step would take more of. -/
theorem step_run (hopen : s.state = .opened) (hr : s.running = false)
    (hc : s.host = some c) (hq : Quiet c.link) (hwf : s.breakpoints.WellFormed)
    (hmapped : ∀ b ∈ s.breakpoints.entries, b.state = .armed →
      c.link.transport.mapped b.address = true)
    (thread : Option ThreadId) (position : Address → Option SourcePosition) (fuel : Nat) :
    ∃ new c', (endState (step thread position fuel s)).host = some c' ∧
      c'.link.transport.transcript = c.link.transport.transcript ++ new ∧
      ((∀ q ∈ new, ¬ StepFailure q) →
        ∃ regs c1 ex, Client.readRegisters thread c = .ok regs c1 ∧
          ((∃ post stop s', step thread position fuel s =
                .ok { stop with thread := stop.thread <|> thread } s' ∧
              c'.link.transport.transcript = c1.link.transport.transcript ++ ex ++ post ∧
              Stepping s.config s.breakpoints.find? (position regs.pc) position 0 regs.pc ex stop ∧
              ex.countP (·.1 == Client.text "s") ≤ fuel + 1 ∧
              (∀ k, s.config.maxStepInstructions = some k →
                ex.countP (·.1 == Client.text "s") ≤ max k.toNat 1) ∧
              (∀ q ∈ post, ¬ Moves q.1) ∧
              ∃ (outs : List String) (pc : Option Address) (hit : Option UInt64),
                published s s' = outs.map .output ++
                  [.stopped stop.reason (stop.thread <|> thread) pc hit,
                    .stepFinished (stop.thread <|> thread)]) ∨
            (c'.link.transport.transcript = c1.link.transport.transcript ++ ex ∧
              Going s.config s.breakpoints.find? (position regs.pc) position 0 regs.pc ex (fuel + 1) ∧
              (∀ k, s.config.maxStepInstructions = some k → fuel + 1 < max k.toNat 1) ∧
              ∃ s', step thread position fuel s =
                .error (.outOfFuel "stepping one source line") s'))) := by
  have hmapped' : ∀ y b, s.breakpoints.find? y = some b → b.state = .armed →
      c.link.transport.mapped y = true := fun _ _ hb harmed =>
    @BreakpointStore.armed_at_of_find? _ (c.link.transport.mapped · = true) hmapped _ _ hb harmed
  obtain ⟨pre, c1, hend1, hq1, hmap1, htr1, hregs1⟩ := readRegisters_recorded hq thread
  unfold step
  rw [bind_apply, ensureStopped_ok hopen hc hr]
  dsimp only
  rw [bind_apply, onHost_apply hc]
  cases hrr : Client.readRegisters thread c with
  | error e c1' =>
    -- the first read failed, and nothing more is sent
    rw [hrr] at hend1
    subst hend1
    refine ⟨pre, c1', rfl, htr1, fun hok => ?_⟩
    obtain ⟨regs, h⟩ := hregs1 hok
    rw [hrr] at h
    cases h
  | ok regs c1' =>
    rw [hrr] at hend1
    simp only [endState] at hend1
    subst hend1
    dsimp only
    have hmapped1 : ∀ y b, s.breakpoints.find? y = some b → b.state = .armed →
        c1'.link.transport.mapped y = true := fun y b hb harmed => by
      rw [hmap1]
      exact hmapped' y b hb harmed
    obtain ⟨ex, c2, hend2, hq2, htr2, hrest⟩ := stepLoop_stepping (position regs.pc) position fuel
      regs.pc 0 { s with host := some c1' } c1' rfl hq1 hmapped1
    have hcalm := leads_stepLoop (position regs.pc) position fuel regs.pc 0 { s with host := some c1' }
    rw [bind_apply]
    cases hsl : stepLoop (position regs.pc) position fuel regs.pc 0 { s with host := some c1' } with
    | error e s2 =>
      -- a failed single step or register read: the step fails with it
      rw [hsl] at hend2
      refine ⟨pre ++ ex, c2, hend2, by rw [htr2, htr1, List.append_assoc], fun hok => ?_⟩
      rcases hrest fun q hq => hok q (List.mem_append_right _ hq) with
        ⟨stop, st, hrun, -⟩ | ⟨st, hrun, -⟩ <;> rw [hsl] at hrun <;> cases hrun
    | ok r s2 =>
      rw [hsl] at hend2 hcalm
      cases r with
      | none =>
        -- the fuel ran out after rounds that all went on
        refine ⟨pre ++ ex, c2, hend2, by rw [htr2, htr1, List.append_assoc], fun hok => ?_⟩
        rcases hrest fun q hq => hok q (List.mem_append_right _ hq) with
          ⟨stop, st, hrun, -⟩ | ⟨st, hrun, hgoing⟩
        · rw [hsl] at hrun
          cases hrun
        · have hlim := hgoing.not_limitReached
          refine ⟨regs, c1', ex, rfl, .inr ⟨htr2, hgoing, fun k hk => ?_, _, rfl⟩⟩
          simp only [LimitReached, hk, Option.some.injEq, exists_eq_left'] at hlim
          omega
      | some stop =>
        -- taking in the stop never fails, and lets the target run no further
        obtain ⟨s3, hhs, outs, pc, hit, hev⟩ := handleStop_events
          { stop with thread := stop.thread <|> thread } false s2 (hcalm.store.wellFormed hwf)
        obtain ⟨c3, hc3, hl3⟩ := sends_handleStop { stop with thread := stop.thread <|> thread } false
          s2 c2 hend2 hq2
        rw [hhs] at hc3
        obtain ⟨post, hpost, hmoves⟩ := hl3.sent
        dsimp only
        rw [bind_apply, hhs]
        dsimp only
        rw [bind_apply, publish_apply]
        refine ⟨pre ++ ex ++ post, c3, hc3, by rw [hpost, htr2, htr1]; simp, fun hok => ?_⟩
        rcases hrest fun q hq => hok q (by simp [hq]) with
          ⟨stop', st, hrun, hstepping, hcount⟩ | ⟨st, hrun, -⟩
        · rw [hsl] at hrun
          cases hrun
          dsimp only at hstepping
          have hlimit := (hstepping.countP_le fun hlim => by
            obtain ⟨k, _, hk⟩ := hlim
            omega).2
          refine ⟨regs, c1', ex, rfl, .inl ⟨post, stop, _, rfl, by rw [hpost, htr2], hstepping,
            hcount, fun k hk => by simpa using hlimit k hk, hmoves, outs, pc, hit,
            published_of_append ?_⟩⟩
          simp only [Array.toList_push]
          rw [hev]
          simp
        · rw [hsl] at hrun
          cases hrun

/-- A source-level step stops at its first exit. From an open, stopped session over a link at
rest, with a well-formed store and every armed breakpoint at a mapped address, a step given
`fuel` records some exchanges. When none of them is a failure, they are the register read of the
program counter `regs.pc` for `thread`, then one of two things. Either the single steps
`Stepping` describes, at most `fuel + 1` of them and at most `max k 1` under a limit `k`, and
requests that let the target run no further: the step returns the stop `Stepping` ends with, its
thread defaulting to `thread`, publishes the program output, one `stopped` for that stop and one
`stepFinished`, and ends the same way with more fuel. Or `fuel + 1` rounds that all went on,
which under a limit `k` leaves `fuel + 1` below `max k 1`: the step fails with `outOfFuel`. -/
theorem step_stops_at_first_exit (hopen : s.state = .opened) (hr : s.running = false)
    (hc : s.host = some c) (hq : Quiet c.link) (hwf : s.breakpoints.WellFormed)
    (hmapped : ∀ b ∈ s.breakpoints.entries, b.state = .armed →
      c.link.transport.mapped b.address = true)
    (thread : Option ThreadId) (position : Address → Option SourcePosition) (fuel : Nat) :
    ∃ new c', (endState (step thread position fuel s)).host = some c' ∧
      c'.link.transport.transcript = c.link.transport.transcript ++ new ∧
      ((∀ q ∈ new, ¬ StepFailure q) →
        ∃ regs c1 ex, Client.readRegisters thread c = .ok regs c1 ∧
          ((∃ post stop s', step thread position fuel s =
                .ok { stop with thread := stop.thread <|> thread } s' ∧
              (∀ k, step thread position (fuel + k) s = step thread position fuel s) ∧
              c'.link.transport.transcript = c1.link.transport.transcript ++ ex ++ post ∧
              Stepping s.config s.breakpoints.find? (position regs.pc) position 0 regs.pc ex stop ∧
              ex.countP (·.1 == Client.text "s") ≤ fuel + 1 ∧
              (∀ k, s.config.maxStepInstructions = some k →
                ex.countP (·.1 == Client.text "s") ≤ max k.toNat 1) ∧
              (∀ q ∈ post, ¬ Moves q.1) ∧
              ∃ (outs : List String) (pc : Option Address) (hit : Option UInt64),
                published s s' = outs.map .output ++
                  [.stopped stop.reason (stop.thread <|> thread) pc hit,
                    .stepFinished (stop.thread <|> thread)]) ∨
            (c'.link.transport.transcript = c1.link.transport.transcript ++ ex ∧
              Going s.config s.breakpoints.find? (position regs.pc) position 0 regs.pc ex (fuel + 1) ∧
              (∀ k, s.config.maxStepInstructions = some k → fuel + 1 < max k.toNat 1) ∧
              ∃ s', step thread position fuel s =
                .error (.outOfFuel "stepping one source line") s'))) := by
  obtain ⟨new, c', hhost, htr, hrest⟩ := step_run hopen hr hc hq hwf hmapped thread position fuel
  refine ⟨new, c', hhost, htr, fun hok => ?_⟩
  obtain ⟨regs, c1, ex, hregs, hcases⟩ := hrest hok
  -- a step that ended keeps its end with more fuel
  refine ⟨regs, c1, ex, hregs, hcases.imp (fun hended => ?_) id⟩
  obtain ⟨post, stop, s', hrun, hfacts⟩ := hended
  exact ⟨post, stop, s', hrun, fun k => (step_add_fuel hrun k).trans hrun.symm, hfacts⟩

end Step

/-- A session opened on `trapNetwork` whose source-level steps take at most three single steps. -/
def limitedSession : RemoteSession (RecordingStub Unit) :=
  endState («open» trapNetwork "127.0.0.1:1" (new { maxStepInstructions := some 3 }))

theorem step_stops_at_first_exit_limitedSession :
    ∃ c, limitedSession.host = some c ∧
    ∃ new c', (endState (step none (fun _ => some ⟨"main.c", 1, 0⟩) 2 limitedSession)).host = some c' ∧
      c'.link.transport.transcript = c.link.transport.transcript ++ new ∧
      ((∀ q ∈ new, ¬ StepFailure q) →
        ∃ regs c1 ex, Client.readRegisters none c = .ok regs c1 ∧
          ((∃ post stop s', step none (fun _ => some ⟨"main.c", 1, 0⟩) 2 limitedSession =
                .ok { stop with thread := stop.thread <|> none } s' ∧
              (∀ k, step none (fun _ => some ⟨"main.c", 1, 0⟩) (2 + k) limitedSession =
                step none (fun _ => some ⟨"main.c", 1, 0⟩) 2 limitedSession) ∧
              c'.link.transport.transcript = c1.link.transport.transcript ++ ex ++ post ∧
              Stepping limitedSession.config limitedSession.breakpoints.find? (some ⟨"main.c", 1, 0⟩)
                (fun _ => some ⟨"main.c", 1, 0⟩) 0 regs.pc ex stop ∧
              ex.countP (·.1 == Client.text "s") ≤ 2 + 1 ∧
              (∀ k, limitedSession.config.maxStepInstructions = some k →
                ex.countP (·.1 == Client.text "s") ≤ max k.toNat 1) ∧
              (∀ q ∈ post, ¬ Moves q.1) ∧
              ∃ (outs : List String) (pc : Option Address) (hit : Option UInt64),
                published limitedSession s' = outs.map .output ++
                  [.stopped stop.reason (stop.thread <|> none) pc hit,
                    .stepFinished (stop.thread <|> none)]) ∨
            (c'.link.transport.transcript = c1.link.transport.transcript ++ ex ∧
              Going limitedSession.config limitedSession.breakpoints.find? (some ⟨"main.c", 1, 0⟩)
                (fun _ => some ⟨"main.c", 1, 0⟩) 0 regs.pc ex (2 + 1) ∧
              (∀ k, limitedSession.config.maxStepInstructions = some k → 2 + 1 < max k.toNat 1) ∧
              ∃ s', step none (fun _ => some ⟨"main.c", 1, 0⟩) 2 limitedSession =
                .error (.outOfFuel "stepping one source line") s'))) := by
  obtain ⟨c, hc⟩ := Option.isSome_iff_exists.1 (by decide +kernel : limitedSession.host.isSome = true)
  have hq : (limitedSession.host.map fun c => decide (Quiet c.link)) = some true := by decide +kernel
  have hmapped : (limitedSession.host.map fun c => decide (∀ b ∈ limitedSession.breakpoints.entries,
      b.state = .armed → c.link.transport.mapped b.address = true)) = some true := by decide +kernel
  rw [hc] at hq hmapped
  simp only [Option.map_some, Option.some.injEq, decide_eq_true_eq] at hq hmapped
  exact ⟨c, hc, step_stops_at_first_exit (by decide +kernel) (by decide +kernel) hc hq
    ⟨by decide +kernel, by decide +kernel, by decide +kernel⟩ hmapped none _ 2⟩

/-- On one line the limit ends the step: three single steps. -/
example : ((endState (step none (fun _ => some ⟨"main.c", 1, 0⟩) 2 limitedSession)).host.map
    fun c => c.link.transport.transcript.countP (·.1 == Client.text "s")) = some 3 := by
  decide +kernel

/-- Without a position at the start, one instruction runs. -/
example : ((endState (step none (fun _ => none) 0 limitedSession)).host.map
    fun c => c.link.transport.transcript.countP (·.1 == Client.text "s")) = some 1 := by
  decide +kernel

end RemoteSession

end RemoteDebugger
