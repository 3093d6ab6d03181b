import RemoteDebugger.Proofs.Remote.SessionPackets
import RemoteDebugger.Proofs.Remote.FailedUpdates

/-!
# Stepping over a breakpoint

The instruction under an armed breakpoint runs exactly once with its saved byte in place before
the target runs on: a continue and every single step of a source-level step bracket it, as the
transcript of a `RecordingStub` shows.
-/

namespace RemoteDebugger

variable {σ : Type}

/-- What a run returns, if it succeeds. -/
def valueOf {ε s α : Type} : EStateM.Result ε s α → Option α
  | .ok a _ => some a
  | .error _ _ => none

/-- The requests, with their answers, that run the instruction under an armed breakpoint at `x`
whose saved byte is `o`, when the single step is answered `rs`: the saved byte goes back, one
instruction runs, and the trap goes back unless the target did not live through the step. -/
def overBreakpoint (x : Address) (o : UInt8) (rs : Option (List UInt8)) :
    List (List UInt8 × Option (List UInt8)) :=
  [(writeRequest x [o], some okReply), (Client.text "s", rs)] ++
    if (stopOf rs).all (·.reason.isAlive) then [(writeRequest x [trapInstruction], some okReply)]
    else []

/-- The requests that run one instruction from `pc`, with the breakpoints `find` gives: a step
over the breakpoint when an armed one sits at `pc`, a plain single step otherwise. -/
def stepPackets (find : Address → Option Breakpoint) (pc : Address) (rs : Option (List UInt8)) :
    List (List UInt8 × Option (List UInt8)) :=
  (find pc).elim [(Client.text "s", rs)] fun b =>
    if b.isArmed then overBreakpoint pc b.savedByte rs else [(Client.text "s", rs)]

/-- What a source-level step sends after a single step: nothing more, or a read of the registers
and a single step from the program counter they give, and so on. -/
inductive Rounds (find : Address → Option Breakpoint) :
    List (List UInt8 × Option (List UInt8)) → Prop
  | done : Rounds find []
  | next {ans : Option (List UInt8)} {regs : Registers} {rs : Option (List UInt8)}
      {rest : List (List UInt8 × Option (List UInt8))} :
      registersOf ans = some regs → Rounds find rest →
      Rounds find ((Client.text "g", ans) :: stepPackets find regs.pc rs ++ rest)

theorem stepPackets_armed {find : Address → Option Breakpoint} {x : Address} {b : Breakpoint}
    (hb : find x = some b) (harmed : b.state = .armed) (rs : Option (List UInt8)) :
    stepPackets find x rs = overBreakpoint x b.savedByte rs := by
  simp [stepPackets, hb, Breakpoint.isArmed, harmed]

theorem stepPackets_of_not_armed {find : Address → Option Breakpoint} {pc : Address}
    (h : (find pc).any (·.isArmed) = false) (rs : Option (List UInt8)) :
    stepPackets find pc rs = [(Client.text "s", rs)] := by
  cases hb : find pc <;> simp_all [stepPackets]

/-- Lifting an armed breakpoint's trap and writing it back leaves the store looking up as
before. -/
theorem find?_rearm {st : BreakpointStore} {x : Address} {b : Breakpoint} (hb : st.find? x = some b)
    (harmed : b.state = .armed) :
    ((st.setState x .suspended).1.setState x .armed).1.find? = st.find? := by
  funext y
  by_cases hy : y = x
  · subst hy
    obtain ⟨id, address, kind, state, hits, saved⟩ := b
    simp only at harmed
    subst harmed
    simp [BreakpointStore.find?_setState, hb]
  · simp [BreakpointStore.find?_setState, hy]

/-- What a round of a source-level step sends after its single step, answered `rs`, and how the
round ends, `none` for a failure: nothing more after a failed single step or a stop other than the
trap, and after the trap a read of the registers, from whose program counter the step goes on or
with which it ends. -/
inductive RoundEnds (cfg : SessionConfig) (start : Option SourcePosition)
    (position : Address → Option SourcePosition) (executed : Nat) (rs : Option (List UInt8)) :
    List (List UInt8 × Option (List UInt8)) → Option RemoteSession.StepRound → Prop
  | failed : stopOf rs = none → RoundEnds cfg start position executed rs [] none
  | other {stop : StopEvent} : stopOf rs = some stop → stop.reason ≠ .signal cfg.trapSignal →
      RoundEnds cfg start position executed rs [] (some (.ends stop))
  | unread {stop : StopEvent} {ans : Option (List UInt8)} : stopOf rs = some stop →
      stop.reason = .signal cfg.trapSignal → registersOf ans = none →
      RoundEnds cfg start position executed rs [(Client.text "g", ans)] none
  | read {stop : StopEvent} {ans : Option (List UInt8)} {regs : Registers} : stopOf rs = some stop →
      stop.reason = .signal cfg.trapSignal → registersOf ans = some regs →
      RoundEnds cfg start position executed rs [(Client.text "g", ans)]
        (some (if RemoteSession.stepGoesOn cfg start position (executed + 1) regs.pc then
          .goesOn regs.pc else .ends stop))

namespace RoundEnds

variable {cfg : SessionConfig} {start : Option SourcePosition}
  {position : Address → Option SourcePosition} {executed : Nat} {rs : Option (List UInt8)}
  {more : List (List UInt8 × Option (List UInt8))}

/-- After the single step a round sends at most a read of the registers. -/
theorem not_moves {r : Option RemoteSession.StepRound}
    (h : RoundEnds cfg start position executed rs more r) : ∀ q ∈ more, ¬ Moves q.1 := by
  cases h <;> simp [RecordingStub.text_g_not_moves]

/-- A single step the target did not live through ends the round with its stop, and nothing
more is sent. -/
theorem dead {r : Option RemoteSession.StepRound} (h : RoundEnds cfg start position executed rs more r)
    (hdead : (stopOf rs).all (·.reason.isAlive) = false) :
    more = [] ∧ ∃ stop, stopOf rs = some stop ∧ r = some (.ends stop) := by
  cases h with
  | failed hs => simp [hs] at hdead
  | other hs _ => exact ⟨rfl, _, hs, rfl⟩
  | unread hs htrap _ | read hs htrap _ => simp [hs, htrap, StopReason.isAlive] at hdead

/-- A round goes on only after the trap, from the program counter of the registers it read. -/
theorem goesOn {r : Option RemoteSession.StepRound} {pc : Address}
    (h : RoundEnds cfg start position executed rs more r) (hr : r = some (.goesOn pc)) :
    ∃ stop ans regs, stopOf rs = some stop ∧ stop.reason = .signal cfg.trapSignal ∧
      registersOf ans = some regs ∧ more = [(Client.text "g", ans)] ∧ regs.pc = pc ∧
      RemoteSession.stepGoesOn cfg start position (executed + 1) regs.pc = true := by
  cases h with
  | failed | unread => cases hr
  | other => cases hr
  | @read stop ans regs hs htrap hregs =>
    by_cases hg : RemoteSession.stepGoesOn cfg start position (executed + 1) regs.pc = true
    · rw [if_pos hg] at hr
      cases hr
      exact ⟨stop, ans, regs, hs, htrap, hregs, rfl, rfl, hg⟩
    · rw [if_neg hg] at hr
      cases hr

/-- A round ends the step with a stop other than the trap and nothing more, or with the trap and
a read of registers from which the step does not go on. -/
theorem ends {r : Option RemoteSession.StepRound} {stop : StopEvent}
    (h : RoundEnds cfg start position executed rs more r) (hr : r = some (.ends stop)) :
    stopOf rs = some stop ∧
      ((stop.reason ≠ .signal cfg.trapSignal ∧ more = []) ∨
        (stop.reason = .signal cfg.trapSignal ∧ ∃ ans regs, registersOf ans = some regs ∧
          more = [(Client.text "g", ans)] ∧
          RemoteSession.stepGoesOn cfg start position (executed + 1) regs.pc = false)) := by
  cases h with
  | failed | unread => cases hr
  | other hs hother =>
    cases hr
    exact ⟨hs, .inl ⟨hother, rfl⟩⟩
  | @read stop' ans regs hs htrap hregs =>
    by_cases hg : RemoteSession.stepGoesOn cfg start position (executed + 1) regs.pc = true
    · rw [if_pos hg] at hr
      cases hr
    · rw [if_neg hg] at hr
      cases hr
      exact ⟨hs, .inr ⟨htrap, ans, regs, hregs, rfl, by simpa using hg⟩⟩

/-- A round fails at its single step, answered without a stop, or at the read of the registers
after the trap, answered without registers. -/
theorem fails {r : Option RemoteSession.StepRound}
    (h : RoundEnds cfg start position executed rs more r) (hr : r = none) :
    (stopOf rs = none ∧ more = []) ∨ ∃ ans, registersOf ans = none ∧ more = [(Client.text "g", ans)] := by
  cases h with
  | failed hs => exact .inl ⟨hs, rfl⟩
  | unread _ _ hregs => exact .inr ⟨_, hregs, rfl⟩
  | other | read => cases hr

end RoundEnds

namespace RemoteSession

open RecordingStub

/-! ## Taking in a stop the target did not live through -/

section Store

variable {τ : Type} {α β : Type}

/-- A session operation that leaves the breakpoint store as it was, whether it succeeds or
fails. -/
def KeepsStore (m : SessionM τ α) : Prop := ∀ s, (endState (m s)).breakpoints = s.breakpoints

theorem keepsStore_pure (a : α) : KeepsStore (pure a : SessionM τ α) := fun _ => rfl

theorem keepsStore_get : KeepsStore (get : SessionM τ _) := fun _ => rfl

theorem keepsStore_publish (e : SessionEvent) : KeepsStore (publish e : SessionM τ _) := fun _ => rfl

theorem keepsStore_onHost [Transport τ] (m : ClientM τ α) : KeepsStore (onHost m) := by
  intro s
  cases hs : s.host with
  | none => simp [onHost, hs, endState]
  | some c =>
    rw [onHost_apply hs]
    cases m c <;> rfl

theorem keepsStore_bind {m : SessionM τ α} {f : α → SessionM τ β} (hm : KeepsStore m)
    (hf : ∀ a, KeepsStore (f a)) : KeepsStore (m >>= f) := by
  intro s
  have h0 := hm s
  rw [bind_apply]
  cases h : m s with
  | ok a s1 =>
    rw [h] at h0
    exact (hf a s1).trans h0
  | error e s1 =>
    rw [h] at h0
    exact h0

theorem keepsStore_ite {p : Prop} [Decidable p] {m m' : SessionM τ α} (hm : KeepsStore m)
    (hm' : KeepsStore m') : KeepsStore (if p then m else m') := by
  split
  · exact hm
  · exact hm'

theorem keepsStore_forIn {γ : Type} (xs : List γ) (f : γ → PUnit → SessionM τ (ForInStep PUnit))
    (hf : ∀ x, KeepsStore (f x ⟨⟩)) : KeepsStore (forIn xs ⟨⟩ f) := by
  induction xs with
  | nil => exact keepsStore_pure _
  | cons x xs ih =>
    rw [List.forIn_cons]
    refine keepsStore_bind (hf x) fun r => ?_
    cases r with
    | done u => exact keepsStore_pure _
    | yield u => exact ih

/-- What follows an operation and keeps the store leaves the store that operation left. -/
theorem breakpoints_bind_keeps {m : SessionM τ α} {f : α → SessionM τ β} (hf : ∀ a, KeepsStore (f a))
    (s : RemoteSession τ) : (endState ((m >>= f) s)).breakpoints = (endState (m s)).breakpoints := by
  rw [bind_apply]
  cases m s with
  | ok a s1 => exact hf a s1
  | error e s1 => rfl

/-- After a stop the target did not live through, every temporary breakpoint is forgotten and
the rest of the store is kept. -/
theorem handleStop_dead [Transport τ] (s : RemoteSession τ) {stop : StopEvent} (hdead : stop.reason.isAlive = false)
    (resumed : Bool) :
    (endState (handleStop stop resumed s)).breakpoints =
      s.breakpoints.temporaries.foldl (fun st a => (st.removeAt a).1) s.breakpoints := by
  -- what follows the breakpoints passes on the output and announces the stop
  have hannounce : ∀ x : Option Address × Option UInt64, KeepsStore (do
      let s ← get
      if s.host.isSome = true then do
        let output ← onHost Client.takeOutput
        forIn output PUnit.unit fun text _ => do
          publish (SessionEvent.output text)
          pure (ForInStep.yield PUnit.unit)
        publish (SessionEvent.stopped stop.reason stop.thread x.1 x.2)
      else do
        let output ← pure []
        forIn output PUnit.unit fun text _ => do
          publish (SessionEvent.output text)
          pure (ForInStep.yield PUnit.unit)
        publish (SessionEvent.stopped stop.reason stop.thread x.1 x.2) : SessionM τ Unit) := by
    have hpublish : ∀ (output : List String) (pc : Option Address) (hit : Option UInt64),
        KeepsStore (do
          forIn output PUnit.unit fun text _ => do
            publish (SessionEvent.output text)
            pure (ForInStep.yield PUnit.unit)
          publish (SessionEvent.stopped stop.reason stop.thread pc hit) : SessionM τ Unit) :=
      fun output pc hit => keepsStore_bind (keepsStore_forIn _ _ fun text =>
        keepsStore_bind (keepsStore_publish _) fun _ => keepsStore_pure _) fun _ => keepsStore_publish _
    intro x
    refine keepsStore_bind keepsStore_get fun s => keepsStore_ite ?_ ?_
    · exact keepsStore_bind (keepsStore_onHost _) fun output => hpublish output _ _
    · exact keepsStore_bind (keepsStore_pure _) fun output => hpublish output _ _
  have hloop := forIn_yield s.breakpoints.temporaries
    (fun a (_ : PUnit) => (discard (onStore fun x => x.removeAt a) >>= fun _ =>
      pure (ForInStep.yield PUnit.unit) : SessionM τ (ForInStep PUnit)))
    (fun a s => { s with breakpoints := (s.breakpoints.removeAt a).1 }) (fun _ => True)
    (fun a t _ => ⟨by simp only [bind_apply, discard_apply, onStore_apply]; rfl, trivial⟩)
    { s with running := false, lastStop := some stop } trivial
  rw [foldl_breakpoints fun st a => (st.removeAt a).1] at hloop
  unfold handleStop
  rw [bind_apply]
  simp only [modify, modifyGet, MonadStateOf.modifyGet, EStateM.modifyGet]
  rw [if_neg (by simp [hdead]), bind_apply, get_apply]
  dsimp only
  rw [bind_apply, hloop]
  exact keepsStore_bind (keepsStore_pure _) hannounce _

/-- The open-and-stopped check passes on an open session with a connection whose target is not
running. -/
theorem ensureStopped_ok {s : RemoteSession τ} {c : Client τ} (hopen : s.state = .opened)
    (hc : s.host = some c) (hr : s.running = false) : ensureStopped s = .ok () s := by
  simp [ensureStopped, ensureOpen, bind_apply, get_apply, hopen, hc, hr, pure, EStateM.pure]

end Store

/-! ## Lifting and re-arming one trap -/

section Traps

variable {s : RemoteSession (RecordingStub σ)} {c : Client (RecordingStub σ)} {x : Address}

/-- Lifting an armed trap at a mapped address: one write of the saved byte, accepted. -/
theorem disarm_run (hc : s.host = some c) (hq : Quiet c.link) {b : Breakpoint}
    (hb : s.breakpoints.find? x = some b) (harmed : b.state = .armed)
    (hx : c.link.transport.mapped x = true) :
    disarm x s = .ok () { s with
      host := some (c.withTransport (c.link.transport.handle (writeRequest x [b.savedByte]))),
      breakpoints := (s.breakpoints.setState x .suspended).1 } := by
  have hw := writeMemory_piece hq x (List.cons_ne_nil b.savedByte []) (by simp [maxMemoryChunk])
  rw [if_pos (by simpa [allMapped_one] using hx)] at hw
  simp only [disarm, bind_apply, get_apply, hb, harmed, if_true, onHost_apply hc, hw,
    discard_apply, onStore_apply]

/-- Writing the trap back over a suspended breakpoint at a mapped address: one write, accepted. -/
theorem arm_run (hc : s.host = some c) (hq : Quiet c.link) {b : Breakpoint}
    (hb : s.breakpoints.find? x = some b) (hsusp : b.state = .suspended)
    (hx : c.link.transport.mapped x = true) :
    arm x s = .ok () { s with
      host := some (c.withTransport (c.link.transport.handle (writeRequest x [trapInstruction]))),
      breakpoints := (s.breakpoints.setState x .armed).1 } := by
  have hw := writeMemory_piece hq x (List.cons_ne_nil trapInstruction []) (by simp [maxMemoryChunk])
  rw [if_pos (by simpa [allMapped_one] using hx)] at hw
  have hany : (s.breakpoints.find? x).any (·.state == .suspended) = true := by simp [hb, hsusp]
  simp only [arm, bind_apply, get_apply, hany, if_true, onHost_apply hc, hw, discard_apply,
    onStore_apply]

/-- A write the stub accepts is recorded with `OK`. -/
theorem answer_writeRequest_mapped (t : RecordingStub σ) {a : UInt64} {byte : UInt8}
    (ha : t.mapped a = true) : (t.answer (writeRequest a [byte])).2 = some okReply := by
  simp [answer_writeRequest, allMapped_one, ha]

/-- Stepping over an armed breakpoint at a mapped address, from a quiet link: the saved byte is
written, one single step goes out, and the trap is written again unless the target did not live
through the step. The breakpoint ends armed again, or suspended after such a step; the stop
the step reports is the result. -/
theorem stepOverBreakpoint_run (hc : s.host = some c) (hq : Quiet c.link) {b : Breakpoint}
    (hb : s.breakpoints.find? x = some b) (harmed : b.state = .armed)
    (hx : c.link.transport.mapped x = true) :
    ∃ rs c' st, Quiet c'.link ∧ c'.link.transport.mapped = c.link.transport.mapped ∧
      c'.link.transport.transcript = c.link.transport.transcript ++ overBreakpoint x b.savedByte rs ∧
      endState (stepOverBreakpoint x s) = { s with host := some c', breakpoints := st } ∧
      st = (if (stopOf rs).all (·.reason.isAlive) then
        ((s.breakpoints.setState x .suspended).1.setState x .armed).1
        else (s.breakpoints.setState x .suspended).1) ∧
      valueOf (stepOverBreakpoint x s) = stopOf rs := by
  -- the session with the saved byte written back and the breakpoint suspended
  obtain ⟨c1, hc1⟩ : ∃ c1, c1 = c.withTransport (c.link.transport.handle (writeRequest x [b.savedByte])) :=
    ⟨_, rfl⟩
  have hq1 : Quiet c1.link := hc1 ▸ quiet_handle hq _
  have hx1 : c1.link.transport.mapped x = true := by rw [hc1]; simpa [Client.withTransport] using hx
  have hb1 : (s.breakpoints.setState x .suspended).1.find? x = some { b with state := .suspended } := by
    simp [BreakpointStore.find?_setState, hb]
  have ht1 : c1.link.transport.transcript =
      c.link.transport.transcript ++ [(writeRequest x [b.savedByte], some okReply)] := by
    rw [hc1]
    simp [Client.withTransport, answer_writeRequest_mapped _ hx]
  obtain ⟨c2, hq2, ht2, hstep⟩ := singleStep_run hq1
  obtain ⟨rs, hrs⟩ : ∃ rs, rs = (c1.link.transport.answer (Client.text "s")).2 := ⟨_, rfl⟩
  rw [← hrs] at hstep
  have hx2 : c2.link.transport.mapped x = true := by rw [ht2]; simpa using hx1
  have htr2 : c2.link.transport.transcript =
      c.link.transport.transcript ++ [(writeRequest x [b.savedByte], some okReply), (Client.text "s", rs)] := by
    rw [ht2, handle_transcript, ht1, ← hrs]
    simp
  have hmap2 : c2.link.transport.mapped = c.link.transport.mapped := by
    rw [ht2, handle_mapped, hc1]
    simp [Client.withTransport]
  -- after a step the target lived through, the trap goes back
  have hrearm : ∀ t : RemoteSession (RecordingStub σ), t.host = some c2 →
      t.breakpoints = (s.breakpoints.setState x .suspended).1 →
      arm x t = .ok () { t with
        host := some (c2.withTransport (c2.link.transport.handle (writeRequest x [trapInstruction]))),
        breakpoints := ((s.breakpoints.setState x .suspended).1.setState x .armed).1 } := by
    intro t ht hbt
    rw [arm_run ht hq2 (by rw [hbt]; exact hb1) rfl hx2, hbt]
  have hc3 : Quiet (c2.withTransport (c2.link.transport.handle (writeRequest x [trapInstruction]))).link :=
    quiet_handle hq2 _
  have ht3 : (c2.withTransport (c2.link.transport.handle (writeRequest x [trapInstruction]))).link.transport.transcript =
      c2.link.transport.transcript ++ [(writeRequest x [trapInstruction], some okReply)] := by
    simp [Client.withTransport, answer_writeRequest_mapped _ hx2]
  have hmap3 : (c2.withTransport (c2.link.transport.handle (writeRequest x [trapInstruction]))).link.transport.mapped =
      c.link.transport.mapped := by
    simp [Client.withTransport, hmap2]
  have hdisarm := disarm_run hc hq hb harmed hx
  rw [← hc1] at hdisarm
  unfold stepOverBreakpoint
  rw [bind_apply, hdisarm]
  dsimp only
  rw [bind_apply, attempt_onHost rfl]
  cases hs : stopOf rs with
  | some stop =>
    rw [hs] at hstep
    rw [hstep]
    dsimp only
    by_cases halive : stop.reason.isAlive = true
    · rw [if_pos halive, bind_apply, hrearm _ rfl rfl]
      refine ⟨rs, _, _, hc3, hmap3, ?_, rfl, by simp [hs, halive], ?_⟩
      · rw [ht3, htr2]
        simp [overBreakpoint, hs, halive]
      · simp [valueOf, hs, pure, EStateM.pure]
    · rw [if_neg halive]
      refine ⟨rs, c2, _, hq2, hmap2, ?_, rfl, by simp [hs, halive], ?_⟩
      · rw [htr2]
        simp [overBreakpoint, hs, halive]
      · simp [valueOf, hs, pure, EStateM.pure]
  | none =>
    rw [hs] at hstep
    obtain ⟨err, herr⟩ := hstep
    rw [herr]
    dsimp only
    rw [if_pos rfl, bind_apply, hrearm _ rfl rfl]
    refine ⟨rs, _, _, hc3, hmap3, ?_, rfl, by simp [hs], ?_⟩
    · rw [ht3, htr2]
      simp [overBreakpoint, hs]
    · simp [valueOf, hs, throw, throwThe, MonadExceptOf.throw, EStateM.throw]

/-- One instruction from `pc`: stepped over the breakpoint there when it is armed, a plain single
step otherwise. While the target lives through the step, the store looks up as before. -/
theorem stepInstruction_run (hc : s.host = some c) (hq : Quiet c.link) (pc : Address)
    (hmapped : ∀ y b, s.breakpoints.find? y = some b → b.state = .armed →
      c.link.transport.mapped y = true) :
    ∃ rs c' st, Quiet c'.link ∧ c'.link.transport.mapped = c.link.transport.mapped ∧
      c'.link.transport.transcript =
        c.link.transport.transcript ++ stepPackets s.breakpoints.find? pc rs ∧
      endState (stepInstruction pc s) = { s with host := some c', breakpoints := st } ∧
      ((stopOf rs).all (·.reason.isAlive) = true → st.find? = s.breakpoints.find?) ∧
      ((stopOf rs).all (·.reason.isAlive) = false → st = if s.breakpoints.isArmedAt pc then
        (s.breakpoints.setState pc .suspended).1 else s.breakpoints) ∧
      valueOf (stepInstruction pc s) = stopOf rs := by
  unfold stepInstruction
  rw [bind_apply, get_apply]
  dsimp only
  split
  · next harmedAt =>
    obtain ⟨b, hb, harmed⟩ : ∃ b, s.breakpoints.find? pc = some b ∧ b.state = .armed := by
      cases hb : s.breakpoints.find? pc with
      | none => simp [BreakpointStore.isArmedAt, hb] at harmedAt
      | some b =>
        refine ⟨b, rfl, ?_⟩
        simpa [BreakpointStore.isArmedAt, hb, Breakpoint.isArmed] using harmedAt
    obtain ⟨rs, c', st, hq', hmap', htr, hend, hst, hval⟩ := stepOverBreakpoint_run hc hq hb harmed
      (hmapped pc b hb harmed)
    refine ⟨rs, c', st, hq', hmap', by rw [htr, stepPackets_armed hb harmed], hend, ?_, ?_, hval⟩
    · intro halive
      rw [hst, if_pos halive]
      exact find?_rearm hb harmed
    · intro hdead
      rw [hst, if_neg (by rw [hdead]; decide)]
  · next hnot =>
    obtain ⟨c', hq', ht', hstep⟩ := singleStep_run hq
    have htr : c'.link.transport.transcript = c.link.transport.transcript ++
        stepPackets s.breakpoints.find? pc (c.link.transport.answer (Client.text "s")).2 := by
      rw [stepPackets_of_not_armed (by simpa [BreakpointStore.isArmedAt] using hnot), ht',
        handle_transcript]
    refine ⟨_, c', s.breakpoints, hq', by rw [ht', handle_mapped], htr, ?_, fun _ => rfl,
      fun _ => rfl, ?_⟩
    · rw [onHost_apply hc]
      split at hstep
      · rw [hstep]
        rfl
      · obtain ⟨err, herr⟩ := hstep
        rw [herr]
        rfl
    · rw [onHost_apply hc]
      split at hstep
      · next e he =>
        rw [hstep]
        exact he.symm
      · next he =>
        obtain ⟨err, herr⟩ := hstep
        rw [herr]
        exact he.symm

/-- One round of a source-level step from `pc`: its single step as `stepPackets` has it, then
what `RoundEnds` allows. While the target lives through the step, the store looks up as before. -/
theorem stepRound_run (hc : s.host = some c) (hq : Quiet c.link)
    (hmapped : ∀ y b, s.breakpoints.find? y = some b → b.state = .armed →
      c.link.transport.mapped y = true)
    (start : Option SourcePosition) (position : Address → Option SourcePosition) (pc : Address)
    (executed : Nat) :
    ∃ rs more c' st, Quiet c'.link ∧ c'.link.transport.mapped = c.link.transport.mapped ∧
      c'.link.transport.transcript =
        c.link.transport.transcript ++ stepPackets s.breakpoints.find? pc rs ++ more ∧
      endState (stepRound start position pc executed s) = { s with host := some c', breakpoints := st } ∧
      ((stopOf rs).all (·.reason.isAlive) = true → st.find? = s.breakpoints.find?) ∧
      ((stopOf rs).all (·.reason.isAlive) = false → st = if s.breakpoints.isArmedAt pc then
        (s.breakpoints.setState pc .suspended).1 else s.breakpoints) ∧
      RoundEnds s.config start position executed rs more
        (valueOf (stepRound start position pc executed s)) := by
  obtain ⟨rs, c1, st1, hq1, hmap1, htr1, hend1, hfind1, hdead1, hval1⟩ :=
    stepInstruction_run hc hq pc hmapped
  unfold stepRound
  rw [bind_apply]
  cases hsi : stepInstruction pc s with
  | error e s1 =>
    rw [hsi] at hend1 hval1
    simp only [endState] at hend1
    subst hend1
    exact ⟨rs, [], c1, st1, hq1, hmap1, by rw [htr1, List.append_nil], rfl, hfind1, hdead1,
      .failed hval1.symm⟩
  | ok stop s1 =>
    rw [hsi] at hend1 hval1
    simp only [endState] at hend1
    simp only [valueOf] at hval1
    subst hend1
    dsimp only
    rw [bind_apply, get_apply]
    dsimp only
    cases htrap : RemoteSession.isTrap { s with host := some c1, breakpoints := st1 } stop with
    | false =>
      -- a stop other than the trap ends the round
      have hother : stop.reason ≠ .signal s.config.trapSignal := fun h => by
        simp [RemoteSession.isTrap, h] at htrap
      exact ⟨rs, [], c1, st1, hq1, hmap1, by rw [htr1, List.append_nil], rfl, hfind1, hdead1,
        .other hval1.symm hother⟩
    | true =>
      have htrapR : stop.reason = .signal s.config.trapSignal := by
        simpa [RemoteSession.isTrap] using htrap
      simp only [Bool.not_true, Bool.false_eq_true, if_false]
      rw [bind_apply, onHost_apply rfl]
      -- the registers are read once, over the link the single step left
      obtain ⟨ans, hans⟩ : ∃ ans, ans = (c1.link.transport.answer (Client.text "g")).2 := ⟨_, rfl⟩
      obtain ⟨c2, hc2⟩ : ∃ c2, c2 = c1.withTransport (c1.link.transport.handle (Client.text "g")) :=
        ⟨_, rfl⟩
      have hq2 : Quiet c2.link := hc2 ▸ quiet_handle hq1 _
      have hmap2 : c2.link.transport.mapped = c.link.transport.mapped := by
        rw [hc2, ← hmap1]
        simp [Client.withTransport]
      have htr2 : c2.link.transport.transcript = c.link.transport.transcript ++
          stepPackets s.breakpoints.find? pc rs ++ [(Client.text "g", ans)] := by
        rw [hc2, hans]
        simp [Client.withTransport, htr1]
      have hregs := readRegisters_run hq1
      rw [← hans, ← hc2] at hregs
      cases hr : registersOf ans with
      | none =>
        rw [hr] at hregs
        obtain ⟨err, herr⟩ := hregs
        rw [herr]
        exact ⟨rs, _, c2, st1, hq2, hmap2, htr2, rfl, hfind1, hdead1, .unread hval1.symm htrapR hr⟩
      | some regs =>
        rw [hr] at hregs
        rw [hregs]
        dsimp only
        have hread : RoundEnds s.config start position executed rs [(Client.text "g", ans)] _ :=
          .read hval1.symm htrapR hr
        refine ⟨rs, _, c2, st1, hq2, hmap2, htr2, ?_, hfind1, hdead1, ?_⟩
        · split <;> rfl
        · -- the round goes on exactly when the code's test says so
          by_cases hg : stepGoesOn s.config start position (executed + 1) regs.pc = true
          · rw [if_pos hg] at hread ⊢
            exact hread
          · rw [if_neg hg] at hread ⊢
            exact hread

/-- The rounds of a source-level step from `pc`: the first single step as `stepPackets` has it,
then rounds of a register read and a single step, then at most a register read. When the target
does not live through the first step, the loop ends with it. -/
theorem stepLoop_run (start : Option SourcePosition) (position : Address → Option SourcePosition)
    (fuel : Nat) : ∀ (pc : Address) (executed : Nat) (s : RemoteSession (RecordingStub σ))
      (c : Client (RecordingStub σ)), s.host = some c → Quiet c.link →
      (∀ y b, s.breakpoints.find? y = some b → b.state = .armed → c.link.transport.mapped y = true) →
      ∃ rs more c', Quiet c'.link ∧
        (endState (stepLoop start position fuel pc executed s)).host = some c' ∧
        c'.link.transport.transcript =
          c.link.transport.transcript ++ stepPackets s.breakpoints.find? pc rs ++ more ∧
        (∃ rounds rest, more = rounds ++ rest ∧ Rounds s.breakpoints.find? rounds ∧
          ∀ q ∈ rest, ¬ Moves q.1) ∧
        ((stopOf rs).all (·.reason.isAlive) = false → more = [] ∧
          valueOf (stepLoop start position fuel pc executed s) = (stopOf rs).map some ∧
          (endState (stepLoop start position fuel pc executed s)).breakpoints =
            if s.breakpoints.isArmedAt pc then (s.breakpoints.setState pc .suspended).1
            else s.breakpoints) := by
  -- the induction is on the fuel; each round reads the registers and starts again where they say
  induction fuel using Nat.strong_induction_on with
  | _ fuel ih =>
  intro pc executed s c hc hq hmapped
  obtain ⟨rs, more, c1, st1, hq1, hmap1, htr1, hend1, hfind1, hdead1, hends⟩ :=
    stepRound_run hc hq hmapped start position pc executed
  -- a round that ends the loop: what followed its single step is at most a register read
  have hlast : ∀ R : EStateM.Result DebugError (RemoteSession (RecordingStub σ)) (Option StopEvent),
      endState R = { s with host := some c1, breakpoints := st1 } →
      ((stopOf rs).all (·.reason.isAlive) = false → valueOf R = (stopOf rs).map some) →
      ∃ rs more c', Quiet c'.link ∧ (endState R).host = some c' ∧
        c'.link.transport.transcript =
          c.link.transport.transcript ++ stepPackets s.breakpoints.find? pc rs ++ more ∧
        (∃ rounds rest, more = rounds ++ rest ∧ Rounds s.breakpoints.find? rounds ∧
          ∀ q ∈ rest, ¬ Moves q.1) ∧
        ((stopOf rs).all (·.reason.isAlive) = false → more = [] ∧ valueOf R = (stopOf rs).map some ∧
          (endState R).breakpoints = if s.breakpoints.isArmedAt pc then
            (s.breakpoints.setState pc .suspended).1 else s.breakpoints) :=
    fun R hR hval => ⟨rs, more, c1, hq1, by rw [hR], htr1, ⟨[], more, rfl, .done, hends.not_moves⟩,
      fun hdead => ⟨(hends.dead hdead).1, hval hdead, by rw [hR]; exact hdead1 hdead⟩⟩
  rw [stepLoop, bind_apply]
  cases hround : stepRound start position pc executed s with
  | error e s1 =>
    rw [hround] at hend1 hends
    simp only [valueOf] at hends
    refine hlast _ hend1 fun hdead => ?_
    obtain ⟨-, stop, -, hr⟩ := hends.dead hdead
    cases hr
  | ok r s1 =>
    rw [hround] at hend1 hends
    simp only [endState] at hend1
    subst hend1
    simp only [valueOf] at hends
    cases r with
    | ends stop =>
      refine hlast _ rfl fun hdead => ?_
      obtain ⟨-, stop', hs, hr⟩ := hends.dead hdead
      cases hr
      rw [hs]
      rfl
    | goesOn pc' =>
      -- the round went on after the trap, from the program counter its register read gave
      obtain ⟨stop, ans, regs, hs, htrapR, hr, hmore, hpc, -⟩ := hends.goesOn rfl
      have halive : (stopOf rs).all (·.reason.isAlive) = true := by
        simp [hs, htrapR, StopReason.isAlive]
      have hnotdead : ∀ P : Prop, (stopOf rs).all (·.reason.isAlive) = false → P :=
        fun _ h => absurd h (by rw [halive]; decide)
      cases fuel with
      | zero => exact hlast _ rfl (hnotdead _)
      | succ n =>
        dsimp only
        subst hpc
        -- the next round starts from the same lookups, with the stub as the read left it
        have hfind := hfind1 halive
        have hmapped1 : ∀ y b, st1.find? y = some b → b.state = .armed →
            c1.link.transport.mapped y = true := by
          intro y b hb harmed
          rw [hmap1]
          exact hmapped y b (hfind ▸ hb) harmed
        obtain ⟨rs', more', c', hq', hend', htr', ⟨rounds, rest, hmore', hrounds, hrest⟩, -⟩ :=
          ih n (Nat.lt_succ_self n) regs.pc (executed + 1)
            { s with host := some c1, breakpoints := st1 } c1 rfl hq1 hmapped1
        simp only [hfind] at htr' hrounds
        refine ⟨rs, (Client.text "g", ans) :: stepPackets s.breakpoints.find? regs.pc rs' ++ more',
          c', hq', hend', ?_, ⟨(Client.text "g", ans) :: stepPackets s.breakpoints.find? regs.pc rs' ++
            rounds, rest, by simp [hmore'], .next hr hrounds, hrest⟩, hnotdead _⟩
        rw [htr', htr1, hmore]
        simp

end Traps

/-! ## Continue and step from an armed breakpoint -/

section FromBreakpoint

variable {s : RemoteSession (RecordingStub σ)} {c : Client (RecordingStub σ)} {x : Address}
  {b : Breakpoint}

/-- A read of the registers that gives `x` as the program counter. -/
theorem readRegisters_at {thread : Option ThreadId}
    (hpc : (valueOf (Client.readRegisters thread c)).map (·.pc) = some x) :
    ∃ regs c1, Client.readRegisters thread c = .ok regs c1 ∧ regs.pc = x := by
  cases h : Client.readRegisters thread c with
  | ok regs c1 =>
    rw [h] at hpc
    exact ⟨regs, c1, rfl, Option.some.inj hpc⟩
  | error e c1 =>
    rw [h] at hpc
    cases hpc

/-- Suspending the breakpoint at `x` and then forgetting every temporary breakpoint: a user
breakpoint there stays, suspended, and a temporary one is gone. -/
theorem find?_suspend_dropTemporaries {st : BreakpointStore} (hwf : st.WellFormed)
    (hb : st.find? x = some b) :
    ((st.setState x .suspended).1.temporaries.foldl (fun st a => (st.removeAt a).1)
      (st.setState x .suspended).1).find? x =
      if b.isTemporary then none else some { b with state := .suspended } := by
  rw [BreakpointStore.find?_dropTemporaries (BreakpointStore.wellFormed_setState hwf x _),
    BreakpointStore.find?_setState, if_pos rfl, hb]
  -- suspending a breakpoint keeps its kind
  cases h : b.isTemporary
  · have hk : ({ b with state := .suspended } : Breakpoint).isTemporary = false := h
    simp [Option.filter, hk]
  · have hk : ({ b with state := .suspended } : Breakpoint).isTemporary = true := h
    simp [Option.filter, hk]

/-- A continue from an armed breakpoint at the program counter steps over it first: after the
registers are read, the saved byte, one single step and, unless the target is gone, the trap go
out. A `c` follows only a trap stop, with the breakpoint armed again; any other stop is taken in
without letting the target run. After a step the target did not live through, a user breakpoint
stays suspended and a temporary one is forgotten. -/
theorem continueExecution_steps_over (hopen : s.state = .opened) (hr : s.running = false)
    (hc : s.host = some c) (hq : Quiet c.link) (hwf : s.breakpoints.WellFormed)
    (hb : s.breakpoints.find? x = some b) (harmed : b.state = .armed)
    (hx : c.link.transport.mapped x = true)
    (hpc : (valueOf (Client.readRegisters none c)).map (·.pc) = some x) :
    ∃ rs rest c', (endState (continueExecution s)).host = some c' ∧
      c'.link.transport.transcript = (endState (Client.readRegisters none c)).link.transport.transcript ++
        overBreakpoint x b.savedByte rs ++ rest ∧
      ((stopOf rs).any s.isTrap = true → (∃ r, rest = [(Client.text "c", r)]) ∧
        (endState (continueExecution s)).breakpoints.find? x = some b) ∧
      ((stopOf rs).any s.isTrap = false → ∀ q ∈ rest, ¬ Moves q.1) ∧
      ((stopOf rs).all (·.reason.isAlive) = false →
        (endState (continueExecution s)).breakpoints.find? x =
          if b.isTemporary then none else some { b with state := .suspended }) := by
  obtain ⟨regs, c1, hregs, hpcx⟩ := readRegisters_at hpc
  have hl1 : Leaves (¬ Moves ·) c c1 := by
    simpa [hregs, endState] using leaves_readRegisters hq none
  have harmedAt : s.breakpoints.isArmedAt x = true := by
    simp [BreakpointStore.isArmedAt, hb, Breakpoint.isArmed, harmed]
  obtain ⟨rs, c2, st2, hq2, hmap2, htr2, hend2, hst2, hval2⟩ :=
    stepOverBreakpoint_run (s := { s with host := some c1 }) rfl hl1.quiet hb harmed
      (by rw [hl1.mapped]; exact hx)
  have hpre : (endState (Client.readRegisters none c)).link.transport.transcript =
      c1.link.transport.transcript := by
    rw [hregs]
    rfl
  rw [hpre]
  unfold continueExecution
  rw [bind_apply, ensureStopped_ok hopen hc hr]
  dsimp only
  rw [bind_apply, onHost_apply hc, hregs]
  dsimp only
  rw [bind_apply, get_apply]
  dsimp only
  rw [hpcx, if_pos harmedAt, bind_apply]
  cases hso : stepOverBreakpoint x { s with host := some c1 } with
  | error e s2 =>
    -- the single step failed: the continue fails with it, after the trap went back
    rw [hso] at hend2 hval2
    simp only [endState] at hend2
    simp only [valueOf] at hval2
    subst hend2
    refine ⟨rs, [], c2, rfl, by rw [htr2, List.append_nil], ?_, fun _ => by simp, ?_⟩
    · intro h
      rw [← hval2] at h
      cases h
    · intro h
      rw [← hval2] at h
      cases h
  | ok stop s2 =>
    rw [hso] at hend2 hval2
    simp only [endState] at hend2
    simp only [valueOf] at hval2
    subst hend2
    dsimp only
    rw [bind_apply, get_apply]
    dsimp only
    cases htrap : RemoteSession.isTrap s stop with
    | false =>
      -- any other stop is taken in, sending nothing that lets the target run
      have hisTrap : RemoteSession.isTrap { s with host := some c2, breakpoints := st2 } stop = false :=
        htrap
      rw [hisTrap]
      simp only [Bool.not_false, if_true]
      rw [endState_bind_pure]
      obtain ⟨c3, hc3, hl3⟩ := sends_handleStop stop false { s with host := some c2, breakpoints := st2 }
        c2 rfl hq2
      obtain ⟨new, hnew, hmoves⟩ := hl3.sent
      refine ⟨rs, new, c3, hc3, by rw [hnew, htr2], ?_, fun _ => hmoves, ?_⟩
      · intro h
        rw [← hval2] at h
        simp [htrap] at h
      · intro hdead
        have hdead' : stop.reason.isAlive = false := by simpa [← hval2] using hdead
        rw [handleStop_dead _ hdead', hst2, if_neg (by rw [hdead]; decide)]
        exact find?_suspend_dropTemporaries hwf hb
    | true =>
      -- the trap: the target lived through the step, and it is resumed with the trap back
      have hisTrap : RemoteSession.isTrap { s with host := some c2, breakpoints := st2 } stop = true :=
        htrap
      have halive : stop.reason.isAlive = true := by
        simp only [RemoteSession.isTrap, beq_iff_eq] at htrap
        rw [htrap]
        rfl
      have hall : (stopOf rs).all (·.reason.isAlive) = true := by rw [← hval2]; simpa using halive
      rw [hisTrap]
      simp only [Bool.not_true, Bool.false_eq_true, if_false]
      rw [bind_apply, onHost_apply rfl, resume_run hq2]
      refine ⟨rs, [(Client.text "c", (c2.link.transport.answer (Client.text "c")).2)], _, rfl, ?_,
        fun _ => ⟨⟨_, rfl⟩, ?_⟩, fun h => ?_, fun h => ?_⟩
      · simp [htr2]
      · show st2.find? x = some b
        rw [hst2, if_pos hall, find?_rearm hb harmed, hb]
      · rw [← hval2] at h
        simp [htrap] at h
      · rw [hall] at h
        cases h

/-- The single steps of a source-level step from an armed breakpoint at `x`, then whatever `k`
does with the stop, as long as `k` sends nothing that lets the target run and, after a stop the
target did not live through, forgets the temporary breakpoints. -/
theorem stepLoop_then {start : Option SourcePosition} {position : Address → Option SourcePosition}
    {fuel : Nat} (hc : s.host = some c) (hq : Quiet c.link) (hwf : s.breakpoints.WellFormed)
    (hb : s.breakpoints.find? x = some b) (harmed : b.state = .armed)
    (hmapped : ∀ y b, s.breakpoints.find? y = some b → b.state = .armed →
      c.link.transport.mapped y = true)
    {k : Option StopEvent → SessionM (RecordingStub σ) StopEvent} (hk : ∀ r, Sends (¬ Moves ·) (k r))
    (hkdead : ∀ stop t, stop.reason.isAlive = false →
      (endState (k (some stop) t)).breakpoints =
        t.breakpoints.temporaries.foldl (fun st a => (st.removeAt a).1) t.breakpoints) :
    ∃ rs later rest c', (endState ((stepLoop start position fuel x 0 >>= k) s)).host = some c' ∧
      c'.link.transport.transcript =
        c.link.transport.transcript ++ overBreakpoint x b.savedByte rs ++ later ++ rest ∧
      Rounds s.breakpoints.find? later ∧ (∀ q ∈ rest, ¬ Moves q.1) ∧
      ((stopOf rs).all (·.reason.isAlive) = false → later = [] ∧
        (endState ((stepLoop start position fuel x 0 >>= k) s)).breakpoints.find? x =
          if b.isTemporary then none else some { b with state := .suspended }) := by
  obtain ⟨rs, more, c2, hq2, hend2, htr2, ⟨rounds, rest, hmore, hrounds, hrest⟩, hdead2⟩ :=
    stepLoop_run start position fuel x 0 s c hc hq hmapped
  have harmedAt : s.breakpoints.isArmedAt x = true := by
    simp [BreakpointStore.isArmedAt, hb, Breakpoint.isArmed, harmed]
  rw [stepPackets_armed hb harmed, hmore] at htr2
  rw [bind_apply]
  cases hsl : stepLoop start position fuel x 0 s with
  | error e s2 =>
    -- the loop failed: nothing follows it
    rw [hsl] at hend2 hdead2
    refine ⟨rs, rounds, rest, c2, hend2, by simp [htr2], hrounds, hrest,
      fun hdead => ?_⟩
    obtain ⟨-, hval, -⟩ := hdead2 hdead
    simp only [valueOf] at hval
    rw [Option.map_eq_none_iff.1 hval.symm] at hdead
    cases hdead
  | ok r s2 =>
    rw [hsl] at hend2 hdead2
    obtain ⟨c3, hc3, hl3⟩ := hk r s2 c2 hend2 hq2
    obtain ⟨new, hnew, hmoves⟩ := hl3.sent
    refine ⟨rs, rounds, rest ++ new, c3, hc3, by rw [hnew, htr2]; simp, hrounds, ?_, fun hdead => ?_⟩
    · intro q hq
      rcases List.mem_append.1 hq with hq | hq
      · exact hrest q hq
      · exact hmoves q hq
    · -- the first step ended the loop, and its stop is taken in
      obtain ⟨hnil, hval, hstore⟩ := hdead2 hdead
      rw [hmore] at hnil
      simp only [valueOf] at hval
      simp only [endState] at hstore
      -- the loop returned the very stop the target did not live through
      obtain ⟨stop, hrs, hstop⟩ : ∃ stop, stopOf rs = some stop ∧ stop.reason.isAlive = false := by
        cases hrs : stopOf rs with
        | none => simp [hrs] at hdead
        | some stop => exact ⟨stop, rfl, by simpa [hrs] using hdead⟩
      rw [hrs, Option.map_some, Option.some.injEq] at hval
      subst hval
      refine ⟨(List.append_eq_nil_iff.1 hnil).1, ?_⟩
      rw [hkdead stop s2 hstop, hstore, if_pos harmedAt]
      exact find?_suspend_dropTemporaries hwf hb

/-- A source-level step from an armed breakpoint at the program counter: after the registers are
read, its first single step goes out between the saved byte and, unless the target is gone, the
trap; each later single step is a round of `Rounds`, bracketed the same way when an armed
breakpoint sits where it starts; what follows lets the target run no further. After a first
step the target did not live through, nothing more is stepped, a user breakpoint stays suspended
and a temporary one is forgotten. -/
theorem step_steps_over (hopen : s.state = .opened) (hr : s.running = false)
    (hc : s.host = some c) (hq : Quiet c.link) (hwf : s.breakpoints.WellFormed)
    (hb : s.breakpoints.find? x = some b) (harmed : b.state = .armed)
    (hmapped : ∀ y b, s.breakpoints.find? y = some b → b.state = .armed →
      c.link.transport.mapped y = true)
    (thread : Option ThreadId) (position : Address → Option SourcePosition) (fuel : Nat)
    (hpc : (valueOf (Client.readRegisters thread c)).map (·.pc) = some x) :
    ∃ rs later rest c', (endState (step thread position fuel s)).host = some c' ∧
      c'.link.transport.transcript =
        (endState (Client.readRegisters thread c)).link.transport.transcript ++
          overBreakpoint x b.savedByte rs ++ later ++ rest ∧
      Rounds s.breakpoints.find? later ∧ (∀ q ∈ rest, ¬ Moves q.1) ∧
      ((stopOf rs).all (·.reason.isAlive) = false → later = [] ∧
        (endState (step thread position fuel s)).breakpoints.find? x =
          if b.isTemporary then none else some { b with state := .suspended }) := by
  obtain ⟨regs, c1, hregs, hpcx⟩ := readRegisters_at hpc
  have hl1 : Leaves (¬ Moves ·) c c1 := by
    simpa [hregs, endState] using leaves_readRegisters hq thread
  have hpre : (endState (Client.readRegisters thread c)).link.transport.transcript =
      c1.link.transport.transcript := by
    rw [hregs]
    rfl
  rw [hpre]
  unfold step
  rw [bind_apply, ensureStopped_ok hopen hc hr]
  dsimp only
  rw [bind_apply, onHost_apply hc, hregs]
  dsimp only
  rw [hpcx]
  refine stepLoop_then (s := { s with host := some c1 }) rfl hl1.quiet hwf hb harmed
    (fun y b' hb' harmed' => by rw [hl1.mapped]; exact hmapped y b' hb' harmed') ?_ ?_
  · -- the stop is taken in and the step announced, or the fuel ran out
    intro r
    cases r with
    | none => exact sends_throw _
    | some stop =>
      exact sends_bind (sends_handleStop _ _) fun _ =>
        sends_bind (sends_publish _) fun _ => sends_pure _
  · intro stop t hdead
    rw [breakpoints_bind_keeps fun _ => keepsStore_bind (keepsStore_publish _) fun _ =>
      keepsStore_pure _]
    exact handleStop_dead t (by exact hdead) false

/-- The instruction under an armed breakpoint runs exactly once. From an open, stopped session
over a link at rest, with an armed breakpoint `b` at `x` and every armed breakpoint at a mapped
address: a continue whose register read gives `x` sends the saved byte, one single step and,
unless the target is gone, the trap, and a `c` only after that, on a trap stop, with `b` armed
again. A source-level step does the same for its first single step and brackets each later one
that starts at an armed breakpoint likewise. After a first step the target did not live through,
a user breakpoint stays suspended and a temporary one is forgotten. -/
theorem armed_breakpoint_runs_once (hopen : s.state = .opened) (hr : s.running = false)
    (hc : s.host = some c) (hq : Quiet c.link) (hwf : s.breakpoints.WellFormed)
    (hb : s.breakpoints.find? x = some b) (harmed : b.state = .armed)
    (hmapped : ∀ b ∈ s.breakpoints.entries, b.state = .armed →
      c.link.transport.mapped b.address = true) :
    ((valueOf (Client.readRegisters none c)).map (·.pc) = some x →
      ∃ rs rest c', (endState (continueExecution s)).host = some c' ∧
        c'.link.transport.transcript =
          (endState (Client.readRegisters none c)).link.transport.transcript ++
            overBreakpoint x b.savedByte rs ++ rest ∧
        ((stopOf rs).any s.isTrap = true → (∃ r, rest = [(Client.text "c", r)]) ∧
          (endState (continueExecution s)).breakpoints.find? x = some b) ∧
        ((stopOf rs).any s.isTrap = false → ∀ q ∈ rest, ¬ Moves q.1) ∧
        ((stopOf rs).all (·.reason.isAlive) = false →
          (endState (continueExecution s)).breakpoints.find? x =
            if b.isTemporary then none else some { b with state := .suspended })) ∧
    ∀ thread position fuel, (valueOf (Client.readRegisters thread c)).map (·.pc) = some x →
      ∃ rs later rest c', (endState (step thread position fuel s)).host = some c' ∧
        c'.link.transport.transcript =
          (endState (Client.readRegisters thread c)).link.transport.transcript ++
            overBreakpoint x b.savedByte rs ++ later ++ rest ∧
        Rounds s.breakpoints.find? later ∧ (∀ q ∈ rest, ¬ Moves q.1) ∧
        ((stopOf rs).all (·.reason.isAlive) = false → later = [] ∧
          (endState (step thread position fuel s)).breakpoints.find? x =
            if b.isTemporary then none else some { b with state := .suspended }) := by
  have hmapped' : ∀ y b, s.breakpoints.find? y = some b → b.state = .armed →
      c.link.transport.mapped y = true := fun _ _ hb harmed =>
    @BreakpointStore.armed_at_of_find? _ (c.link.transport.mapped · = true) hmapped _ _ hb harmed
  have hx : c.link.transport.mapped x = true := hmapped' x b hb harmed
  exact ⟨continueExecution_steps_over hopen hr hc hq hwf hb harmed hx,
    fun thread position fuel => step_steps_over hopen hr hc hq hwf hb harmed hmapped' thread position fuel⟩

end FromBreakpoint

/-- A stub with memory mapped below `0x800`, holding `0x90`, whose registers are all zero and
whose target answers every single step with the trap signal and every other request with an
empty reply. -/
def trapStub : RecordingStub Unit where
  memory := fun _ => 0x90
  mapped := fun y => y < 0x800
  target := ()
  execute := fun _ request =>
    ((), if request = Client.text "g" then some (Hex.digits (List.replicate Registers.gdbMinBytes 0))
      else if request = Client.text "s" then some (Client.text "T05") else some [])

/-- A network on which every connection reaches `trapStub`. -/
def trapNetwork : Network (RecordingStub Unit) where
  lookup := fun _ => .ok []
  connect := fun _ => .ok trapStub

/-- A session opened on `trapNetwork` with a user breakpoint at the program counter, `0`. -/
def trapSession : RemoteSession (RecordingStub Unit) :=
  endState (addBreakpoint 0 .user (endState («open» trapNetwork "127.0.0.1:1" (new {}))))

theorem armed_breakpoint_runs_once_trapSession :
    ∃ c, trapSession.host = some c ∧
    ((valueOf (Client.readRegisters none c)).map (·.pc) = some 0 →
      ∃ rs rest c', (endState (continueExecution trapSession)).host = some c' ∧
        c'.link.transport.transcript =
          (endState (Client.readRegisters none c)).link.transport.transcript ++
            overBreakpoint 0 0x90 rs ++ rest ∧
        ((stopOf rs).any trapSession.isTrap = true → (∃ r, rest = [(Client.text "c", r)]) ∧
          (endState (continueExecution trapSession)).breakpoints.find? 0 =
            some { id := 1, address := 0, kind := .user, savedByte := 0x90 }) ∧
        ((stopOf rs).any trapSession.isTrap = false → ∀ q ∈ rest, ¬ Moves q.1) ∧
        ((stopOf rs).all (·.reason.isAlive) = false →
          (endState (continueExecution trapSession)).breakpoints.find? 0 =
            if ({ id := 1, address := 0, kind := .user, savedByte := 0x90 } : Breakpoint).isTemporary
            then none
            else some { id := 1, address := 0, kind := .user, state := .suspended, savedByte := 0x90 })) ∧
    ∀ thread position fuel, (valueOf (Client.readRegisters thread c)).map (·.pc) = some 0 →
      ∃ rs later rest c', (endState (step thread position fuel trapSession)).host = some c' ∧
        c'.link.transport.transcript =
          (endState (Client.readRegisters thread c)).link.transport.transcript ++
            overBreakpoint 0 0x90 rs ++ later ++ rest ∧
        Rounds trapSession.breakpoints.find? later ∧ (∀ q ∈ rest, ¬ Moves q.1) ∧
        ((stopOf rs).all (·.reason.isAlive) = false → later = [] ∧
          (endState (step thread position fuel trapSession)).breakpoints.find? 0 =
            if ({ id := 1, address := 0, kind := .user, savedByte := 0x90 } : Breakpoint).isTemporary
            then none
            else some { id := 1, address := 0, kind := .user, state := .suspended, savedByte := 0x90 }) := by
  obtain ⟨c, hc⟩ := Option.isSome_iff_exists.1 (by decide +kernel : trapSession.host.isSome = true)
  have hq : (trapSession.host.map fun c => decide (Quiet c.link)) = some true := by decide +kernel
  have hmapped : (trapSession.host.map fun c => decide (∀ b ∈ trapSession.breakpoints.entries,
      b.state = .armed → c.link.transport.mapped b.address = true)) = some true := by decide +kernel
  rw [hc] at hq hmapped
  simp only [Option.map_some, Option.some.injEq, decide_eq_true_eq] at hq hmapped
  exact ⟨c, hc, armed_breakpoint_runs_once (s := trapSession) (x := 0)
    (b := { id := 1, address := 0, kind := .user, savedByte := 0x90 }) (by decide +kernel)
    (by decide +kernel) hc hq ⟨by decide +kernel, by decide +kernel, by decide +kernel⟩
    (by decide +kernel) rfl hmapped⟩

/-- A stub like `trapStub` whose target exits at its first single step. -/
def exitStub : RecordingStub Unit :=
  { trapStub with
    execute := fun _ request =>
      ((), if request = Client.text "g" then some (Hex.digits (List.replicate Registers.gdbMinBytes 0))
        else if request = Client.text "s" then some (Client.text "W00") else some []) }

/-- A network on which every connection reaches `exitStub`. -/
def exitNetwork : Network (RecordingStub Unit) where
  lookup := fun _ => .ok []
  connect := fun _ => .ok exitStub

/-- A session opened on `exitNetwork` with a temporary breakpoint at the program counter, `0`. -/
def exitSession : RemoteSession (RecordingStub Unit) :=
  endState (addBreakpoint 0 .temporary (endState («open» exitNetwork "127.0.0.1:1" (new {}))))

/-- A temporary breakpoint is not left suspended when the target exits at the step over it: the
step reports the exit, the trap is not written back, and taking in the exit forgets the
breakpoint. -/
theorem temporary_forgotten_after_exit :
    exitSession.breakpoints.find? 0 =
      some { id := 1, address := 0, kind := .temporary, savedByte := 0x90 } ∧
    (valueOf (step none (fun _ => none) 0 exitSession)).map (·.reason) = some (.exited 0) ∧
    (endState (step none (fun _ => none) 0 exitSession)).breakpoints.find? 0 = none := by
  refine ⟨?_, ?_, ?_⟩
  all_goals decide +kernel

end RemoteSession

end RemoteDebugger
