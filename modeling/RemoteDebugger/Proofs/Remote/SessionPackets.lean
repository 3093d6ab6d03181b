import RemoteDebugger.Proofs.Remote.RecordingClient
import RemoteDebugger.Proofs.Remote.SessionSteady

/-!
# Which requests a session sends

A session operation over a `RecordingStub` `Sends P` when it keeps the link at rest and records
only requests satisfying `P`, whether it succeeds or fails.
-/

namespace RemoteDebugger

variable {σ : Type}

namespace RecordingStub

variable {c : Client (RecordingStub σ)}

theorem text_g_not_moves : ¬ Moves (Client.text "g") := by
  rw [show Client.text "g" = [0x67] by rw [Client.text_eq]; rfl]
  exact not_moves_of_head (.inl (by decide)) (.inl (by decide))

theorem text_hg_not_moves (t : ThreadId) : ¬ Moves (Client.text ("Hg" ++ Hex.natDigits t.toNat)) := by
  rw [Client.text_append, show Client.text "Hg" = [0x48, 0x67] by rw [Client.text_eq]; rfl,
    List.cons_append]
  exact not_moves_of_head (.inl (by decide)) (.inl (by decide))

theorem text_registers_not_moves (bytes : List UInt8) : ¬ Moves (Client.text "G" ++ bytes) := by
  rw [show Client.text "G" = [0x47] by rw [Client.text_eq]; rfl, List.cons_append]
  exact not_moves_of_head (.inl (by decide)) (.inl (by decide))

/-- Reading registers sends `g`, after `Hg` for a named thread, and nothing else. -/
theorem leaves_readRegisters (hc : Quiet c.link) (thread : Option ThreadId) :
    Leaves (¬ Moves ·) c (endState (Client.readRegisters thread c)) := by
  have hcurrent : ∀ c : Client (RecordingStub σ), Quiet c.link →
      Leaves (¬ Moves ·) c (endState (Client.readRegisters none c)) := by
    intro c hc
    have hrun := readRegisters_run hc
    have hl : Leaves (¬ Moves ·) c _ := leaves_handle hc text_g_not_moves
    split at hrun
    · rw [hrun]
      exact hl
    · obtain ⟨e, he⟩ := hrun
      rw [he]
      exact hl
  cases thread with
  | none => exact hcurrent c hc
  | some t =>
    have hsome : Client.readRegisters (some t) =
        (Client.expectOk (Client.text ("Hg" ++ Hex.natDigits t.toNat)) >>= fun _ =>
          (Client.readRegisters none : ClientM (RecordingStub σ) _)) := rfl
    rw [hsome, bind_apply]
    rcases expectOk_run hc (Client.text ("Hg" ++ Hex.natDigits t.toNat)) with ⟨hok, _⟩ | ⟨e, herr, _⟩
    · rw [hok]
      exact (leaves_handle hc (text_hg_not_moves t)).trans (hcurrent _ (quiet_handle hc _))
    · rw [herr]
      exact leaves_handle hc (text_hg_not_moves t)

/-- Writing registers sends one `G` request. -/
theorem leaves_writeRegisters (hc : Quiet c.link) (r : Registers) :
    Leaves (¬ Moves ·) c (endState (Client.writeRegisters r c)) := by
  have hl : Leaves (¬ Moves ·) c _ := leaves_handle hc (text_registers_not_moves (Hex.digits r.toGdbBytes))
  unfold Client.writeRegisters
  rcases expectOk_run hc (Client.text "G" ++ Hex.digits r.toGdbBytes) with ⟨hok, _⟩ | ⟨e, herr, _⟩
  · simp only [tryCatch, tryCatchThe, MonadExceptOf.tryCatch, EStateM.tryCatch, hok]
    exact hl
  · simp only [tryCatch, tryCatchThe, MonadExceptOf.tryCatch, EStateM.tryCatch, herr]
    exact hl

/-- Taking the program output sends nothing. -/
theorem leaves_takeOutput (hc : Quiet c.link) :
    Leaves (¬ Moves ·) c (endState (Client.takeOutput c)) :=
  ⟨hc, rfl, [], by simp [Client.takeOutput, bind_apply, endState, get, getThe, MonadStateOf.get,
    EStateM.get, set, MonadStateOf.set, EStateM.set, pure, EStateM.pure], by simp⟩

/-- A write of one byte sends one `M` request. -/
theorem leaves_writeByte (hc : Quiet c.link) (a : UInt64) (byte : UInt8) :
    Leaves (¬ Moves ·) c (endState (Client.writeMemory a [byte] c)) :=
  (writeMemory_oldOrNew hc a [byte] (by simp [UInt64.size])).1

end RecordingStub

namespace RemoteSession

open RecordingStub

/-- A session operation that, from a session connected over a link at rest, keeps the
connection and leaves its link at rest, the same memory mapped and only requests satisfying `P`
recorded, whether it succeeds or fails. -/
def Sends (P : List UInt8 → Prop) {α : Type} (m : SessionM (RecordingStub σ) α) : Prop :=
  ∀ s c, s.host = some c → Quiet c.link →
    ∃ c', (endState (m s)).host = some c' ∧ Leaves P c c'

section Sends

variable {P : List UInt8 → Prop} {α β : Type}

theorem sends_pure (a : α) : Sends P (pure a : SessionM (RecordingStub σ) α) :=
  fun _ c hc hq => ⟨c, hc, Leaves.refl hq⟩

theorem sends_throw (e : DebugError) : Sends P (throw e : SessionM (RecordingStub σ) α) :=
  fun _ c hc hq => ⟨c, hc, Leaves.refl hq⟩

theorem sends_get : Sends P (get : SessionM (RecordingStub σ) _) :=
  fun _ c hc hq => ⟨c, hc, Leaves.refl hq⟩

/-- A change of the session's own fields that keeps the connection sends nothing. -/
theorem sends_modify {f : RemoteSession (RecordingStub σ) → RemoteSession (RecordingStub σ)}
    (hf : ∀ s, (f s).host = s.host) : Sends P (modify f : SessionM (RecordingStub σ) _) :=
  fun s c hc hq => ⟨c, (hf s).trans hc, Leaves.refl hq⟩

theorem sends_publish (e : SessionEvent) : Sends P (publish e : SessionM (RecordingStub σ) _) :=
  sends_modify fun _ => rfl

theorem sends_onStore (f : BreakpointStore → BreakpointStore × β) :
    Sends P (onStore f : SessionM (RecordingStub σ) β) :=
  fun _ c hc hq => ⟨c, hc, Leaves.refl hq⟩

/-- A client operation that sends only requests satisfying `P` does so on the session's
connection. -/
theorem sends_onHost {m : ClientM (RecordingStub σ) α}
    (hm : ∀ c : Client (RecordingStub σ), Quiet c.link → Leaves P c (endState (m c))) :
    Sends P (onHost m) := by
  intro s c hc hq
  refine ⟨endState (m c), ?_, hm c hq⟩
  rw [onHost_apply hc]
  cases m c <;> rfl

theorem sends_bind {m : SessionM (RecordingStub σ) α} {f : α → SessionM (RecordingStub σ) β}
    (hm : Sends P m) (hf : ∀ a, Sends P (f a)) : Sends P (m >>= f) := by
  intro s c hc hq
  obtain ⟨c1, hc1, hl1⟩ := hm s c hc hq
  rw [bind_apply]
  cases h : m s with
  | ok a s1 =>
    rw [h] at hc1
    obtain ⟨c2, hc2, hl2⟩ := hf a s1 c1 hc1 hl1.quiet
    exact ⟨c2, hc2, hl1.trans hl2⟩
  | error e s1 =>
    rw [h] at hc1
    exact ⟨c1, hc1, hl1⟩

theorem sends_tryCatch {m : SessionM (RecordingStub σ) α} {h : DebugError → SessionM (RecordingStub σ) α}
    (hm : Sends P m) (hh : ∀ e, Sends P (h e)) : Sends P (tryCatch m h) := by
  intro s c hc hq
  obtain ⟨c1, hc1, hl1⟩ := hm s c hc hq
  cases hr : m s with
  | ok a s1 =>
    rw [hr] at hc1
    have hrun : tryCatch m h s = .ok a s1 := by
      simp only [tryCatch, tryCatchThe, MonadExceptOf.tryCatch, EStateM.tryCatch, hr]
    rw [hrun]
    exact ⟨c1, hc1, hl1⟩
  | error e s1 =>
    rw [hr] at hc1
    have hrun : tryCatch m h s = h e s1 := by
      simp only [tryCatch, tryCatchThe, MonadExceptOf.tryCatch, EStateM.tryCatch, hr]
      rfl
    obtain ⟨c2, hc2, hl2⟩ := hh e s1 c1 hc1 hl1.quiet
    rw [hrun]
    exact ⟨c2, hc2, hl1.trans hl2⟩

theorem sends_map {m : SessionM (RecordingStub σ) α} (f : α → β) (hm : Sends P m) :
    Sends P (f <$> m) := by
  intro s c hc hq
  obtain ⟨c1, hc1, hl1⟩ := hm s c hc hq
  refine ⟨c1, ?_, hl1⟩
  simp only [Functor.map, EStateM.map]
  cases hr : m s <;> rw [hr] at hc1 <;> exact hc1

theorem sends_attempt {m : SessionM (RecordingStub σ) α} (hm : Sends P m) : Sends P (attempt m) :=
  sends_tryCatch (sends_map _ hm) fun _ => sends_pure _

theorem sends_discard {m : SessionM (RecordingStub σ) α} (hm : Sends P m) :
    Sends P (discard m) := by
  intro s c hc hq
  obtain ⟨c1, hc1, hl1⟩ := hm s c hc hq
  refine ⟨c1, ?_, hl1⟩
  rw [discard_apply]
  cases hr : m s <;> rw [hr] at hc1 <;> exact hc1

theorem sends_ite {p : Prop} [Decidable p] {m m' : SessionM (RecordingStub σ) α}
    (hm : Sends P m) (hm' : Sends P m') : Sends P (if p then m else m') := by
  split
  · exact hm
  · exact hm'

theorem sends_forIn {γ : Type} (xs : List γ)
    (f : γ → PUnit → SessionM (RecordingStub σ) (ForInStep PUnit)) (hf : ∀ x, Sends P (f x ⟨⟩)) :
    Sends P (forIn xs ⟨⟩ f) := by
  induction xs with
  | nil => exact sends_pure _
  | cons x xs ih =>
    rw [List.forIn_cons]
    refine sends_bind (hf x) fun r => ?_
    cases r with
    | done u => exact sends_pure _
    | yield u => exact ih

end Sends

/-! ## The steps around a single step -/

theorem sends_disarm (a : Address) : Sends (¬ Moves ·) (disarm a : SessionM (RecordingStub σ) _) := by
  unfold disarm
  refine sends_bind sends_get fun s => ?_
  split
  · exact sends_throw _
  · refine sends_ite ?_ (sends_pure _)
    exact sends_bind (sends_onHost fun c hq => leaves_writeByte hq a _) fun _ =>
      sends_discard (sends_onStore _)

theorem sends_rewindTrap (stop : StopEvent) (resumed : Bool) :
    Sends (¬ Moves ·) (rewindTrap stop resumed : SessionM (RecordingStub σ) _) := by
  unfold rewindTrap
  refine sends_bind (sends_onHost fun c hq => leaves_readRegisters hq none) fun regs => ?_
  refine sends_bind sends_get fun s => sends_ite (sends_pure _) ?_
  refine sends_bind sends_get fun s' => sends_ite (sends_pure _) ?_
  refine sends_bind (sends_onHost fun c hq => leaves_writeRegisters hq _) fun _ => ?_
  exact sends_bind (sends_onStore _) fun _ => sends_pure _

theorem sends_removeTemporaries :
    Sends (¬ Moves ·) (removeTemporaries : SessionM (RecordingStub σ) Unit) := by
  unfold removeTemporaries
  refine sends_bind sends_get fun s => sends_bind (sends_forIn _ _ fun a => ?_) fun _ => sends_pure _
  exact sends_bind (sends_discard (sends_attempt (sends_disarm a))) fun _ =>
    sends_bind (sends_discard (sends_onStore _)) fun _ => sends_pure _

/-- Taking in a stop sends no request that lets the target run. -/
theorem sends_handleStop (stop : StopEvent) (resumed : Bool) :
    Sends (¬ Moves ·) (handleStop stop resumed : SessionM (RecordingStub σ) Unit) := by
  have hpublish : ∀ (output : List String) (pc : Option Address) (hit : Option UInt64),
      Sends (¬ Moves ·) (do
        forIn output PUnit.unit fun text _ => do
          publish (SessionEvent.output text)
          pure (ForInStep.yield PUnit.unit)
        publish (SessionEvent.stopped stop.reason stop.thread pc hit) :
          SessionM (RecordingStub σ) Unit) :=
    fun output pc hit => sends_bind (sends_forIn _ _ fun text =>
      sends_bind (sends_publish _) fun _ => sends_pure _) fun _ => sends_publish _
  unfold handleStop
  refine sends_bind (sends_modify fun _ => rfl) fun _ => ?_
  dsimp only
  -- every path ends the same way: the output is passed on and the stop announced
  have hannounce : ∀ x : Option Address × Option UInt64, Sends (¬ Moves ·) (do
      let s ← get
      if s.host.isSome = true then do
        let output ← onHost Client.takeOutput
        forIn output PUnit.unit fun text _ => do
          publish (SessionEvent.output text)
          pure (ForInStep.yield PUnit.unit)
        publish (SessionEvent.stopped stop.reason stop.thread x.1 x.2)
      else do
        let output ← pure []
        forIn output PUnit.unit fun text _ => do
          publish (SessionEvent.output text)
          pure (ForInStep.yield PUnit.unit)
        publish (SessionEvent.stopped stop.reason stop.thread x.1 x.2) :
        SessionM (RecordingStub σ) Unit) := by
    intro x
    refine sends_bind sends_get fun s => sends_ite ?_ ?_
    · exact sends_bind (sends_onHost fun c hq => leaves_takeOutput hq) fun output => hpublish output _ _
    · exact sends_bind (sends_pure _) fun output => hpublish output _ _
  refine sends_ite ?_ ?_
  · refine sends_bind (sends_attempt (sends_rewindTrap _ _)) fun rewound => ?_
    refine sends_bind sends_removeTemporaries fun _ => ?_
    split
    · exact sends_bind (sends_pure _) hannounce
    · exact sends_bind (sends_pure _) hannounce
  · refine sends_bind sends_get fun s => sends_bind (sends_forIn _ _ fun a => ?_) fun _ => ?_
    · exact sends_bind (sends_discard (sends_onStore _)) fun _ => sends_pure _
    · exact sends_bind (sends_pure _) hannounce

end RemoteSession

end RemoteDebugger
