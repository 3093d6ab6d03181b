import RemoteDebugger.Proofs.Breakpoint.Lifetime
import RemoteDebugger.Proofs.Remote.FailedUpdates

/-!
# Calm session steps

Most of what a session does announces no stop and changes only the states and saved bytes of its
breakpoints (`Calm`). `Leads R` is shown piece by piece through the monad's combinators.
-/

namespace RemoteDebugger

/-- Whether an event announces a stop. -/
def SessionEvent.isStopped : SessionEvent → Bool
  | .stopped .. => true
  | _ => false

namespace RemoteSession

variable {τ : Type} {α β : Type}

/-- Every run of `m`, whether it succeeds or fails, relates the session it starts from to the
session it leaves by `R`. -/
def Leads (R : RemoteSession τ → RemoteSession τ → Prop) (m : SessionM τ α) : Prop :=
  ∀ s, R s (endState (m s))

/-- Events added to `ev` announce no stop. -/
def QuietlyExtends (ev ev' : Array SessionEvent) : Prop :=
  ∃ E : List SessionEvent, ev'.toList = ev.toList ++ E ∧ ∀ e ∈ E, e.isStopped = false

/-- `s'` follows `s` calmly: the configuration is the same, the breakpoints differ at most in
their states and saved bytes, and no stop was announced in between. -/
structure Calm (s s' : RemoteSession τ) : Prop where
  config : s'.config = s.config
  store : BreakpointStore.SameKeys s.breakpoints s'.breakpoints
  events : QuietlyExtends s.events s'.events

theorem QuietlyExtends.refl (ev : Array SessionEvent) : QuietlyExtends ev ev :=
  ⟨[], by simp, by simp⟩

theorem QuietlyExtends.trans {ev ev' ev'' : Array SessionEvent} (h : QuietlyExtends ev ev')
    (h' : QuietlyExtends ev' ev'') : QuietlyExtends ev ev'' := by
  obtain ⟨E, hE, hq⟩ := h
  obtain ⟨E', hE', hq'⟩ := h'
  refine ⟨E ++ E', by rw [hE', hE, List.append_assoc], fun e he => ?_⟩
  rcases List.mem_append.1 he with he | he
  · exact hq e he
  · exact hq' e he

theorem Calm.refl (s : RemoteSession τ) : Calm s s :=
  ⟨rfl, .refl _, .refl _⟩

theorem Calm.trans {s s' s'' : RemoteSession τ} (h : Calm s s') (h' : Calm s' s'') : Calm s s'' :=
  ⟨h'.config.trans h.config, h.store.trans h'.store, h.events.trans h'.events⟩

instance : IsPreorder (RemoteSession τ) Calm where
  refl := Calm.refl
  trans _ _ _ := Calm.trans

/-- A change of the session's other fields is calm. -/
theorem calm_of_eq {s s' : RemoteSession τ} (hc : s'.config = s.config)
    (hb : s'.breakpoints = s.breakpoints) (he : s'.events = s.events) : Calm s s' := by
  refine ⟨hc, ?_, [], by simp [he], by simp⟩
  rw [hb]
  exact .refl _

theorem calm_publish {e : SessionEvent} (he : e.isStopped = false) (s : RemoteSession τ) :
    Calm s { s with events := s.events.push e } :=
  ⟨rfl, .refl _, [e], by simp, by simpa using he⟩

theorem calm_store {s : RemoteSession τ} {st : BreakpointStore}
    (h : BreakpointStore.SameKeys s.breakpoints st) : Calm s { s with breakpoints := st } :=
  ⟨rfl, h, [], by simp, by simp⟩

/-- A calm run keeps the temporary breakpoints. -/
theorem Calm.temporaries {s s' : RemoteSession τ} (h : Calm s s') :
    s'.breakpoints.temporaries = s.breakpoints.temporaries :=
  h.store.temporaries

/-- A calm run announces no stop. -/
theorem Calm.published {s s' : RemoteSession τ} (h : Calm s s') :
    ∃ E, s'.events.toList = s.events.toList ++ E ∧ E.countP SessionEvent.isStopped = 0 := by
  obtain ⟨E, hE, hq⟩ := h.events
  exact ⟨E, hE, List.countP_eq_zero.2 fun e he => by simp [hq e he]⟩

/-! ## The combinators -/

section Leads

variable {R : RemoteSession τ → RemoteSession τ → Prop}

/-- A run of `m` and then `f` is related by `T` when a run of `m` by `R`, one of `f` by `S`,
and `R` then `S`, or `R` alone for a failure of `m`, give `T`. -/
theorem leads_bind_of {S T : RemoteSession τ → RemoteSession τ → Prop} {m : SessionM τ α}
    {f : α → SessionM τ β} (hm : Leads R m) (hf : ∀ a, Leads S (f a))
    (hRS : ∀ s1 s2 s3, R s1 s2 → S s2 s3 → T s1 s3) (hR : ∀ s1 s2, R s1 s2 → T s1 s2) :
    Leads T (m >>= f) := by
  intro s
  have h1 := hm s
  rw [bind_apply]
  cases h : m s with
  | ok a s1 =>
    rw [h] at h1
    exact hRS s s1 _ h1 (hf a s1)
  | error e s1 =>
    rw [h] at h1
    exact hR s s1 h1

theorem leads_ite {p : Prop} [Decidable p] {m m' : SessionM τ α} (hm : Leads R m)
    (hm' : Leads R m') : Leads R (if p then m else m') := by
  split
  · exact hm
  · exact hm'

theorem leads_map {m : SessionM τ α} (f : α → β) (hm : Leads R m) : Leads R (f <$> m) := by
  intro s
  have h1 := hm s
  simp only [Functor.map, EStateM.map]
  cases hr : m s <;> rw [hr] at h1 <;> exact h1

theorem leads_modify {f : RemoteSession τ → RemoteSession τ} (hf : ∀ s, R s (f s)) :
    Leads R (modify f : SessionM τ _) :=
  fun s => hf s

section Preorder

variable [IsPreorder (RemoteSession τ) R]

theorem leads_of_endState {m : SessionM τ α} (h : ∀ s, endState (m s) = s) : Leads R m := by
  intro s
  rw [h s]
  exact refl_of R s

theorem leads_pure (a : α) : Leads R (pure a : SessionM τ α) := fun s => refl_of R s

theorem leads_throw (e : DebugError) : Leads R (throw e : SessionM τ α) := fun s => refl_of R s

theorem leads_get : Leads R (get : SessionM τ _) := fun s => refl_of R s

theorem leads_bind {m : SessionM τ α} {f : α → SessionM τ β} (hm : Leads R m)
    (hf : ∀ a, Leads R (f a)) : Leads R (m >>= f) :=
  leads_bind_of hm hf (fun _ _ _ => trans_of R) fun _ _ h => h

theorem leads_forIn {γ : Type} (xs : List γ) (b : β) (f : γ → β → SessionM τ (ForInStep β))
    (hf : ∀ x b, Leads R (f x b)) : Leads R (forIn xs b f) := by
  induction xs generalizing b with
  | nil => exact leads_pure _
  | cons x xs ih =>
    rw [List.forIn_cons]
    refine leads_bind (hf x b) fun r => ?_
    cases r with
    | done b' => exact leads_pure _
    | yield b' => exact ih b'

theorem leads_tryCatch {m : SessionM τ α} {h : DebugError → SessionM τ α} (hm : Leads R m)
    (hh : ∀ e, Leads R (h e)) : Leads R (tryCatch m h) := by
  intro s
  have h1 := hm s
  cases hr : m s with
  | ok a s1 =>
    rw [hr] at h1
    have hrun : tryCatch m h s = .ok a s1 := by
      simp only [tryCatch, tryCatchThe, MonadExceptOf.tryCatch, EStateM.tryCatch, hr]
    rw [hrun]
    exact h1
  | error e s1 =>
    rw [hr] at h1
    have hrun : tryCatch m h s = h e s1 := by
      simp only [tryCatch, tryCatchThe, MonadExceptOf.tryCatch, EStateM.tryCatch, hr]
      rfl
    rw [hrun]
    exact trans_of R h1 (hh e s1)

theorem leads_attempt {m : SessionM τ α} (hm : Leads R m) : Leads R (attempt m) :=
  leads_tryCatch (leads_map _ hm) fun _ => leads_pure _

end Preorder

theorem leads_onStore (f : BreakpointStore → BreakpointStore × β)
    (hf : ∀ s, R s { s with breakpoints := (f s.breakpoints).1 }) : Leads R (onStore f) :=
  fun s => hf s

variable [Transport τ]

theorem leads_discard {m : SessionM τ α} (hm : Leads R m) : Leads R (discard m) := by
  intro s
  have h1 := hm s
  rw [discard_apply]
  cases hr : m s <;> rw [hr] at h1 <;> exact h1

theorem leads_onHost [IsPreorder (RemoteSession τ) R] (hhost : ∀ s c, R s { s with host := some c })
    (m : ClientM τ α) : Leads R (onHost m) := by
  intro s
  cases hs : s.host with
  | none =>
    have hrun : onHost m s = .error .notConnected s := by simp [onHost, hs]
    rw [hrun]
    exact refl_of R s
  | some c =>
    rw [endState_onHost hs]
    exact hhost s _

end Leads

/-! ## Calm operations -/

theorem leads_calm_publish {e : SessionEvent} (he : e.isStopped = false) :
    Leads Calm (publish e : SessionM τ _) :=
  leads_modify (calm_publish he)

theorem endState_ensureOpen (s : RemoteSession τ) : endState (ensureOpen s) = s := by
  cases hst : s.state <;> cases hh : s.host <;>
    simp [ensureOpen, bind_apply, get_apply, hst, hh, throw, throwThe, MonadExceptOf.throw,
      EStateM.throw, pure, EStateM.pure, endState]

theorem endState_ensureStopped (s : RemoteSession τ) : endState (ensureStopped s) = s := by
  rcases ensureStopped_cases s with ⟨h, _⟩ | ⟨e, h⟩ <;> rw [h] <;> rfl

theorem leads_calm_ensureStopped : Leads Calm (ensureStopped : SessionM τ _) :=
  leads_of_endState endState_ensureStopped

theorem leads_calm_ensureOpen : Leads Calm (ensureOpen : SessionM τ _) :=
  leads_of_endState endState_ensureOpen

theorem leads_startPolling : Leads Calm (startPolling : SessionM τ _) :=
  leads_bind leads_calm_ensureOpen fun _ => leads_modify fun _ => calm_of_eq rfl rfl rfl

variable [Transport τ]

theorem leads_calm_onHost (m : ClientM τ α) : Leads Calm (onHost m) :=
  leads_onHost (fun _ _ => calm_of_eq rfl rfl rfl) m

theorem leads_disarm (a : Address) : Leads Calm (disarm a : SessionM τ _) := by
  unfold disarm
  refine leads_bind leads_get fun s => ?_
  split
  · exact leads_throw _
  · refine leads_ite ?_ (leads_pure _)
    exact leads_bind (leads_calm_onHost _) fun _ =>
      leads_discard (leads_onStore _ fun s => calm_store (BreakpointStore.sameKeys_setState _ _ _))

theorem leads_arm (a : Address) : Leads Calm (arm a : SessionM τ _) := by
  unfold arm
  refine leads_bind leads_get fun s => leads_ite ?_ (leads_pure _)
  exact leads_bind (leads_calm_onHost _) fun _ =>
    leads_discard (leads_onStore _ fun s => calm_store (BreakpointStore.sameKeys_setState _ _ _))

theorem leads_stepOverBreakpoint (pc : Address) :
    Leads Calm (stepOverBreakpoint pc : SessionM τ _) := by
  unfold stepOverBreakpoint
  refine leads_bind (leads_disarm pc) fun _ => ?_
  refine leads_bind (leads_attempt (leads_calm_onHost Client.singleStep)) fun stepped => ?_
  dsimp only
  -- the step's result is handed back, or its failure raised, whether or not the trap is back
  refine leads_ite (leads_bind (leads_arm pc) fun _ => ?_) ?_ <;> split
  · exact leads_pure _
  · exact leads_throw _
  · exact leads_pure _
  · exact leads_throw _

theorem leads_stepInstruction (pc : Address) : Leads Calm (stepInstruction pc : SessionM τ _) :=
  leads_bind leads_get fun _ => leads_ite (leads_stepOverBreakpoint pc) (leads_calm_onHost _)

/-- A round of a source-level step is calm. -/
theorem leads_stepRound (start : Option SourcePosition) (position : Address → Option SourcePosition)
    (pc : Address) (executed : Nat) : Leads Calm (stepRound start position pc executed : SessionM τ _) := by
  unfold stepRound
  refine leads_bind (leads_stepInstruction pc) fun stop => leads_bind leads_get fun s => ?_
  exact leads_ite (leads_pure _) (leads_bind (leads_calm_onHost _) fun regs =>
    leads_ite (leads_pure _) (leads_pure _))

/-- The rounds of a source-level step are calm, however many there are. -/
theorem leads_stepLoop (start : Option SourcePosition) (position : Address → Option SourcePosition) :
    ∀ fuel pc executed, Leads Calm (stepLoop start position fuel pc executed : SessionM τ _) := by
  intro fuel
  induction fuel with
  | zero =>
    intro pc executed
    rw [stepLoop]
    refine leads_bind (leads_stepRound _ _ pc executed) fun r => ?_
    cases r <;> exact leads_pure _
  | succ fuel ih =>
    intro pc executed
    rw [stepLoop]
    refine leads_bind (leads_stepRound _ _ pc executed) fun r => ?_
    cases r with
    | ends stop => exact leads_pure _
    | goesOn pc' => exact ih _ _

/-! ## Requests that add no breakpoint -/

/-- Writing memory changes only the saved bytes of the breakpoints under the range. -/
theorem leads_writeMemory (a : Address) (data : List UInt8) :
    Leads Calm (writeMemory a data : SessionM τ _) := by
  unfold writeMemory
  refine leads_bind leads_calm_ensureStopped fun _ => leads_bind leads_get fun s => ?_
  refine leads_bind (leads_forIn _ _ _ fun b patched => ?_) fun _ => leads_calm_onHost _
  split
  · split
    · exact leads_bind (leads_discard (leads_onStore _ fun _ =>
        calm_store (BreakpointStore.sameKeys_setSavedByte _ _ _))) fun _ => leads_pure _
    · exact leads_pure _
  · exact leads_pure _

theorem leads_readMemory (a : Address) (n : Nat) : Leads Calm (readMemory a n : SessionM τ _) :=
  leads_bind leads_calm_ensureStopped fun _ => leads_bind (leads_calm_onHost _) fun _ =>
    leads_bind leads_get fun _ => leads_pure _

theorem leads_registers (thread : Option ThreadId) :
    Leads Calm (registers thread : SessionM τ _) :=
  leads_bind leads_calm_ensureStopped fun _ => leads_calm_onHost _

theorem leads_threads : Leads Calm (threads : SessionM τ _) :=
  leads_bind leads_calm_ensureStopped fun _ => leads_calm_onHost _

theorem leads_lastSignal : Leads Calm (lastSignal : SessionM τ _) :=
  leads_bind leads_calm_ensureStopped fun _ => leads_calm_onHost _

theorem leads_requestBreak : Leads Calm (requestBreak : SessionM τ _) :=
  leads_bind leads_calm_ensureOpen fun _ => leads_bind leads_get fun _ =>
    leads_ite (leads_calm_onHost _) (leads_pure _)

theorem leads_calm_beginOpen : Leads Calm (beginOpen : SessionM τ _) := by
  intro s
  by_cases hs : s.state = .closed
  · rw [beginOpen_closed hs]
    exact calm_of_eq rfl rfl rfl
  · rw [beginOpen_refused hs]
    exact Calm.refl s

theorem leads_calm_finishOpen (address : String) (r : Except DebugError (Client τ × Handshake)) :
    Leads Calm (finishOpen address r : SessionM τ _) := by
  intro s
  rcases r with e | ⟨c, h⟩
  · rw [endState_finishOpen_error]
    exact calm_of_eq rfl rfl rfl
  · rw [endState_finishOpen_ok]
    exact calm_of_eq rfl rfl rfl

/-- Opening touches neither the breakpoints nor the events. -/
theorem leads_open (net : Network τ) (address : String) :
    Leads Calm («open» net address : SessionM τ _) :=
  leads_bind leads_calm_beginOpen fun _ => leads_bind leads_get fun _ =>
    leads_calm_finishOpen address _

end RemoteSession

end RemoteDebugger
