import RemoteDebugger.Proofs.Remote.StopRules

/-!
# Sessions shared between callers

Callers and the poller interleave the locked sections of a session. Every operation but opening
and closing keeps its lifecycle phase (`KeepsPhase`); under serial use of `open` and `close` the
session follows its documented lifecycle (`serial_lifecycle`).
-/

namespace RemoteDebugger

/-- The moves of the documented lifecycle: `closed → opening → open → closing → closed`, and back
from opening to closed when the handshake fails. -/
def SessionState.moves : SessionState → SessionState → Bool
  | .closed, .opening => true
  | .opening, .opened => true
  | .opening, .closed => true
  | .opened, .closing => true
  | .closing, .closed => true
  | _, _ => false

namespace SessionCall

/-- Whether an operation holds the session from start to end: all but opening and closing. -/
def locksOnce {τ : Type} : SessionCall τ → Bool
  | .open .. => false
  | .close => false
  | _ => true

end SessionCall

/-- A call of `open` or `close` between its two locked sections. -/
inductive Midway (τ : Type) where
  /-- `open`, with the outcome of its handshake with the stub at `address`. -/
  | opening (address : String) (result : Except DebugError (Client τ × Handshake))
  /-- `close`, while the poller stops. -/
  | closing

/-- A session shared between callers: the session, and the calls of `open` and `close` that are
midway. -/
structure Shared (τ : Type) where
  session : RemoteSession τ
  midway : List (Midway τ)

/-- The kinds of locked section. -/
inductive LockedSection where
  /-- `open` is called: its first section. -/
  | openEnter
  /-- The second section of an `open` midway, after which it returns. -/
  | openLeave
  /-- `close` is called on a session neither closed nor closing: its first section. -/
  | closeEnter
  /-- `close` is called on a session closed or closing, and returns at once. -/
  | closeSkip
  /-- The second section of a `close` midway, after which it returns. -/
  | closeLeave
  /-- Any other operation, whole, or one round of the poller. -/
  | call
  deriving DecidableEq, Repr

namespace LockedSection

/-- Whether a call of `open` or `close` begins with this section. -/
def begins : LockedSection → Bool
  | .openEnter => true
  | .closeEnter => true
  | .closeSkip => true
  | _ => false

/-- Whether `close` returns at the end of this section; it always returns `ok`. -/
def closeReturns : LockedSection → Bool
  | .closeSkip => true
  | .closeLeave => true
  | _ => false

end LockedSection

namespace Shared

variable {τ : Type}

/-- A new session, with no call made yet. -/
def new (config : SessionConfig) : Shared τ := ⟨RemoteSession.new config, []⟩

/-- Steps of `R` one after another, from `c` to `c'`, with their kinds. -/
inductive Run (R : Shared τ → LockedSection → Shared τ → Prop) :
    Shared τ → List LockedSection → Shared τ → Prop
  | nil (c : Shared τ) : Run R c [] c
  | cons {c c' c'' : Shared τ} {ℓ : LockedSection} {ls : List LockedSection} :
      R c ℓ c' → Run R c' ls c'' → Run R c (ℓ :: ls) c''

/-- What every step keeps, every run keeps. -/
theorem Run.invariant {R : Shared τ → LockedSection → Shared τ → Prop} (I : Shared τ → Prop)
    (hs : ∀ c ℓ c', I c → R c ℓ c' → I c') {c c' : Shared τ} {ls : List LockedSection}
    (h : Run R c ls c') (hc : I c) : I c' := by
  induction h with
  | nil => exact hc
  | cons hstep _ ih => exact ih (hs _ _ _ hc hstep)

theorem Run.append {R : Shared τ → LockedSection → Shared τ → Prop} {c c' c'' : Shared τ}
    {ls ls' : List LockedSection} (h : Run R c ls c') (h' : Run R c' ls' c'') :
    Run R c (ls ++ ls') c'' := by
  induction h with
  | nil => exact h'
  | cons hstep _ ih => exact .cons hstep (ih h')

variable [Transport τ]

/-- One locked section of a caller or of the poller. The handshake of `open` holds no lock and
touches no part of the session: its outcome is fixed when `open` leaves its first section, and
taken in by its second. -/
inductive Step : Shared τ → LockedSection → Shared τ → Prop
  | openEnter {c : Shared τ} {s : RemoteSession τ} (net : Network τ) (address : String)
      (h : RemoteSession.beginOpen c.session = .ok () s) :
      Step c .openEnter ⟨s, .opening address (RemoteSession.handshake s.config net address) :: c.midway⟩
  | openRefused {c : Shared τ} {s : RemoteSession τ} {e : DebugError}
      (h : RemoteSession.beginOpen c.session = .error e s) : Step c .openEnter ⟨s, c.midway⟩
  | openLeave {c : Shared τ} {pre post : List (Midway τ)} {address : String}
      {result : Except DebugError (Client τ × Handshake)}
      (h : c.midway = pre ++ .opening address result :: post) :
      Step c .openLeave ⟨endState (RemoteSession.finishOpen address result c.session), pre ++ post⟩
  | closeEnter {c : Shared τ} {s : RemoteSession τ} (h : RemoteSession.beginClose c.session = .ok true s) :
      Step c .closeEnter ⟨s, .closing :: c.midway⟩
  | closeSkip {c : Shared τ} {s : RemoteSession τ} (h : RemoteSession.beginClose c.session = .ok false s) :
      Step c .closeSkip ⟨s, c.midway⟩
  | closeLeave {c : Shared τ} {pre post : List (Midway τ)} (h : c.midway = pre ++ .closing :: post) :
      Step c .closeLeave ⟨endState (RemoteSession.finishClose c.session), pre ++ post⟩
  | call {c : Shared τ} (op : SessionCall τ) (hop : op.locksOnce = true) :
      Step c .call ⟨endState (op.run c.session), c.midway⟩

/-- A step of serial use: a call of `open` or `close` begins only when no such call is midway. -/
def SerialStep (c : Shared τ) (ℓ : LockedSection) (c' : Shared τ) : Prop :=
  Step c ℓ c' ∧ (ℓ.begins = true → c.midway = [])

end Shared

namespace RemoteSession

variable {τ : Type} {α : Type}

/-! ## What the operations that lock once keep -/

/-- `s'` is where `s` is in the lifecycle, and has a connection only if `s` had one. -/
structure KeepsPhase (s s' : RemoteSession τ) : Prop where
  state : s'.state = s.state
  host : s.host = none → s'.host = none

instance : IsPreorder (RemoteSession τ) KeepsPhase where
  refl _ := ⟨rfl, id⟩
  trans _ _ _ h h' := ⟨h'.state.trans h.state, fun hn => h'.host (h.host hn)⟩

theorem keepsPhase_of_eq {s s' : RemoteSession τ} (hs : s'.state = s.state)
    (hh : s'.host = s.host) : KeepsPhase s s' :=
  ⟨hs, fun hn => hh.trans hn⟩

theorem leads_keepsPhase_onStore {β : Type} (f : BreakpointStore → BreakpointStore × β) :
    Leads KeepsPhase (onStore f : SessionM τ β) :=
  leads_onStore f fun _ => keepsPhase_of_eq rfl rfl

theorem leads_keepsPhase_publish (e : SessionEvent) : Leads KeepsPhase (publish e : SessionM τ _) :=
  leads_modify fun _ => keepsPhase_of_eq rfl rfl

theorem leads_keepsPhase_ensureStopped : Leads KeepsPhase (ensureStopped : SessionM τ _) :=
  leads_of_endState endState_ensureStopped

theorem leads_keepsPhase_ensureOpen : Leads KeepsPhase (ensureOpen : SessionM τ _) :=
  leads_of_endState endState_ensureOpen

variable [Transport τ]

/-- A request to the stub goes out only over a connection, which it keeps. -/
theorem leads_keepsPhase_onHost (m : ClientM τ α) : Leads KeepsPhase (onHost m) := by
  intro s
  cases hs : s.host with
  | none =>
    have hrun : onHost m s = .error .notConnected s := by simp [onHost, hs]
    rw [hrun]
    exact refl_of KeepsPhase s
  | some c =>
    rw [endState_onHost hs]
    refine ⟨rfl, fun h => ?_⟩
    rw [hs] at h
    cases h

/-- A request made only to a stopped target. -/
theorem leads_keepsPhase_guarded (m : ClientM τ α) :
    Leads KeepsPhase (ensureStopped >>= fun _ => onHost m) :=
  leads_bind leads_keepsPhase_ensureStopped fun _ => leads_keepsPhase_onHost m

theorem leads_keepsPhase_disarm (a : Address) : Leads KeepsPhase (disarm a : SessionM τ _) := by
  unfold disarm
  refine leads_bind leads_get fun s => ?_
  split
  · exact leads_throw _
  · exact leads_ite (leads_bind (leads_keepsPhase_onHost _) fun _ =>
      leads_discard (leads_keepsPhase_onStore _)) (leads_pure _)

theorem leads_keepsPhase_arm (a : Address) : Leads KeepsPhase (arm a : SessionM τ _) := by
  unfold arm
  exact leads_bind leads_get fun _ => leads_ite (leads_bind (leads_keepsPhase_onHost _) fun _ =>
    leads_discard (leads_keepsPhase_onStore _)) (leads_pure _)

theorem leads_keepsPhase_rewindTrap (stop : StopEvent) (resumed : Bool) :
    Leads KeepsPhase (rewindTrap stop resumed : SessionM τ _) := by
  unfold rewindTrap
  refine leads_bind (leads_keepsPhase_onHost _) fun regs => leads_bind leads_get fun s => ?_
  refine leads_ite (leads_pure _) (leads_bind leads_get fun s => leads_ite (leads_pure _) ?_)
  exact leads_bind (leads_keepsPhase_onHost _) fun _ =>
    leads_bind (leads_keepsPhase_onStore _) fun _ => leads_pure _

theorem leads_keepsPhase_removeTemporaries :
    Leads KeepsPhase (removeTemporaries : SessionM τ _) := by
  unfold removeTemporaries
  exact leads_bind leads_get fun _ => leads_bind (leads_forIn _ _ _ fun _ _ =>
    leads_bind (leads_discard (leads_attempt (leads_keepsPhase_disarm _))) fun _ =>
      leads_bind (leads_discard (leads_keepsPhase_onStore _)) fun _ => leads_pure _) fun _ =>
        leads_pure _

/-- Passing on the program output and then announcing an event, as taking in a stop ends. -/
theorem leads_keepsPhase_announce (e : SessionEvent) :
    Leads KeepsPhase (do
      let __do_lift ← get
      if __do_lift.host.isSome = true then do
          let output ← onHost Client.takeOutput
          forIn output PUnit.unit fun text __s => do
              publish (SessionEvent.output text)
              pure (ForInStep.yield PUnit.unit)
          publish e
        else do
          let output ← pure []
          forIn output PUnit.unit fun text __s => do
              publish (SessionEvent.output text)
              pure (ForInStep.yield PUnit.unit)
          publish e : SessionM τ Unit) := by
  have hout : ∀ output : List String, Leads KeepsPhase (forIn output PUnit.unit fun text _ =>
      (publish (SessionEvent.output text) >>= fun _ => pure (ForInStep.yield PUnit.unit) :
        SessionM τ (ForInStep PUnit))) :=
    fun _ => leads_forIn _ _ _ fun _ _ => leads_bind (leads_keepsPhase_publish _) fun _ => leads_pure _
  refine leads_bind leads_get fun _ => leads_ite ?_ ?_
  · exact leads_bind (leads_keepsPhase_onHost _) fun output =>
      leads_bind (hout output) fun _ => leads_keepsPhase_publish e
  · exact leads_bind (leads_pure _) fun output =>
      leads_bind (hout output) fun _ => leads_keepsPhase_publish e

theorem leads_keepsPhase_handleStop (stop : StopEvent) (resumed : Bool) :
    Leads KeepsPhase (handleStop stop resumed : SessionM τ _) := by
  unfold handleStop
  refine leads_bind (leads_modify fun _ => keepsPhase_of_eq rfl rfl) fun _ => ?_
  dsimp only
  split
  · refine leads_bind (leads_attempt (leads_keepsPhase_rewindTrap stop resumed)) fun _ => ?_
    refine leads_bind leads_keepsPhase_removeTemporaries fun _ => ?_
    split <;> exact leads_bind (leads_pure _) fun _ => leads_keepsPhase_announce _
  · refine leads_bind leads_get fun _ => leads_bind (leads_forIn _ _ _ fun _ _ =>
      leads_bind (leads_discard (leads_keepsPhase_onStore _)) fun _ => leads_pure _) fun _ => ?_
    exact leads_bind (leads_pure _) fun _ => leads_keepsPhase_announce _

theorem leads_keepsPhase_stepOverBreakpoint (pc : Address) :
    Leads KeepsPhase (stepOverBreakpoint pc : SessionM τ _) := by
  unfold stepOverBreakpoint
  refine leads_bind (leads_keepsPhase_disarm pc) fun _ => ?_
  refine leads_bind (leads_attempt (leads_keepsPhase_onHost Client.singleStep)) fun stepped => ?_
  dsimp only
  refine leads_ite (leads_bind (leads_keepsPhase_arm pc) fun _ => ?_) ?_ <;> split
  · exact leads_pure _
  · exact leads_throw _
  · exact leads_pure _
  · exact leads_throw _

theorem leads_keepsPhase_stepInstruction (pc : Address) :
    Leads KeepsPhase (stepInstruction pc : SessionM τ _) :=
  leads_bind leads_get fun _ =>
    leads_ite (leads_keepsPhase_stepOverBreakpoint pc) (leads_keepsPhase_onHost _)

theorem leads_keepsPhase_stepRound (start : Option SourcePosition)
    (position : Address → Option SourcePosition) (pc : Address) (executed : Nat) :
    Leads KeepsPhase (stepRound start position pc executed : SessionM τ _) := by
  unfold stepRound
  refine leads_bind (leads_keepsPhase_stepInstruction pc) fun stop => leads_bind leads_get fun s => ?_
  exact leads_ite (leads_pure _) (leads_bind (leads_keepsPhase_onHost _) fun regs =>
    leads_ite (leads_pure _) (leads_pure _))

theorem leads_keepsPhase_stepLoop (start : Option SourcePosition)
    (position : Address → Option SourcePosition) :
    ∀ fuel pc executed, Leads KeepsPhase (stepLoop start position fuel pc executed : SessionM τ _) := by
  intro fuel
  induction fuel with
  | zero =>
    intro pc executed
    rw [stepLoop]
    refine leads_bind (leads_keepsPhase_stepRound _ _ pc executed) fun r => ?_
    cases r <;> exact leads_pure _
  | succ fuel ih =>
    intro pc executed
    rw [stepLoop]
    refine leads_bind (leads_keepsPhase_stepRound _ _ pc executed) fun r => ?_
    cases r with
    | ends stop => exact leads_pure _
    | goesOn pc' => exact ih _ _

theorem leads_keepsPhase_step (thread : Option ThreadId) (position : Address → Option SourcePosition)
    (fuel : Nat) : Leads KeepsPhase (step thread position fuel : SessionM τ _) := by
  unfold step
  refine leads_bind leads_keepsPhase_ensureStopped fun _ => ?_
  refine leads_bind (leads_keepsPhase_onHost _) fun regs => ?_
  refine leads_bind (leads_keepsPhase_stepLoop _ _ _ _ _) fun r => ?_
  cases r with
  | none => exact leads_throw _
  | some stop =>
    exact leads_bind (leads_keepsPhase_handleStop _ _) fun _ =>
      leads_bind (leads_keepsPhase_publish _) fun _ => leads_pure _

theorem leads_keepsPhase_continueExecution :
    Leads KeepsPhase (continueExecution : SessionM τ _) := by
  unfold continueExecution
  refine leads_bind leads_keepsPhase_ensureStopped fun _ => ?_
  refine leads_bind (leads_keepsPhase_onHost _) fun regs => ?_
  dsimp only
  refine leads_bind leads_get fun _ => ?_
  have hresume : Leads KeepsPhase (do
      onHost Client.resume
      modify fun s : RemoteSession τ => { s with running := true }
      publish SessionEvent.continuing : SessionM τ Unit) :=
    leads_bind (leads_keepsPhase_onHost _) fun _ =>
      leads_bind (leads_modify fun _ => keepsPhase_of_eq rfl rfl) fun _ =>
        leads_keepsPhase_publish _
  refine leads_ite ?_ hresume
  refine leads_bind (leads_keepsPhase_stepOverBreakpoint _) fun stop => leads_bind leads_get fun _ => ?_
  exact leads_ite (leads_bind (leads_keepsPhase_handleStop _ _) fun _ => leads_pure _) hresume

theorem leads_keepsPhase_poll : Leads KeepsPhase (poll : SessionM τ _) := by
  unfold poll
  refine leads_bind leads_get fun s => leads_ite (leads_pure _) ?_
  refine leads_bind (leads_attempt (leads_keepsPhase_onHost _)) fun polled => ?_
  refine leads_bind (leads_keepsPhase_onHost _) fun _ => ?_
  refine leads_bind (leads_forIn _ _ _ fun _ _ =>
    leads_bind (leads_keepsPhase_publish _) fun _ => leads_pure _) fun _ => ?_
  split
  · exact leads_keepsPhase_handleStop _ _
  · exact leads_pure _
  · -- a stub that hung up leaves the session without a connection
    exact leads_modify fun _ => ⟨rfl, fun _ => rfl⟩
  · exact leads_pure _

/-- Every operation that holds the session from start to end keeps it where it is in its
lifecycle, and connects it to no stub. -/
theorem leads_keepsPhase_run (op : SessionCall τ) (hop : op.locksOnce = true) :
    Leads KeepsPhase op.run := by
  cases op with
  | «open» net address => exact nomatch hop
  | close => exact nomatch hop
  | startPolling =>
    exact leads_bind leads_keepsPhase_ensureOpen fun _ =>
      leads_modify fun _ => keepsPhase_of_eq rfl rfl
  | reportCurrentStop =>
    exact leads_discard (leads_bind leads_keepsPhase_ensureStopped fun _ =>
      leads_bind (leads_keepsPhase_onHost _) fun _ =>
        leads_bind (leads_keepsPhase_handleStop _ _) fun _ => leads_pure _)
  | addBreakpoint a kind =>
    refine leads_discard (leads_bind leads_keepsPhase_ensureStopped fun _ =>
      leads_bind leads_get fun _ => leads_ite (leads_keepsPhase_onStore _) ?_)
    refine leads_bind (leads_keepsPhase_onHost _) fun bytes => ?_
    split
    · exact leads_throw _
    · exact leads_bind (leads_keepsPhase_onHost _) fun _ => leads_keepsPhase_onStore _
  | removeBreakpoint a =>
    exact leads_bind leads_keepsPhase_ensureStopped fun _ =>
      leads_bind (leads_keepsPhase_disarm a) fun _ => leads_discard (leads_keepsPhase_onStore _)
  | step thread position fuel => exact leads_discard (leads_keepsPhase_step thread position fuel)
  | continueExecution => exact leads_keepsPhase_continueExecution
  | requestBreak =>
    exact leads_bind leads_keepsPhase_ensureOpen fun _ => leads_bind leads_get fun _ =>
      leads_ite (leads_keepsPhase_onHost _) (leads_pure _)
  | registers thread => exact leads_discard (leads_keepsPhase_guarded _)
  | readMemory a length =>
    exact leads_discard (leads_bind leads_keepsPhase_ensureStopped fun _ =>
      leads_bind (leads_keepsPhase_onHost _) fun _ => leads_bind leads_get fun _ => leads_pure _)
  | writeMemory a data =>
    refine leads_bind leads_keepsPhase_ensureStopped fun _ => leads_bind leads_get fun s => ?_
    refine leads_bind (leads_forIn _ _ _ fun b patched => ?_) fun _ => leads_keepsPhase_onHost _
    split
    · split
      · exact leads_bind (leads_discard (leads_keepsPhase_onStore _)) fun _ => leads_pure _
      · exact leads_pure _
    · exact leads_pure _
  | threads => exact leads_discard (leads_keepsPhase_guarded _)
  | lastSignal => exact leads_discard (leads_keepsPhase_guarded _)
  | poll => exact leads_keepsPhase_poll
  | takeEvents =>
    exact leads_discard (leads_get_bind fun _ => keepsPhase_of_eq rfl rfl)

/-! ## The sections of opening and closing -/

omit [Transport τ] in
@[simp] theorem config_new (config : SessionConfig) : (new config : RemoteSession τ).config = config :=
  rfl

theorem beginOpen_ok {s t : RemoteSession τ} {u : Unit} (h : beginOpen s = .ok u t) :
    s.state = .closed ∧ t = { s with state := .opening } := by
  by_cases hs : s.state = .closed
  · rw [beginOpen_closed hs] at h
    cases h
    exact ⟨hs, rfl⟩
  · rw [beginOpen_refused hs] at h
    cases h

theorem beginOpen_error {s t : RemoteSession τ} {e : DebugError} (h : beginOpen s = .error e t) :
    t = s := by
  by_cases hs : s.state = .closed
  · rw [beginOpen_closed hs] at h
    cases h
  · rw [beginOpen_refused hs] at h
    cases h
    rfl

theorem beginClose_true {s t : RemoteSession τ} (h : beginClose s = .ok true t) :
    s.state ≠ .closed ∧ s.state ≠ .closing ∧ t = { s with state := .closing, polling := false } := by
  rw [beginClose_apply] at h
  split at h
  · cases h
  · next hs =>
    cases h
    exact ⟨fun h => hs (.inl h), fun h => hs (.inr h), rfl⟩

theorem beginClose_live {s : RemoteSession τ} (hclosed : s.state ≠ .closed)
    (hclosing : s.state ≠ .closing) :
    beginClose s = .ok true { s with state := .closing, polling := false } := by
  rw [beginClose_apply, if_neg (by simp [hclosed, hclosing])]

theorem beginClose_false {s t : RemoteSession τ} (h : beginClose s = .ok false t) :
    (s.state = .closed ∨ s.state = .closing) ∧ t = s := by
  rw [beginClose_apply] at h
  split at h
  · next hs =>
    cases h
    exact ⟨hs, rfl⟩
  · cases h

/-- The second section of `open` leaves the session open over a connection, or closed with the
connection it had. -/
theorem finishOpen_phase (address : String) (r : Except DebugError (Client τ × Handshake))
    (s : RemoteSession τ) :
    ((endState (finishOpen address r s)).state = .opened ∧
        (endState (finishOpen address r s)).host.isSome = true) ∨
      ((endState (finishOpen address r s)).state = .closed ∧
        (endState (finishOpen address r s)).host = s.host) := by
  rcases r with e | ⟨c, h⟩
  · rw [endState_finishOpen_error]
    exact .inr ⟨rfl, rfl⟩
  · rw [endState_finishOpen_ok]
    exact .inl ⟨rfl, rfl⟩

/-- The second section of `close` never fails, and leaves the session closed without a
connection. -/
theorem finishClose_closes (s : RemoteSession τ) :
    ∃ t, finishClose s = .ok () t ∧ t.state = .closed ∧ t.host = none := by
  -- lifting each trap is attempted, so the loop over the breakpoints always goes on
  have hloop := fun (L : List Breakpoint) (u : RemoteSession τ) => forIn_yield L
    (fun b (_ : PUnit) => (discard (attempt (disarm b.address)) >>= fun _ =>
      pure (ForInStep.yield PUnit.unit) : SessionM τ (ForInStep PUnit)))
    (fun b u => endState (disarm b.address u)) (fun _ => True)
    (fun b t _ => ⟨by simp only [bind_apply, discard_apply, attempt_apply]; rfl, trivial⟩) u trivial
  unfold finishClose
  simp only [bind_apply, get_apply]
  split
  all_goals
    simp only [bind_apply, get_apply, hloop, discard_apply, onStore_apply]
    split
    · simp only [bind_apply, discard_apply, attempt_apply]
      exact ⟨_, rfl, rfl, rfl⟩
    · exact ⟨_, rfl, rfl, rfl⟩

theorem endState_finishClose (s : RemoteSession τ) :
    (endState (finishClose s)).state = .closed ∧ (endState (finishClose s)).host = none := by
  obtain ⟨t, ht, hstate, hhost⟩ := finishClose_closes s
  rw [ht]
  exact ⟨hstate, hhost⟩

end RemoteSession

namespace Shared

open RemoteSession

variable {τ : Type} {c c' c'' : Shared τ} {ℓ : LockedSection} {ls : List LockedSection}

/-- Closed, without a connection, and with no call of `open` or `close` midway. -/
structure Dormant (c : Shared τ) : Prop where
  state : c.session.state = .closed
  host : c.session.host = none
  midway : c.midway = []

/-- Where serial use can leave a session: with no call midway it is open, or closed without a
connection; with an `open` midway it is opening without a connection; with a `close` midway it is
closing. -/
def Orderly (c : Shared τ) : Prop :=
  match c.midway with
  | [] => c.session.state = .opened ∨ (c.session.state = .closed ∧ c.session.host = none)
  | [.opening _ _] => c.session.state = .opening ∧ c.session.host = none
  | [.closing] => c.session.state = .closing
  | _ => False

theorem orderly_new (config : SessionConfig) : (Shared.new config : Shared τ).Orderly :=
  .inr ⟨rfl, rfl⟩

/-- With nothing midway, an orderly session that is not open is dormant. -/
theorem Orderly.dormant (hc : c.Orderly) (hm : c.midway = []) (hs : c.session.state ≠ .opened) :
    c.Dormant := by
  unfold Orderly at hc
  rw [hm] at hc
  rcases hc with ho | ⟨hclosed, hhost⟩
  · exact absurd ho hs
  · exact ⟨hclosed, hhost, hm⟩

/-- An orderly session has at most one call midway. -/
theorem Orderly.length_le (hc : c.Orderly) : c.midway.length ≤ 1 := by
  unfold Orderly at hc
  split at hc
  next hm => simp [hm]
  next hm => simp [hm]
  next hm => simp [hm]
  next => exact hc.elim

/-- The one call midway of an orderly session is all there is midway. -/
theorem Orderly.midway_eq (hc : c.Orderly) {pre post : List (Midway τ)} {m : Midway τ}
    (h : c.midway = pre ++ m :: post) : pre = [] ∧ post = [] := by
  have hlen := hc.length_le
  rw [h, List.length_append, List.length_cons] at hlen
  exact ⟨List.length_eq_zero_iff.1 (by omega), List.length_eq_zero_iff.1 (by omega)⟩

variable [Transport τ]

/-! ## One section at a time, under any interleaving -/

/-- What one locked section does to the lifecycle, under any interleaving. Besides the documented
moves, a `close` may land on an `open` midway and move the session from opening to closing, and the
second section of `open` or of `close` makes the session open or closed, whatever became of it in
the meantime. -/
theorem Step.phase (h : Step c ℓ c') :
    c'.session.state = c.session.state ∨ c.session.state.moves c'.session.state = true ∨
      (ℓ = .closeEnter ∧ c.session.state = .opening ∧ c'.session.state = .closing) ∨
      (ℓ = .openLeave ∧ (c'.session.state = .opened ∨ c'.session.state = .closed)) ∨
      (ℓ = .closeLeave ∧ c'.session.state = .closed) := by
  cases h with
  | openEnter net address h =>
    obtain ⟨hs, rfl⟩ := beginOpen_ok h
    exact .inr (.inl (by simp [hs, SessionState.moves]))
  | openRefused h =>
    rw [beginOpen_error h]
    exact .inl rfl
  | openLeave _ =>
    rcases finishOpen_phase _ _ c.session with ⟨hs, -⟩ | ⟨hs, -⟩
    · exact .inr (.inr (.inr (.inl ⟨rfl, .inl hs⟩)))
    · exact .inr (.inr (.inr (.inl ⟨rfl, .inr hs⟩)))
  | closeEnter h =>
    obtain ⟨hclosed, hclosing, rfl⟩ := beginClose_true h
    cases hs : c.session.state with
    | closed => exact absurd hs hclosed
    | closing => exact absurd hs hclosing
    | opening => exact .inr (.inr (.inl ⟨rfl, rfl, rfl⟩))
    | opened => exact .inr (.inl rfl)
  | closeSkip h =>
    rw [(beginClose_false h).2]
    exact .inl rfl
  | closeLeave _ => exact .inr (.inr (.inr (.inr ⟨rfl, (endState_finishClose c.session).1⟩)))
  | call op hop => exact .inl (leads_keepsPhase_run op hop c.session).state

/-- A dormant session stays dormant until `open` is called, whoever else steps in. -/
theorem Dormant.step (hc : c.Dormant) (h : Step c ℓ c') (hℓ : ℓ ≠ .openEnter) : c'.Dormant := by
  cases h with
  | openEnter => exact absurd rfl hℓ
  | openRefused => exact absurd rfl hℓ
  | openLeave h =>
    have hm := hc.midway.symm.trans h
    simp at hm
  | closeEnter h => exact absurd hc.state (beginClose_true h).1
  | closeSkip h =>
    obtain ⟨-, rfl⟩ := beginClose_false h
    exact hc
  | closeLeave h =>
    have hm := hc.midway.symm.trans h
    simp at hm
  | call op hop =>
    have hk := leads_keepsPhase_run op hop c.session
    exact ⟨hk.state.trans hc.state, hk.host hc.host, hc.midway⟩

theorem Dormant.run {R : Shared τ → LockedSection → Shared τ → Prop}
    (hR : ∀ c ℓ c', R c ℓ c' → Step c ℓ c') (hc : c.Dormant) (h : Run R c ls c')
    (hls : ∀ ℓ ∈ ls, ℓ ≠ .openEnter) : c'.Dormant := by
  induction h with
  | nil => exact hc
  | cons hstep _ ih =>
    exact ih (hc.step (hR _ _ _ hstep) (hls _ (List.mem_cons_self ..)))
      fun ℓ hm => hls ℓ (List.mem_cons_of_mem _ hm)

/-! ## Serial use -/

/-- A call of `open` on a closed session with nothing midway, with no other section in between,
is `open` itself. -/
theorem SerialStep.open_alone (hm : c.midway = []) (hs : c.session.state = .closed)
    (net : Network τ) (address : String) :
    Run SerialStep c [.openEnter, .openLeave] ⟨endState («open» net address c.session), []⟩ := by
  have hend : endState («open» net address c.session) =
      endState (finishOpen address (handshake c.session.config net address)
        { c.session with state := .opening }) := by
    rw [open_apply, beginOpen_closed hs]
  rw [hend]
  refine .cons ⟨.openEnter net address (beginOpen_closed hs), fun _ => hm⟩ (.cons ⟨?_, nofun⟩ (.nil _))
  exact .openLeave (show _ = [] ++ _ :: [] by rw [hm]; rfl)

/-- A call of `close` on an open session with nothing midway, with no other section in between,
is `close` itself. -/
theorem SerialStep.close_alone (hm : c.midway = []) (hs : c.session.state = .opened) :
    Run SerialStep c [.closeEnter, .closeLeave] ⟨endState (close c.session), []⟩ := by
  have hbegin := beginClose_live (show c.session.state ≠ .closed by simp [hs]) (by simp [hs])
  have hend : endState (close c.session) =
      endState (finishClose { c.session with state := .closing, polling := false }) := by
    rw [close_apply, hbegin]
  rw [hend]
  refine .cons ⟨.closeEnter hbegin, fun _ => hm⟩ (.cons ⟨?_, nofun⟩ (.nil _))
  exact .closeLeave (show _ = [] ++ _ :: [] by rw [hm]; rfl)

/-- One serial step keeps a session orderly, and moves it only along the lifecycle. -/
theorem Orderly.step (hc : c.Orderly) (h : SerialStep c ℓ c') :
    c'.Orderly ∧ (c'.session.state = c.session.state ∨ c.session.state.moves c'.session.state = true) := by
  obtain ⟨hstep, hserial⟩ := h
  cases hstep with
  | openEnter net address h =>
    obtain ⟨hclosed, rfl⟩ := beginOpen_ok h
    have hd := hc.dormant (hserial rfl) (by simp [hclosed])
    refine ⟨?_, .inr (by simp [hclosed, SessionState.moves])⟩
    simpa [Orderly, hd.midway] using hd.host
  | openRefused h =>
    rw [beginOpen_error h]
    exact ⟨hc, .inl rfl⟩
  | @openLeave pre post address result hm =>
    obtain ⟨rfl, rfl⟩ := hc.midway_eq hm
    have hopening : c.session.state = .opening ∧ c.session.host = none := by
      simpa [Orderly, hm] using hc
    -- the handshake's outcome is taken in on the session its first section left
    rcases finishOpen_phase address result c.session with ⟨hs, -⟩ | ⟨hs, hh⟩
    · exact ⟨.inl hs, .inr (by simp [hs, hopening.1, SessionState.moves])⟩
    · exact ⟨.inr ⟨hs, hh.trans hopening.2⟩, .inr (by simp [hs, hopening.1, SessionState.moves])⟩
  | closeEnter h =>
    obtain ⟨hclosed, -, rfl⟩ := beginClose_true h
    have hm := hserial rfl
    have hopen : c.session.state = .opened := by
      by_contra hne
      exact hclosed (hc.dormant hm hne).state
    refine ⟨?_, .inr (by simp [hopen, SessionState.moves])⟩
    simp only [Orderly, hm]
  | closeSkip h =>
    rw [(beginClose_false h).2]
    exact ⟨hc, .inl rfl⟩
  | @closeLeave pre post hm =>
    obtain ⟨rfl, rfl⟩ := hc.midway_eq hm
    have hclosing : c.session.state = .closing := by simpa [Orderly, hm] using hc
    obtain ⟨hs, hh⟩ := endState_finishClose c.session
    exact ⟨.inr ⟨hs, hh⟩, .inr (by simp [hs, hclosing, SessionState.moves])⟩
  | call op hop =>
    have hk := leads_keepsPhase_run op hop c.session
    refine ⟨?_, .inl hk.state⟩
    unfold Orderly at hc ⊢
    dsimp only
    split at hc
    · rcases hc with ho | ⟨hclosed, hhost⟩
      · exact .inl (hk.state.trans ho)
      · exact .inr ⟨hk.state.trans hclosed, hk.host hhost⟩
    · exact ⟨hk.state.trans hc.1, hk.host hc.2⟩
    · exact hk.state.trans hc
    · exact hc

/-- Every session that serial use reaches from a new one is orderly. -/
theorem orderly_of_run {config : SessionConfig} (h : Run SerialStep (Shared.new config) ls c) :
    c.Orderly :=
  h.invariant Orderly (fun _ _ _ hc hstep => (hc.step hstep).1) (orderly_new config)

/-- When `close` returns under serial use, the session is dormant. -/
theorem Orderly.dormant_of_closeReturns (hc : c.Orderly) (h : SerialStep c ℓ c')
    (hℓ : ℓ.closeReturns = true) : c'.Dormant := by
  obtain ⟨hstep, hserial⟩ := h
  cases hstep with
  | closeSkip h =>
    obtain ⟨hs, rfl⟩ := beginClose_false h
    have hm := hserial rfl
    have hd : c.session.state ≠ .opened := by rcases hs with hs | hs <;> simp [hs]
    exact hc.dormant hm hd
  | @closeLeave pre post hm =>
    obtain ⟨rfl, rfl⟩ := hc.midway_eq hm
    obtain ⟨hs, hh⟩ := endState_finishClose c.session
    exact ⟨hs, hh, rfl⟩
  | openEnter => exact nomatch hℓ
  | openRefused => exact nomatch hℓ
  | openLeave => exact nomatch hℓ
  | closeEnter => exact nomatch hℓ
  | call => exact nomatch hℓ

/-- Serial use follows the documented lifecycle. Take any run of locked sections from a new
session in which a call of `open` or `close` begins only when no such call is midway, the poller
and the other operations coming anywhere, and any one step of it. The step keeps the session's
state or moves it along `closed → opening → open → closing → closed` or `opening → closed`; and if
`close` returns there, the session is closed without a connection after every later run of
sections in which `open` is not called. -/
theorem serial_lifecycle {config : SessionConfig} {ls ls' : List LockedSection}
    (hrun : Run SerialStep (Shared.new config) ls c) (hstep : SerialStep c ℓ c')
    (hrest : Run SerialStep c' ls' c'') :
    (c'.session.state = c.session.state ∨ c.session.state.moves c'.session.state = true) ∧
      (ℓ.closeReturns = true → (∀ ℓ' ∈ ls', ℓ' ≠ .openEnter) →
        c''.session.state = .closed ∧ c''.session.host = none) := by
  have hc := orderly_of_run hrun
  refine ⟨(hc.step hstep).2, fun hℓ hls => ?_⟩
  have hd := (hc.dormant_of_closeReturns hstep hℓ).run (fun _ _ _ h => h.1) hrest hls
  exact ⟨hd.state, hd.host⟩

/-! ## On a concrete stub -/

/-- The handshake with `pageStub` goes through. -/
theorem handshake_pageNetwork :
    ∃ client hs, handshake ({} : SessionConfig) pageNetwork "127.0.0.1:1" = .ok (client, hs) := by
  have hok : (handshake ({} : SessionConfig) pageNetwork "127.0.0.1:1").isOk = true := by
    decide +kernel
  cases h : handshake ({} : SessionConfig) pageNetwork "127.0.0.1:1" with
  | ok ch => exact ⟨ch.1, ch.2, rfl⟩
  | error e =>
    rw [h] at hok
    cases hok

/-- Opening a new session over `pageNetwork`, closing it, and a round of the poller, one call
after another. -/
theorem serial_lifecycle_openClose :
    ∃ c₃ c₄ c₅ : Shared (RecordingStub Unit),
      Run SerialStep (Shared.new {}) [.openEnter, .openLeave, .closeEnter] c₃ ∧
      SerialStep c₃ .closeLeave c₄ ∧ Run SerialStep c₄ [.call] c₅ ∧
      ((c₄.session.state = c₃.session.state ∨ c₃.session.state.moves c₄.session.state = true) ∧
        (LockedSection.closeLeave.closeReturns = true →
          (∀ ℓ' ∈ [LockedSection.call], ℓ' ≠ .openEnter) →
          c₅.session.state = .closed ∧ c₅.session.host = none)) := by
  obtain ⟨client, hs, hr⟩ := handshake_pageNetwork
  have hopen := SerialStep.open_alone
    (show (Shared.new {} : Shared (RecordingStub Unit)).midway = [] from rfl) rfl pageNetwork
    "127.0.0.1:1"
  have hopened : (endState («open» pageNetwork "127.0.0.1:1"
      (RemoteSession.new {} : RemoteSession (RecordingStub Unit)))).state = .opened := by
    rw [open_apply, beginOpen_closed rfl]
    dsimp only
    rw [config_new, hr]
    rfl
  have hclose := SerialStep.close_alone
    (show (⟨_, []⟩ : Shared (RecordingStub Unit)).midway = [] from rfl) hopened
  rcases hclose with _ | ⟨h₃, _ | ⟨h₄, _ | _⟩⟩
  refine ⟨_, _, _, hopen.append (.cons h₃ (.nil _)), h₄, .cons ⟨.call .poll rfl, nofun⟩ (.nil _), ?_⟩
  exact serial_lifecycle (hopen.append (.cons h₃ (.nil _))) h₄
    (.cons ⟨.call .poll rfl, nofun⟩ (.nil _))

/-- Serial use is needed. A `close` that lands while `open` is midway moves the session from
opening to closing, which is no move of the lifecycle; `close` returns with the session closed;
and the `open`, leaving, makes it open over a connection, though `open` was not called again. -/
theorem close_overtaken_by_open :
    ∃ c₁ c₂ c₃ c₄ : Shared (RecordingStub Unit),
      Step (Shared.new {}) .openEnter c₁ ∧ Step c₁ .closeEnter c₂ ∧ Step c₂ .closeLeave c₃ ∧
      Step c₃ .openLeave c₄ ∧
      c₁.session.state.moves c₂.session.state = false ∧ c₂.session.state ≠ c₁.session.state ∧
      c₃.session.state = .closed ∧ c₄.session.state = .opened ∧ c₄.session.host.isSome = true := by
  obtain ⟨client, hs, hr⟩ := handshake_pageNetwork
  have h₁ := Step.openEnter pageNetwork "127.0.0.1:1"
    (beginOpen_closed (show (Shared.new {} : Shared (RecordingStub Unit)).session.state = .closed
      from rfl))
  refine ⟨_, _, _, _, h₁, .closeEnter (beginClose_live (by decide) (by decide)),
    .closeLeave (show _ = [] ++ _ :: _ from rfl),
    .openLeave (show _ = [] ++ _ :: [] from rfl), rfl, by decide, (endState_finishClose _).1, ?_⟩
  dsimp only [Shared.new, config_new]
  rw [hr]
  exact ⟨rfl, rfl⟩

end Shared

end RemoteDebugger
