import RemoteDebugger.Proofs.Remote.StubLink

/-!
# Client operations against a byte-map stub

What each client request does to a `MemoryStub` behind a link at rest: reads return the stored
bytes, writes store them, and every other request leaves memory alone (`Client.Runs`).
-/

namespace RemoteDebugger

variable {σ : Type}

/-! ## Runs of state monads -/

/-- The state a run ends in, whether it succeeded or failed. -/
def endState {ε s α : Type} : EStateM.Result ε s α → s
  | .ok _ t => t
  | .error _ t => t

theorem bind_apply {ε σ α β : Type} (x : EStateM ε σ α) (f : α → EStateM ε σ β) (s : σ) :
    (x >>= f) s = match x s with
      | .ok a s => f a s
      | .error e s => .error e s := rfl

/-- A loop whose body always goes on, and takes a state satisfying `I` to `g x` of it, runs
the bodies one after another. -/
theorem forIn_yield {ε σ α : Type} (xs : List α) (f : α → PUnit → EStateM ε σ (ForInStep PUnit))
    (g : α → σ → σ) (I : σ → Prop)
    (hf : ∀ x s, I s → f x ⟨⟩ s = .ok (.yield ⟨⟩) (g x s) ∧ I (g x s)) (s : σ) (hs : I s) :
    forIn xs ⟨⟩ f s = .ok ⟨⟩ (xs.foldl (fun s x => g x s) s) := by
  induction xs generalizing s with
  | nil => rfl
  | cons x xs ih =>
    obtain ⟨hstep, hnext⟩ := hf x s hs
    rw [List.forIn_cons]
    simp only [bind, EStateM.bind, hstep]
    exact ih (g x s) hnext

/-- A loop whose every turn yields, with an accumulator and a state each changed by a function
of the element. -/
theorem forIn_yield_acc {ε σ α β : Type} (xs : List α) (b : β) (f : α → β → EStateM ε σ (ForInStep β))
    (g : σ → α → σ) (h : β → α → β) (hf : ∀ x b s, f x b s = .ok (.yield (h b x)) (g s x))
    (s : σ) : forIn xs b f s = .ok (xs.foldl h b) (xs.foldl g s) := by
  induction xs generalizing b s with
  | nil => rfl
  | cons x xs ih =>
    rw [List.forIn_cons]
    simp only [bind, EStateM.bind, hf]
    exact ih _ _

theorem Hex.parseU64_error {text : List UInt8} {e : WireError} (h : Hex.parseU64 text = .error e) :
    ∃ detail, e = .malformed detail := by
  unfold Hex.parseU64 at h
  split at h
  · cases h
    exact ⟨_, rfl⟩
  · split at h
    · cases h
    · cases h
      exact ⟨_, rfl⟩

theorem except_bind_error {ε α β : Type} {x : Except ε α} {f : α → Except ε β} {e : ε}
    (h : x >>= f = .error e) : x = .error e ∨ ∃ a, x = .ok a ∧ f a = .error e := by
  cases x with
  | error e' =>
    cases h
    exact .inl rfl
  | ok a => exact .inr ⟨a, rfl, h⟩

theorem threadOfFields_error {fields : List (List UInt8)} {e : WireError}
    (h : threadOfFields fields = .error e) : ∃ detail, e = .malformed detail := by
  induction fields with
  | nil => cases h
  | cons field rest ih =>
    -- past this field, only the fields that follow can fail
    have hrest : ∀ later : Option ThreadId,
        (do let last ← threadOfFields rest; pure (last.or later)) = Except.error e →
        ∃ detail, e = .malformed detail := by
      intro later hl
      rcases except_bind_error hl with ht | ⟨last, _, hlast⟩
      · exact ih ht
      · cases hlast
    rw [threadOfFields] at h
    split at h
    next name value _ =>
      split at h
      next =>
        rcases except_bind_error h with hp | ⟨id, _, hid⟩
        · exact Hex.parseU64_error hp
        · exact hrest (some id) hid
      next => exact hrest none h
    next => exact hrest none h

theorem StopEvent.parse_error {payload : List UInt8} {e : DebugError}
    (h : StopEvent.parse payload = .error e) : ∃ detail, e = .wire (.malformed detail) := by
  unfold StopEvent.parse at h
  split at h
  · cases h
    exact ⟨_, rfl⟩
  · split at h
    · cases h
      exact ⟨_, rfl⟩
    · split at h
      · cases h
        obtain ⟨d, rfl⟩ := Hex.parseU64_error ‹_›
        exact ⟨d, rfl⟩
      · -- the reason is read from the kind letter; only a thread field can fail after it
        simp only [] at h
        split at h
        next =>
          cases h
          exact ⟨_, rfl⟩
        next reason _ =>
          split at h
          · split at h
            · cases h
            · cases h
              obtain ⟨d, rfl⟩ := threadOfFields_error ‹_›
              exact ⟨d, rfl⟩
          · cases h
namespace Client

/-! ## Operations that leave memory alone -/

/-- How a client run from `c` ended, as far as the stub goes: a success leaves a link satisfying
`post`, a failure a quiet link, and neither touches the stub's memory. -/
def Ends {α : Type} (post : Link (MemoryStub σ) → Prop) (c : Client (MemoryStub σ)) :
    EStateM.Result DebugError (Client (MemoryStub σ)) α → Prop
  | .ok _ c' => post c'.link ∧ c'.link.transport.memory = c.link.transport.memory
  | .error _ c' => Link.Quiet c'.link ∧ c'.link.transport.memory = c.link.transport.memory

/-- A client operation that takes a link satisfying `pre` to one satisfying `post` and leaves the
stub's memory alone. -/
def Runs {α : Type} (pre post : Link (MemoryStub σ) → Prop) (m : ClientM (MemoryStub σ) α) :
    Prop :=
  ∀ c : Client (MemoryStub σ), pre c.link → Ends post c (m c)

section Runs

variable {α β : Type} {P Q R : Link (MemoryStub σ) → Prop}

theorem runs_pure (a : α) : Runs P P (pure a : ClientM (MemoryStub σ) α) :=
  fun _ hc => ⟨hc, rfl⟩

theorem runs_throw (e : DebugError) : Runs Link.Quiet P (throw e : ClientM (MemoryStub σ) α) :=
  fun _ hc => ⟨hc, rfl⟩

theorem Ends.trans {c c' : Client (MemoryStub σ)} {r : EStateM.Result DebugError _ α}
    (h : Ends P c' r) (hmem : c'.link.transport.memory = c.link.transport.memory) : Ends P c r := by
  cases r with
  | ok a d => exact ⟨h.1, h.2.trans hmem⟩
  | error e d => exact ⟨h.1, h.2.trans hmem⟩

theorem runs_bind {m : ClientM (MemoryStub σ) α} {f : α → ClientM (MemoryStub σ) β}
    (hm : Runs P Q m) (hf : ∀ a, Runs Q R (f a)) : Runs P R (m >>= f) := by
  intro c hc
  have hend := hm c hc
  cases h : m c with
  | ok a c' =>
    rw [h] at hend
    have hrun : (m >>= f) c = f a c' := by simp only [bind, EStateM.bind, h]
    rw [hrun]
    exact (hf a c' hend.1).trans hend.2
  | error e c' =>
    rw [h] at hend
    have hrun : (m >>= f) c = .error e c' := by simp only [bind, EStateM.bind, h]
    rw [hrun]
    exact hend

theorem runs_tryCatch {m : ClientM (MemoryStub σ) α} {h : DebugError → ClientM (MemoryStub σ) α}
    (hm : Runs P Q m) (hh : ∀ e, Runs Link.Quiet Q (h e)) : Runs P Q (tryCatch m h) := by
  intro c hc
  have hend := hm c hc
  cases hr : m c with
  | ok a c' =>
    rw [hr] at hend
    have hrun : tryCatch m h c = .ok a c' := by
      simp only [tryCatch, tryCatchThe, MonadExceptOf.tryCatch, EStateM.tryCatch, hr]
    rw [hrun]
    exact hend
  | error e c' =>
    rw [hr] at hend
    have hrun : tryCatch m h c = h e c' := by
      simp only [tryCatch, tryCatchThe, MonadExceptOf.tryCatch, EStateM.tryCatch, hr]
      rfl
    rw [hrun]
    exact (hh e c' hend.1).trans hend.2

theorem runs_map {m : ClientM (MemoryStub σ) α} (f : α → β) (hm : Runs P Q m) :
    Runs P Q (f <$> m) := by
  intro c hc
  have hend := hm c hc
  cases hr : m c with
  | ok a c' =>
    rw [hr] at hend
    have hrun : (f <$> m) c = .ok (f a) c' := by simp only [Functor.map, EStateM.map, hr]
    rw [hrun]
    exact hend
  | error e c' =>
    rw [hr] at hend
    have hrun : (f <$> m) c = .error e c' := by simp only [Functor.map, EStateM.map, hr]
    rw [hrun]
    exact hend

theorem runs_onLink_transact {request : List UInt8} (h : MemoryRequest.parse request = none) :
    Runs Link.Quiet Link.Quiet (onLink (Link.transact request) : ClientM (MemoryStub σ) _) := by
  intro c hc
  have hq : Link.Quiet { c.link with transport := (c.link.transport.answer request).1 } :=
    ⟨hc.decoder, hc.frames, hc.pending, by simp [hc.stubDecoder], by simp [hc.outbox]⟩
  have hmem : (c.link.transport.answer request).1.memory = c.link.transport.memory := by
    simp [MemoryStub.answer, h]
  unfold onLink
  rw [Link.transact_quiet hc request]
  cases (c.link.transport.answer request).2 with
  | none => exact ⟨hq, hmem⟩
  | some r => exact ⟨hq, hmem⟩

theorem runs_transact {request : List UInt8} (h : MemoryRequest.parse request = none) :
    Runs Link.Quiet Link.Quiet (transact request : ClientM (MemoryStub σ) _) := by
  unfold transact
  refine runs_bind (runs_onLink_transact h) fun reply => ?_
  split
  · exact runs_throw _
  · exact runs_pure _

theorem runs_expectOk {request : List UInt8} (h : MemoryRequest.parse request = none) :
    Runs Link.Quiet Link.Quiet (expectOk request : ClientM (MemoryStub σ) _) := by
  unfold expectOk
  refine runs_bind (runs_transact h) fun reply => ?_
  split
  · exact runs_throw _
  · exact runs_pure _

theorem parse_append_of_text {s : String} {b : UInt8} {bs : List UInt8}
    (hs : Client.text s = b :: bs) (hm : b ≠ 0x6d) (hM : b ≠ 0x4d) (rest : List UInt8) :
    MemoryRequest.parse (Client.text s ++ rest) = none := by
  rw [hs]
  exact MemoryRequest.parse_of_head hm hM _

theorem runs_readRegisters (thread : Option ThreadId) :
    Runs Link.Quiet Link.Quiet (readRegisters thread : ClientM (MemoryStub σ) _) := by
  have hg : MemoryRequest.parse (text "g") = none := by
    simpa using parse_append_of_text (by rw [Client.text_eq]; rfl) (by decide) (by decide) []
  unfold readRegisters
  cases thread <;> simp only []
  case' some t =>
    refine runs_bind (runs_expectOk ?_) fun _ => ?_
    rw [Client.text_append]
    exact parse_append_of_text (by rw [Client.text_eq]; rfl) (by decide) (by decide) _
  all_goals
    refine runs_bind (runs_transact hg) fun reply => ?_
    split
    · exact runs_throw _
    · split
      · exact runs_pure _
      · exact runs_throw _

theorem runs_writeRegisters (r : Registers) :
    Runs Link.Quiet Link.Quiet (writeRegisters r : ClientM (MemoryStub σ) _) := by
  unfold writeRegisters
  refine runs_tryCatch (runs_expectOk ?_) fun e => runs_throw _
  exact parse_append_of_text (by rw [Client.text_eq]; rfl) (by decide) (by decide) _

theorem runs_lastSignal : Runs Link.Quiet Link.Quiet (lastSignal : ClientM (MemoryStub σ) _) := by
  have hq : MemoryRequest.parse (text "?") = none := by
    simpa using parse_append_of_text (by rw [Client.text_eq]; rfl) (by decide) (by decide) []
  unfold lastSignal
  refine runs_bind (runs_transact hq) fun reply => ?_
  split
  · exact runs_pure _
  · exact runs_throw _

theorem runs_takeOutput : Runs Link.Quiet Link.Quiet (takeOutput : ClientM (MemoryStub σ) _) :=
  fun _ hc => ⟨hc, rfl⟩

theorem runs_targetDescription_go (fuel : Nat) (doc : Array UInt8) :
    Runs Link.Quiet Link.Quiet (targetDescription.go fuel doc : ClientM (MemoryStub σ) _) := by
  induction fuel generalizing doc with
  | zero => exact runs_pure _
  | succ fuel ih =>
    unfold targetDescription.go
    refine runs_bind (runs_transact ?_) fun reply => ?_
    · simp only [Client.text_append, List.append_assoc]
      exact parse_append_of_text (by rw [Client.text_eq]; rfl) (by decide) (by decide) _
    split
    · exact runs_pure _
    · exact ih _
    · exact runs_pure _
    · exact runs_pure _
    · exact runs_throw _

theorem runs_architecture : Runs Link.Quiet Link.Quiet (architecture : ClientM (MemoryStub σ) _) :=
  runs_map _ (runs_targetDescription_go _ _)

theorem runs_execPath : Runs Link.Quiet Link.Quiet (execPath : ClientM (MemoryStub σ) _) := by
  have hq : MemoryRequest.parse (text "qExecPath") = none := by
    simpa using parse_append_of_text (by rw [Client.text_eq]; rfl) (by decide) (by decide) []
  unfold execPath
  refine runs_bind (runs_tryCatch (runs_map _ (runs_transact hq)) fun e => ?_) fun reply => ?_
  · split
    · exact runs_pure _
    · exact runs_throw _
  · split
    · exact runs_pure _
    · exact runs_pure _
    · split
      · exact runs_pure _
      · exact runs_throw _

/-- A link to the stub at rest with at most one reply waiting. -/
def Waiting (l : Link (MemoryStub σ)) : Prop := ∃ reply, Link.Settled l reply

theorem runs_get : Runs P P (get : ClientM (MemoryStub σ) _) :=
  fun _ hc => ⟨hc, rfl⟩

theorem runs_onLink_send {request : List UInt8} (h : MemoryRequest.parse request = none) :
    Runs Link.Quiet Waiting (onLink (Link.send request) : ClientM (MemoryStub σ) _) := by
  intro c hc
  have hmem : (c.link.transport.answer request).1.memory = c.link.transport.memory := by
    simp [MemoryStub.answer, h]
  unfold onLink
  rw [Link.send_quiet hc request]
  exact ⟨⟨_, Link.settled_send hc request⟩, hmem⟩

theorem onLink_receive {c : Client (MemoryStub σ)} {reply : Option (List UInt8)}
    (hc : Link.Settled c.link reply) (e : Bool) :
    onLink (Link.receive e) c = .ok reply { c with link := { c.link with frames := [] } } := by
  simp only [onLink, Link.receive_settled hc e]

/-- With nothing waiting, a wait for a stop finds nothing. -/
theorem pollStop_go_quiet {c : Client (MemoryStub σ)} (hc : Link.Quiet c.link)
    (timeoutMs fuel : Nat) : pollStop.go timeoutMs fuel c = .ok none c := by
  cases fuel with
  | zero => rfl
  | succ fuel =>
    have hrecv := onLink_receive hc (decide (timeoutMs = 0))
    have hframes : { c with link := { c.link with frames := [] } } = c := by
      obtain ⟨l, t, o⟩ := c
      obtain ⟨tr, d, fr, p, r⟩ := l
      simp only at hc ⊢
      rw [show fr = [] from hc.frames]
    simp only [pollStop.go, bind, EStateM.bind, hrecv, hframes, pure, EStateM.pure]

/-- A wait for a stop over a settled link: the waiting reply is taken; program output is kept
and ends the wait, since nothing else has come; anything else is read as a stop reply. -/
theorem pollStop_go_settled {c : Client (MemoryStub σ)} {reply : Option (List UInt8)}
    (hc : Link.Settled c.link reply) (timeoutMs fuel : Nat) :
    pollStop.go timeoutMs (fuel + 1) c =
      let c0 := { c with link := { c.link with frames := [] } }
      match reply with
      | none => .ok none c0
      | some packet =>
        match consoleOutput packet with
        | some out => .ok none { c0 with output := c0.output.push out }
        | none =>
          match StopEvent.parse packet with
          | .ok e => .ok (some e) c0
          | .error e => .error e c0 := by
  have hrecv := onLink_receive hc (decide (timeoutMs = 0))
  have hq := Link.quiet_of_settled hc
  simp only [pollStop.go, bind, EStateM.bind, hrecv]
  cases reply with
  | none => rfl
  | some packet =>
    cases hco : consoleOutput packet with
    | some out =>
      simp only [hco, modify, modifyGet, MonadStateOf.modifyGet, EStateM.modifyGet, EStateM.bind]
      exact pollStop_go_quiet hq timeoutMs fuel
    | none =>
      cases hp : StopEvent.parse packet <;>
        simp only [hco, hp, pure, EStateM.pure, throw, throwThe, MonadExceptOf.throw, EStateM.throw]

theorem runs_pollStop_go (timeoutMs fuel : Nat) :
    Runs Waiting Link.Quiet (pollStop.go timeoutMs (fuel + 1) : ClientM (MemoryStub σ) _) := by
  rintro c ⟨reply, hc⟩
  have hq := Link.quiet_of_settled hc
  rw [pollStop_go_settled hc]
  cases reply with
  | none => exact ⟨hq, rfl⟩
  | some packet =>
    simp only []
    cases consoleOutput packet with
    | some out => exact ⟨hq, rfl⟩
    | none =>
      cases StopEvent.parse packet with
      | ok e => exact ⟨hq, rfl⟩
      | error e => exact ⟨hq, rfl⟩

/-- The only failure of a wait for a stop is a reply that is not a stop reply. -/
theorem pollStop_go_error {c c' : Client (MemoryStub σ)} {reply : Option (List UInt8)}
    (hc : Link.Settled c.link reply) {timeoutMs fuel : Nat} {e : DebugError}
    (h : pollStop.go timeoutMs (fuel + 1) c = .error e c') :
    ∃ packet, StopEvent.parse packet = .error e := by
  rw [pollStop_go_settled hc] at h
  cases reply with
  | none => cases h
  | some packet =>
    cases hco : consoleOutput packet with
    | some out => simp only [hco] at h; cases h
    | none =>
      cases hp : StopEvent.parse packet with
      | ok stop => simp only [hco, hp] at h; cases h
      | error e' =>
        simp only [hco, hp] at h
        cases h
        exact ⟨packet, hp⟩

/-- A wait for a stop over a link at rest: whatever was waiting is taken. -/
theorem runs_pollStop (timeoutMs : Nat) :
    Runs Waiting Link.Quiet (pollStop timeoutMs : ClientM (MemoryStub σ) _) := by
  intro c hc
  -- the budget counts the link's own read budget, which is at least one
  have hsupply : c.supply = (c.supply - 1) + 1 := by
    simp only [supply, Link.supply]
    omega
  simp only [pollStop, bind, EStateM.bind, get, getThe, MonadStateOf.get, EStateM.get]
  rw [hsupply]
  exact runs_pollStop_go timeoutMs _ c hc

/-- The only failure of a wait for a stop over a link at rest is a malformed stop reply; in
particular the stub never seems to hang up. -/
theorem pollStop_error {c c' : Client (MemoryStub σ)} (hc : Waiting c.link) {timeoutMs : Nat}
    {e : DebugError} (h : pollStop timeoutMs c = .error e c') :
    ∃ detail, e = .wire (.malformed detail) := by
  obtain ⟨reply, hs⟩ := hc
  have hsupply : c.supply = (c.supply - 1) + 1 := by
    simp only [supply, Link.supply]
    omega
  simp only [pollStop, bind, EStateM.bind, get, getThe, MonadStateOf.get, EStateM.get] at h
  rw [hsupply] at h
  obtain ⟨packet, hp⟩ := pollStop_go_error hs h
  exact StopEvent.parse_error hp

theorem runs_singleStep : Runs Link.Quiet Link.Quiet (singleStep : ClientM (MemoryStub σ) _) := by
  have hs : MemoryRequest.parse (text "s") = none := by
    simpa using parse_append_of_text (by rw [Client.text_eq]; rfl) (by decide) (by decide) []
  unfold singleStep
  refine runs_bind (runs_onLink_send hs) fun _ => runs_bind runs_get fun c =>
    runs_bind (runs_pollStop _) fun stop => ?_
  split
  · exact runs_pure _
  · exact runs_throw _

/-- Resuming leaves at most the target's stop waiting. -/
theorem runs_resume : Runs Link.Quiet Waiting (resume : ClientM (MemoryStub σ) _) := by
  have hc : MemoryRequest.parse (text "c") = none := by
    simpa using parse_append_of_text (by rw [Client.text_eq]; rfl) (by decide) (by decide) []
  exact runs_onLink_send hc

end Runs

/-! ## Memory transfers -/

theorem errorCode_of_length {reply : List UInt8} (h : reply.length ≠ 3) : errorCode reply = none := by
  unfold errorCode
  split
  · simp at h
  · rfl

theorem transact_readRequest {c : Client (MemoryStub σ)} (hc : Link.Quiet c.link) (a : UInt64) (n : Nat) :
    transact (text ("m" ++ Hex.natDigits a.toNat ++ "," ++ Hex.natDigits n)) c =
      .ok (Hex.digits (bytesAt c.link.transport.memory a n)) c := by
  have hanswer : c.link.transport.answer (text ("m" ++ Hex.natDigits a.toNat ++ "," ++ Hex.natDigits n)) =
      (c.link.transport, some (Hex.digits (bytesAt c.link.transport.memory a n))) := by
    rw [Client.text_readRequest]
    simp [MemoryStub.answer, MemoryRequest.parse_read]
  have hcode : errorCode (Hex.digits (bytesAt c.link.transport.memory a n)) = none :=
    errorCode_of_length (by simp only [Hex.length_digits]; omega)
  simp only [transact, bind, EStateM.bind, onLink, Link.transact_quiet hc, hanswer, hcode, pure, EStateM.pure]

theorem readMemory_go {c : Client (MemoryStub σ)} (hc : Link.Quiet c.link) (a : UInt64) (length : Nat) (fuel : Nat) :
    ∀ data : Array UInt8, data.toList = bytesAt c.link.transport.memory a data.size →
      length + 1 ≤ data.size + fuel →
      readMemory.go a length fuel data c = .ok (bytesAt c.link.transport.memory a length) c := by
  induction fuel with
  | zero =>
    intro data hdata hfuel
    simp only [readMemory.go, pure, EStateM.pure, hdata, take_bytesAt _ _ (show length ≤ data.size by omega)]
  | succ fuel ih =>
    intro data hdata hfuel
    by_cases hs : data.size ≥ length
    · simp only [readMemory.go, hs, if_true, pure, EStateM.pure, hdata, take_bytesAt _ _ hs]
    · -- one more piece of at least one byte, read at the end of what was read so far
      have hn : 0 < min (length - data.size) maxMemoryChunk := by
        simp only [maxMemoryChunk]
        omega
      have hbytes : bytesAt c.link.transport.memory (a + data.size.toUInt64)
          (min (length - data.size) maxMemoryChunk) ≠ [] := by
        rw [← List.length_pos_iff, length_bytesAt]
        exact hn
      have hnext := ih (data ++ (bytesAt c.link.transport.memory (a + data.size.toUInt64)
          (min (length - data.size) maxMemoryChunk)).toArray)
        (by simp only [Array.toList_append, hdata, Array.size_append,
              List.size_toArray, length_bytesAt, bytesAt_append])
        (by simp only [Array.size_append, List.size_toArray, length_bytesAt]; omega)
      simp only [readMemory.go, hs, if_false, bind, EStateM.bind, tryCatch, tryCatchThe,
        MonadExceptOf.tryCatch, EStateM.tryCatch, transact_readRequest hc, Hex.decode_digits]
      exact hnext

/-- Reading memory over a quiet link returns the stub's bytes, wrapping past the top, and
changes nothing. -/
theorem readMemory_quiet {c : Client (MemoryStub σ)} (hc : Link.Quiet c.link) (a : UInt64)
    (length : Nat) : readMemory a length c = .ok (bytesAt c.link.transport.memory a length) c :=
  readMemory_go hc a length (length + 1) #[] rfl (by simp)
/-- The client with the stub's memory replaced. -/
def withMemory (c : Client (MemoryStub σ)) (m : UInt64 → UInt8) : Client (MemoryStub σ) :=
  { c with link := { c.link with transport := { c.link.transport with memory := m } } }

theorem transact_writeRequest {c : Client (MemoryStub σ)} (hc : Link.Quiet c.link) (a : UInt64)
    (piece : List UInt8) :
    expectOk (text ("M" ++ Hex.natDigits a.toNat ++ "," ++ Hex.natDigits piece.length ++ ":") ++
        Hex.digits piece) c =
      .ok () (c.withMemory (storeAt c.link.transport.memory a piece)) := by
  have hanswer : c.link.transport.answer (text ("M" ++ Hex.natDigits a.toNat ++ "," ++
      Hex.natDigits piece.length ++ ":") ++ Hex.digits piece) =
      ({ c.link.transport with memory := storeAt c.link.transport.memory a piece }, some okReply) := by
    rw [Client.text_writeRequest]
    simp [MemoryStub.answer, MemoryRequest.parse_write]
  simp only [expectOk, transact, bind, EStateM.bind, onLink, Link.transact_quiet hc, hanswer, pure,
    okReply]
  rfl


theorem foldl_pieces (address : UInt64) (data : List UInt8) (k : Nat) (mem : UInt64 → UInt8)
    (h : data.length ≤ UInt64.size) :
    ((pieces (maxMemoryChunk - 1) data).zipIdx k).foldl
        (fun m x => storeAt m (address + (x.2 * maxMemoryChunk).toUInt64) x.1) mem =
      storeAt mem (address + (k * maxMemoryChunk).toUInt64) data := by
  fun_induction pieces (maxMemoryChunk - 1) data generalizing k mem with
  | case1 => simp
  | case2 b bs ih =>
    have hchunk : maxMemoryChunk - 1 + 1 = maxMemoryChunk := rfl
    rw [hchunk] at ih ⊢
    rw [List.zipIdx_cons, List.foldl_cons, ih (k + 1) _ (by simp only [List.length_drop]; omega)]
    by_cases hd : (b :: bs).drop maxMemoryChunk = []
    · -- the last piece is the whole rest
      have htake : (b :: bs).take maxMemoryChunk = b :: bs := by
        rw [← List.take_append_drop maxMemoryChunk (b :: bs), hd, List.append_nil, List.take_take,
          Nat.min_self]
      rw [hd, storeAt_nil, htake]
    · -- a full piece, and the next one starts right after it
      have hlen : ((b :: bs).take maxMemoryChunk).length = maxMemoryChunk := by
        have : maxMemoryChunk < (b :: bs).length := by
          apply Nat.lt_of_not_le
          intro hle
          exact hd (List.drop_eq_nil_of_le hle)
        simp only [List.length_take]
        omega
      have haddr : address + ((k + 1) * maxMemoryChunk).toUInt64 =
          address + (k * maxMemoryChunk).toUInt64 + ((b :: bs).take maxMemoryChunk).length.toUInt64 := by
        rw [hlen, Nat.succ_mul, Nat.toUInt64_eq, Nat.toUInt64_eq, Nat.toUInt64_eq, UInt64.ofNat_add,
          UInt64.add_assoc]
      have hfit : ((b :: bs).take maxMemoryChunk).length + ((b :: bs).drop maxMemoryChunk).length ≤
          UInt64.size := by
        simp only [List.length_take, List.length_drop]
        omega
      rw [haddr, storeAt_append _ _ _ hd hfit, List.take_append_drop]


@[simp] theorem withMemory_memory (c : Client (MemoryStub σ)) (m : UInt64 → UInt8) :
    (c.withMemory m).link.transport.memory = m := rfl

@[simp] theorem withMemory_withMemory (c : Client (MemoryStub σ)) (m m' : UInt64 → UInt8) :
    (c.withMemory m).withMemory m' = c.withMemory m' := rfl

theorem quiet_withMemory {c : Client (MemoryStub σ)} (hc : Link.Quiet c.link) (m : UInt64 → UInt8) :
    Link.Quiet (c.withMemory m).link :=
  ⟨hc.decoder, hc.frames, hc.pending, hc.stubDecoder, hc.outbox⟩

theorem foldl_withMemory {β : Type} (F : β → (UInt64 → UInt8) → UInt64 → UInt8) (xs : List β)
    (c : Client (MemoryStub σ)) :
    xs.foldl (fun c x => c.withMemory (F x c.link.transport.memory)) c =
      c.withMemory (xs.foldl (fun m x => F x m) c.link.transport.memory) := by
  induction xs generalizing c with
  | nil => rfl
  | cons x xs ih =>
    simp only [List.foldl_cons, ih, withMemory_withMemory, withMemory_memory]

/-- Writing memory over a quiet link stores the bytes from the address on, wrapping past the top,
piece after piece; the link stays quiet. -/
theorem writeMemory_quiet {c : Client (MemoryStub σ)} (hc : Link.Quiet c.link) (a : UInt64)
    (data : List UInt8) (h : data.length ≤ UInt64.size) :
    writeMemory a data c = .ok () (c.withMemory (storeAt c.link.transport.memory a data)) := by
  unfold writeMemory
  rw [bind_apply, forIn_yield _ _
    (fun x c => c.withMemory (storeAt c.link.transport.memory (a + (x.2 * maxMemoryChunk).toUInt64) x.1))
    (fun c => Link.Quiet c.link) ?step c hc]
  case step =>
    rintro ⟨piece, i⟩ s hs
    refine ⟨?_, quiet_withMemory hs _⟩
    simp only [bind, EStateM.bind, tryCatch, tryCatchThe, MonadExceptOf.tryCatch, EStateM.tryCatch,
      transact_writeRequest hs, pure, EStateM.pure]
  simp only [pure, EStateM.pure]
  rw [foldl_withMemory
      (fun (x : List UInt8 × Nat) m => storeAt m (a + (x.2 * maxMemoryChunk).toUInt64) x.1),
    foldl_pieces a data 0 _ h]
  simp

end Client

end RemoteDebugger
