import RemoteDebugger.Proofs.Remote.RecordingStub
import RemoteDebugger.Proofs.Remote.StubClient

/-!
# Client operations against a recording stub

What each client request does to a `RecordingStub` behind a link at rest, and `Client.Leaves`,
what a run leaves of the stub and which requests it recorded.
-/

namespace RemoteDebugger

variable {σ : Type}

/-- The client with the transport behind its link replaced. -/
def Client.withTransport {τ : Type} (c : Client τ) (t : τ) : Client τ :=
  { c with link := { c.link with transport := t } }

/-- The bytes of a request for the `n` bytes at `a`. -/
def readRequest (a : UInt64) (n : Nat) : List UInt8 :=
  Client.text ("m" ++ Hex.natDigits a.toNat ++ "," ++ Hex.natDigits n)

/-- The bytes of a request to store `data` at `a`. -/
def writeRequest (a : UInt64) (data : List UInt8) : List UInt8 :=
  Client.text ("M" ++ Hex.natDigits a.toNat ++ "," ++ Hex.natDigits data.length ++ ":") ++
    Hex.digits data

/-- A request that lets the target run: a single step or a continue. -/
def Moves (q : List UInt8) : Prop := q = Client.text "s" ∨ q = Client.text "c"

/-- The stop an answer to `s` reports, as the client takes it: none for no answer, for program
output (after which nothing more comes), or for an answer that is not a stop reply. -/
def stopOf : Option (List UInt8) → Option StopEvent
  | some p => if (Client.consoleOutput p).isSome then none else (StopEvent.parse p).toOption
  | none => none

/-- The registers an answer to `g` gives, as the client reads them. -/
def registersOf : Option (List UInt8) → Option Registers
  | some r =>
    if (Client.errorCode r).isSome then none
    else
      match Hex.decode r with
      | .ok bytes => (Registers.ofGdbBytes bytes).toOption
      | .error _ => none
  | none => none

theorem text_s : Client.text "s" = [0x73] := by rw [Client.text_eq]; rfl

theorem text_c : Client.text "c" = [0x63] := by rw [Client.text_eq]; rfl

/-- A request whose first byte is neither `s` nor `c`, or that goes on after it, does not let the
target run. -/
theorem not_moves_of_head {b : UInt8} {bs : List UInt8} (hs : b ≠ 0x73 ∨ bs ≠ [])
    (hc : b ≠ 0x63 ∨ bs ≠ []) : ¬ Moves (b :: bs) := by
  rintro (h | h) <;> simp_all [text_s, text_c]

theorem writeRequest_not_moves (a : UInt64) (data : List UInt8) : ¬ Moves (writeRequest a data) := by
  rw [writeRequest, Client.text_writeRequest]
  exact not_moves_of_head (.inl (by decide)) (.inl (by decide))

theorem readRequest_not_moves (a : UInt64) (n : Nat) : ¬ Moves (readRequest a n) := by
  rw [readRequest, Client.text_readRequest]
  exact not_moves_of_head (.inl (by decide)) (.inl (by decide))

namespace RecordingStub

/-! ## Answers -/

theorem answer_writeRequest (t : RecordingStub σ) (a : UInt64) (data : List UInt8) :
    t.answer (writeRequest a data) =
      if allMapped t.mapped a data.length then ({ t with memory := storeAt t.memory a data }, some okReply)
      else (t, some unmappedReply) := by
  rw [writeRequest, Client.text_writeRequest]
  simp only [answer, MemoryRequest.parse_write]

theorem answer_readRequest (t : RecordingStub σ) (a : UInt64) (n : Nat) :
    t.answer (readRequest a n) =
      if allMapped t.mapped a n then (t, some (Hex.digits (bytesAt t.memory a n)))
      else (t, some unmappedReply) := by
  rw [readRequest, Client.text_readRequest]
  simp only [answer, MemoryRequest.parse_read]

/-- What a write leaves in memory: the bytes stored when all are mapped, nothing new otherwise. -/
theorem handle_writeRequest_memory (t : RecordingStub σ) (a : UInt64) (data : List UInt8) :
    (t.handle (writeRequest a data)).memory =
      if allMapped t.mapped a data.length then storeAt t.memory a data else t.memory := by
  simp only [handle, answer_writeRequest]
  split <;> rfl

theorem handle_readRequest_memory (t : RecordingStub σ) (a : UInt64) (n : Nat) :
    (t.handle (readRequest a n)).memory = t.memory := by
  simp only [handle, answer_readRequest]
  split <;> rfl

theorem allMapped_one (mapped : UInt64 → Bool) (a : UInt64) : allMapped mapped a 1 = mapped a := by
  simp [allMapped]

/-! ## Requests over a quiet link -/

variable {c : Client (RecordingStub σ)}

theorem quiet_handle (hc : Quiet c.link) (p : List UInt8) :
    Quiet (c.withTransport (c.link.transport.handle p)).link :=
  quiet_transport hc (by simp [hc.stubDecoder]) (by simp [hc.outbox])

theorem transact_run (hc : Quiet c.link) (p : List UInt8) :
    Client.transact p c =
      match (c.link.transport.answer p).2 with
      | some r =>
        match Client.errorCode r with
        | some code => .error (.wire (.remote code)) (c.withTransport (c.link.transport.handle p))
        | none => .ok r (c.withTransport (c.link.transport.handle p))
      | none => .error (.wire (.timeout "reply")) (c.withTransport (c.link.transport.handle p)) := by
  simp only [Client.transact, bind, EStateM.bind, Client.onLink, transact_quiet hc p]
  cases (c.link.transport.answer p).2 with
  | none => rfl
  | some r =>
    cases h : Client.errorCode r <;>
      simp [h, throw, throwThe, MonadExceptOf.throw, EStateM.throw, pure, EStateM.pure,
        Client.withTransport]

theorem expectOk_run (hc : Quiet c.link) (p : List UInt8) :
    (Client.expectOk p c = .ok () (c.withTransport (c.link.transport.handle p)) ∧
        (c.link.transport.answer p).2 = some okReply) ∨
      ∃ e, Client.expectOk p c = .error e (c.withTransport (c.link.transport.handle p)) ∧
        (c.link.transport.answer p).2 ≠ some okReply := by
  have ht := transact_run hc p
  simp only [Client.expectOk, bind, EStateM.bind, ht]
  cases hr : (c.link.transport.answer p).2 with
  | none => exact .inr ⟨_, rfl, (Option.some_ne_none okReply).symm⟩
  | some r =>
    cases he : Client.errorCode r with
    | some code =>
      refine .inr ⟨.wire (.remote code), by simp only [he], ?_⟩
      rintro ⟨⟩
      simp [Client.errorCode, okReply] at he
    | none =>
      by_cases hok : r = okReply
      · subst hok
        exact .inl ⟨by simp [Client.errorCode, okReply, pure, EStateM.pure], rfl⟩
      · refine .inr ⟨Client.unexpected p r, ?_, fun h => hok (Option.some.inj h)⟩
        simp only [okReply] at hok
        simp [he, hok, throw, throwThe, MonadExceptOf.throw, EStateM.throw]

/-- One piece of a write: stored when all its bytes are mapped, refused otherwise; either way it
is recorded and the link is quiet again. -/
theorem expectOk_writeRequest (hc : Quiet c.link) (a : UInt64) (data : List UInt8) :
    if allMapped c.link.transport.mapped a data.length then
      Client.expectOk (writeRequest a data) c =
        .ok () (c.withTransport (c.link.transport.handle (writeRequest a data)))
    else ∃ e, Client.expectOk (writeRequest a data) c =
        .error e (c.withTransport (c.link.transport.handle (writeRequest a data))) := by
  have hans := answer_writeRequest c.link.transport a data
  rcases expectOk_run hc (writeRequest a data) with ⟨hok, _⟩ | ⟨e, herr, hne⟩
  · split
    · exact hok
    · next hm =>
      rw [hans, if_neg hm] at *
      simp_all [unmappedReply, okReply]
  · split
    · next hm =>
      rw [hans, if_pos hm] at hne
      exact absurd rfl hne
    · exact ⟨e, herr⟩

/-! ## Registers -/

/-- Reading the current thread's registers records `g` with its answer, and gives the registers
that answer holds, if it holds any. -/
theorem readRegisters_run (hc : Quiet c.link) :
    match registersOf (c.link.transport.answer (Client.text "g")).2 with
    | some regs =>
      Client.readRegisters none c = .ok regs (c.withTransport (c.link.transport.handle (Client.text "g")))
    | none =>
      ∃ e, Client.readRegisters none c = .error e (c.withTransport (c.link.transport.handle (Client.text "g"))) := by
  have ht := transact_run hc (Client.text "g")
  simp only [Client.readRegisters, bind, EStateM.bind, pure, ht]
  cases (c.link.transport.answer (Client.text "g")).2 with
  | none => exact ⟨_, rfl⟩
  | some r =>
    simp only [registersOf]
    cases he : Client.errorCode r with
    | some code => exact ⟨_, rfl⟩
    | none =>
      simp only [Option.isSome_none, Bool.false_eq_true, if_false]
      cases hd : Hex.decode r with
      | error e => exact ⟨_, rfl⟩
      | ok bytes =>
        cases hr : Registers.ofGdbBytes bytes with
        | error e =>
          simp only [hr, Except.toOption]
          exact ⟨_, rfl⟩
        | ok regs =>
          simp only [hr, Except.toOption]
          rfl

/-! ## Steps and continues -/

theorem onLink_receive {reply : Option (List UInt8)} (hc : Settled c.link reply) (e : Bool) :
    Client.onLink (Link.receive e) c = .ok reply { c with link := { c.link with frames := [] } } := by
  simp only [Client.onLink, receive_settled hc e]

theorem pollStop_go_quiet (hc : Quiet c.link) (timeoutMs fuel : Nat) :
    Client.pollStop.go timeoutMs fuel c = .ok none c := by
  cases fuel with
  | zero => rfl
  | succ fuel =>
    have hrecv := onLink_receive hc (decide (timeoutMs = 0))
    have hframes : { c with link := { c.link with frames := [] } } = c := by
      obtain ⟨l, t, o⟩ := c
      obtain ⟨tr, d, fr, p, r⟩ := l
      simp only at hc ⊢
      rw [show fr = [] from hc.frames]
    simp only [Client.pollStop.go, bind, EStateM.bind, hrecv, hframes, pure, EStateM.pure]

/-- A wait for a stop over a settled link: the waiting reply is taken; program output is kept
and ends the wait, since nothing else has come; anything else is read as a stop reply. -/
theorem pollStop_go_settled {reply : Option (List UInt8)} (hc : Settled c.link reply)
    (timeoutMs fuel : Nat) :
    Client.pollStop.go timeoutMs (fuel + 1) c =
      let c0 := { c with link := { c.link with frames := [] } }
      match reply with
      | none => .ok none c0
      | some packet =>
        match Client.consoleOutput packet with
        | some out => .ok none { c0 with output := c0.output.push out }
        | none =>
          match StopEvent.parse packet with
          | .ok e => .ok (some e) c0
          | .error e => .error e c0 := by
  have hrecv := onLink_receive hc (decide (timeoutMs = 0))
  have hq := quiet_of_settled hc
  simp only [Client.pollStop.go, bind, EStateM.bind, hrecv]
  cases reply with
  | none => rfl
  | some packet =>
    cases hco : Client.consoleOutput packet with
    | some out =>
      simp only [hco, modify, modifyGet, MonadStateOf.modifyGet, EStateM.modifyGet, EStateM.bind]
      exact pollStop_go_quiet hq timeoutMs fuel
    | none =>
      cases hp : StopEvent.parse packet <;>
        simp only [hco, hp, pure, EStateM.pure, throw, throwThe, MonadExceptOf.throw, EStateM.throw]

/-- A single step records `s` with the target's answer and returns the stop that answer
reports; without one it fails. The link is quiet afterwards. -/
theorem singleStep_run (hc : Quiet c.link) :
    ∃ c', Quiet c'.link ∧ c'.link.transport = c.link.transport.handle (Client.text "s") ∧
      match stopOf (c.link.transport.answer (Client.text "s")).2 with
      | some e => Client.singleStep c = .ok e c'
      | none => ∃ err, Client.singleStep c = .error err c' := by
  obtain ⟨reply, hrep⟩ : ∃ r, (c.link.transport.answer (Client.text "s")).2 = r := ⟨_, rfl⟩
  obtain ⟨c1, hc1⟩ : ∃ c1 : Client (RecordingStub σ),
      c1 = { c with link := { c.link with transport := c.link.transport.handle (Client.text "s"),
                                          frames := (reply.map Packet.Frame.packet).toList } } :=
    ⟨_, rfl⟩
  have hsend : Client.onLink (Link.send (Client.text "s")) c = .ok () c1 := by
    simp only [Client.onLink, send_quiet hc, hc1, hrep]
  have hs1 : Settled c1.link reply := by
    rw [hc1, ← hrep]
    exact settled_send hc (Client.text "s")
  have hstub : c1.link.transport = c.link.transport.handle (Client.text "s") := by rw [hc1]
  -- the wait's budget counts the link's own read budget, which is at least one
  have hsupply : c1.supply = (c1.supply - 1) + 1 := by
    simp only [Client.supply, Link.supply]
    omega
  have hpoll : Client.pollStop c1.timeout c1 = Client.pollStop.go c1.timeout (c1.supply - 1 + 1) c1 := by
    simp only [Client.pollStop, bind, EStateM.bind, get, getThe, MonadStateOf.get, EStateM.get]
    rw [← hsupply]
  rw [hrep]
  simp only [Client.singleStep, bind, EStateM.bind, hsend, get, getThe, MonadStateOf.get,
    EStateM.get, hpoll]
  rw [pollStop_go_settled hs1]
  have hq0 := quiet_of_settled hs1
  let c0 := { c1 with link := { c1.link with frames := [] } }
  cases reply with
  | none =>
    refine ⟨c0, hq0, hstub, ?_⟩
    exact ⟨_, rfl⟩
  | some packet =>
    simp only [stopOf]
    cases hco : Client.consoleOutput packet with
    | some out =>
      refine ⟨{ c0 with output := c0.output.push out }, hq0, hstub, ?_⟩
      simp only [Option.isSome_some, if_true]
      exact ⟨_, rfl⟩
    | none =>
      refine ⟨c0, hq0, hstub, ?_⟩
      simp only [Option.isSome_none, Bool.false_eq_true, if_false]
      cases hp : StopEvent.parse packet with
      | ok e => rfl
      | error e => exact ⟨_, rfl⟩

/-- Resuming records `c` and leaves its answer, if any, waiting. -/
theorem resume_run (hc : Quiet c.link) :
    Client.resume c = .ok () { c with link := { c.link with
      transport := c.link.transport.handle (Client.text "c"),
      frames := ((c.link.transport.answer (Client.text "c")).2.map Packet.Frame.packet).toList } } := by
  simp only [Client.resume, Client.onLink, send_quiet hc]

/-! ## What a run leaves -/

/-- What a client run from `c` left in `c'`: the link at rest again, the same memory mapped, and
only requests satisfying `P` recorded since. -/
structure Leaves (P : List UInt8 → Prop) (c c' : Client (RecordingStub σ)) : Prop where
  quiet : Quiet c'.link
  mapped : c'.link.transport.mapped = c.link.transport.mapped
  sent : ∃ new, c'.link.transport.transcript = c.link.transport.transcript ++ new ∧ ∀ q ∈ new, P q.1

theorem Leaves.refl {P : List UInt8 → Prop} (hc : Quiet c.link) : Leaves P c c :=
  ⟨hc, rfl, [], by simp, by simp⟩

theorem Leaves.trans {P : List UInt8 → Prop} {c' c'' : Client (RecordingStub σ)} (h : Leaves P c c')
    (h' : Leaves P c' c'') : Leaves P c c'' := by
  obtain ⟨n1, h1, p1⟩ := h.sent
  obtain ⟨n2, h2, p2⟩ := h'.sent
  refine ⟨h'.quiet, h'.mapped.trans h.mapped, n1 ++ n2, by rw [h2, h1, List.append_assoc], ?_⟩
  intro q hq
  rcases List.mem_append.1 hq with hq | hq
  · exact p1 q hq
  · exact p2 q hq

/-- One request over a quiet link, recorded. -/
theorem leaves_handle {P : List UInt8 → Prop} (hc : Quiet c.link) {p : List UInt8} (hp : P p) :
    Leaves P c (c.withTransport (c.link.transport.handle p)) :=
  ⟨quiet_handle hc p, by simp [Client.withTransport], [(p, (c.link.transport.answer p).2)],
    rfl, by simpa using hp⟩

theorem endState_bind_pure {ε σ' α β : Type} (x : EStateM ε σ' α) (b : β) (s : σ') :
    endState ((x >>= fun _ => pure b) s) = endState (x s) := by
  rw [bind_apply]
  cases x s <;> rfl

/-- A loop each of whose turns keeps `I` keeps it, wherever the loop ends. -/
theorem endState_forIn {ε σ' α : Type} (xs : List α) (f : α → PUnit → EStateM ε σ' (ForInStep PUnit))
    (I : σ' → Prop) (hf : ∀ x ∈ xs, ∀ s, I s → I (endState (f x ⟨⟩ s))) (s : σ') (hs : I s) :
    I (endState (forIn xs ⟨⟩ f s)) := by
  induction xs generalizing s with
  | nil => exact hs
  | cons x xs ih =>
    have hx := hf x List.mem_cons_self s hs
    rw [List.forIn_cons, bind_apply]
    cases hr : f x ⟨⟩ s with
    | ok r s' =>
      rw [hr] at hx
      cases r with
      | done u => exact hx
      | yield u => exact ih (fun y hy => hf y (List.mem_cons_of_mem x hy)) s' hx
    | error e s' =>
      rw [hr] at hx
      exact hx

/-! ## Writes -/

/-- Each byte of `m'` is the byte of `m` there or, within the `data.length` bytes from `a`, the
byte of `data` written there. -/
def OldOrNew (m m' : UInt64 → UInt8) (a : UInt64) (data : List UInt8) : Prop :=
  ∀ y, m' y = m y ∨ ∃ h : (y - a).toNat < data.length, m' y = data[(y - a).toNat]

theorem OldOrNew.refl (m : UInt64 → UInt8) (a : UInt64) (data : List UInt8) : OldOrNew m m a data :=
  fun _ => .inl rfl

theorem OldOrNew.trans {m m' m'' : UInt64 → UInt8} {a : UInt64} {data : List UInt8}
    (h : OldOrNew m m' a data) (h' : OldOrNew m' m'' a data) : OldOrNew m m'' a data := by
  intro y
  rcases h' y with h1 | h1
  · rw [h1]
    exact h y
  · exact .inr h1

/-- A piece of `data` stored at its own offset from `a` leaves each byte as it was or as `data`
has it, as long as `data` does not reach round the whole address space. -/
theorem oldOrNew_storeAt_piece (m : UInt64 → UInt8) (a : UInt64) (data : List UInt8) {n : Nat}
    (k : Nat) (hn : n < data.length) (h : data.length ≤ UInt64.size) :
    OldOrNew m (storeAt m (a + n.toUInt64) ((data.drop n).take k)) a data := by
  intro y
  unfold storeAt
  split
  · next hj =>
    right
    have he := toNat_sub_add y a (show n < UInt64.size by omega)
    have hd := (y - a).toNat_lt_size
    simp only [List.length_take, List.length_drop] at hj
    -- the offset from the piece's start is the offset from `a` less `n`; going round is too far
    have hoff : (y - (a + n.toUInt64)).toNat = (y - a).toNat - n ∧ n ≤ (y - a).toNat := by
      by_cases hle : n ≤ (y - a).toNat
      · have hsum : (y - a).toNat + (UInt64.size - n) = ((y - a).toNat - n) + UInt64.size := by
          omega
        rw [he, hsum, Nat.add_mod_right, Nat.mod_eq_of_lt (by omega)]
        exact ⟨rfl, hle⟩
      · rw [he, Nat.mod_eq_of_lt (by omega)] at hj
        omega
    refine ⟨by omega, ?_⟩
    simp only [List.getElem_take, List.getElem_drop, hoff.1]
    congr 1
    omega
  · exact .inl rfl

theorem mem_zipIdx_pieces (n : Nat) (data : List UInt8) :
    ∀ (k : Nat) (p : List UInt8) (i : Nat), (p, i) ∈ (Client.pieces n data).zipIdx k →
      k ≤ i ∧ p = (data.drop ((i - k) * (n + 1))).take (n + 1) ∧ (i - k) * (n + 1) < data.length := by
  fun_induction Client.pieces n data with
  | case1 => simp
  | case2 b bs ih =>
    intro k p i hmem
    rw [List.zipIdx_cons, List.mem_cons] at hmem
    rcases hmem with he | hmem
    · obtain ⟨rfl, rfl⟩ := Prod.mk.inj he
      simp
    · obtain ⟨hk, hp, hlt⟩ := ih (k + 1) p i hmem
      have hi : i - k = (i - (k + 1)) + 1 := by omega
      refine ⟨by omega, ?_, ?_⟩
      · rw [hp, List.drop_drop, hi, Nat.succ_mul, Nat.add_comm (n + 1)]
      · simp only [List.length_drop] at hlt
        rw [hi, Nat.succ_mul]
        omega

/-- A write of any length, successful or not: the link is quiet afterwards, only write requests
were sent, and each byte is as before or as written. -/
theorem writeMemory_oldOrNew (hc : Quiet c.link) (a : UInt64) (data : List UInt8)
    (h : data.length ≤ UInt64.size) :
    Leaves (¬ Moves ·) c (endState (Client.writeMemory a data c)) ∧
      OldOrNew c.link.transport.memory (endState (Client.writeMemory a data c)).link.transport.memory
        a data := by
  let I : Client (RecordingStub σ) → Prop := fun c' =>
    Leaves (¬ Moves ·) c c' ∧ OldOrNew c.link.transport.memory c'.link.transport.memory a data
  show I (endState (Client.writeMemory a data c))
  unfold Client.writeMemory
  rw [endState_bind_pure]
  refine endState_forIn _ _ I ?_ c ⟨Leaves.refl hc, OldOrNew.refl _ _ _⟩
  -- each piece is one request, stored or refused as a whole
  rintro ⟨p, i⟩ hmem c' ⟨hl, hm⟩
  obtain ⟨_, hp, hlt⟩ := mem_zipIdx_pieces _ data 0 p i hmem
  simp only [Nat.sub_zero, show maxMemoryChunk - 1 + 1 = maxMemoryChunk from rfl] at hp hlt
  have hnext : I (c'.withTransport
      (c'.link.transport.handle (writeRequest (a + (i * maxMemoryChunk).toUInt64) p))) := by
    refine ⟨hl.trans (leaves_handle hl.quiet (writeRequest_not_moves _ _)), hm.trans ?_⟩
    show OldOrNew _ (c'.link.transport.handle _).memory a data
    rw [handle_writeRequest_memory]
    split
    · rw [hp]
      exact oldOrNew_storeAt_piece _ a data _ (by omega) h
    · exact OldOrNew.refl _ _ _
  dsimp only
  rcases expectOk_run hl.quiet (writeRequest (a + (i * maxMemoryChunk).toUInt64) p) with
    ⟨hok, _⟩ | ⟨e, herr, _⟩
  · simp only [writeRequest] at hok
    simp only [bind_apply, tryCatch, tryCatchThe, MonadExceptOf.tryCatch, EStateM.tryCatch, hok]
    exact hnext
  · simp only [writeRequest] at herr
    simp only [bind_apply, tryCatch, tryCatchThe, MonadExceptOf.tryCatch, EStateM.tryCatch, herr]
    exact hnext

/-- A write that fits one piece is one request, carried out when all its bytes are mapped and
refused otherwise. -/
theorem writeMemory_piece (hc : Quiet c.link) (a : UInt64) {data : List UInt8} (hne : data ≠ [])
    (hlen : data.length ≤ maxMemoryChunk) :
    if allMapped c.link.transport.mapped a data.length then
      Client.writeMemory a data c = .ok () (c.withTransport (c.link.transport.handle (writeRequest a data)))
    else ∃ e, Client.writeMemory a data c =
        .error e (c.withTransport (c.link.transport.handle (writeRequest a data))) := by
  have hp : Client.pieces (maxMemoryChunk - 1) data = [data] := by
    obtain ⟨b, bs, rfl⟩ := List.exists_cons_of_ne_nil hne
    rw [Client.pieces, show maxMemoryChunk - 1 + 1 = maxMemoryChunk from rfl,
      List.take_of_length_le hlen, List.drop_eq_nil_of_le hlen, Client.pieces]
  have hreq : writeRequest (a + (0 * maxMemoryChunk).toUInt64) data = writeRequest a data := by
    simp
  have hw := expectOk_writeRequest hc a data
  unfold Client.writeMemory
  rw [hp]
  simp only [List.zipIdx_cons, List.zipIdx_nil, List.forIn_cons, List.forIn_nil, bind_apply]
  split
  · next hm =>
    rw [if_pos hm] at hw
    simp only [writeRequest] at hw hreq
    simp only [hreq, tryCatch, tryCatchThe, MonadExceptOf.tryCatch, EStateM.tryCatch, hw]
    rfl
  · next hm =>
    rw [if_neg hm] at hw
    obtain ⟨e, he⟩ := hw
    simp only [writeRequest] at he hreq
    simp only [hreq, tryCatch, tryCatchThe, MonadExceptOf.tryCatch, EStateM.tryCatch, he]
    exact ⟨_, rfl⟩

/-! ## Reads -/

/-- Reading memory, however it ends, sends only read requests and changes no byte. -/
theorem readMemory_keeps (hc : Quiet c.link) (a : UInt64) (n : Nat) :
    Leaves (¬ Moves ·) c (endState (Client.readMemory a n c)) ∧
      (endState (Client.readMemory a n c)).link.transport.memory = c.link.transport.memory := by
  let I : Client (RecordingStub σ) → Prop := fun c' =>
    Leaves (¬ Moves ·) c c' ∧ c'.link.transport.memory = c.link.transport.memory
  suffices hgo : ∀ fuel data c', I c' → I (endState (Client.readMemory.go a n fuel data c')) from
    hgo _ _ c ⟨Leaves.refl hc, rfl⟩
  intro fuel
  induction fuel with
  | zero => intro data c' hc'; exact hc'
  | succ fuel ih =>
    intro data c' ⟨hl, hm⟩
    -- one request, recorded; what follows starts from the stub as the request left it
    have hstep : I (c'.withTransport (c'.link.transport.handle
        (readRequest (a + data.size.toUInt64) (min (n - data.size) maxMemoryChunk)))) :=
      ⟨hl.trans (leaves_handle hl.quiet (readRequest_not_moves _ _)),
        (handle_readRequest_memory _ _ _).trans hm⟩
    have ht := transact_run hl.quiet
      (readRequest (a + data.size.toUInt64) (min (n - data.size) maxMemoryChunk))
    simp only [readRequest] at ht hstep
    unfold Client.readMemory.go
    by_cases hs : data.size ≥ n
    · simp only [hs, if_true, pure, EStateM.pure]
      exact ⟨hl, hm⟩
    · simp only [hs, if_false, bind_apply, tryCatch, tryCatchThe, MonadExceptOf.tryCatch,
        EStateM.tryCatch, ht]
      cases (c'.link.transport.answer _).2 with
      | none => exact hstep
      | some r =>
        dsimp only
        cases Client.errorCode r with
        | some code => exact hstep
        | none =>
          dsimp only
          cases Hex.decode r with
          | error e => exact hstep
          | ok bytes =>
            cases bytes with
            | nil => exact hstep
            | cons b bs => exact ih _ _ hstep

end RecordingStub

end RemoteDebugger
