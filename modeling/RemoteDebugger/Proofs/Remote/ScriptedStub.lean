import RemoteDebugger.Proofs.Remote.RecordingClient

/-!
# A stub that answers by a script

A `ScriptedStub` answers each request by a function of its state, records it, and exchanges
packets as `MemoryStub` does; nothing is assumed of its answers.
-/

namespace RemoteDebugger

/-- A stub whose every answer is given by a script: what it does with a request is a function of
its state and the request. It records every packet it takes, with its answer. -/
@[ext]
structure ScriptedStub (σ : Type) where
  state : σ
  /-- The stub's next state and its answer, if it gives one. -/
  respond : σ → List UInt8 → σ × Option (List UInt8)
  decoder : Packet.Decoder := {}
  outbox : List UInt8 := []
  /-- Every packet taken, with its answer, oldest first. -/
  transcript : List (List UInt8 × Option (List UInt8)) := []

namespace ScriptedStub

variable {σ : Type}

/-- The stub's answer to a request. -/
def answer (s : ScriptedStub σ) (p : List UInt8) : Option (List UInt8) := (s.respond s.state p).2

/-- The stub after carrying out a request and recording it, its answer not yet sent. -/
def handle (s : ScriptedStub σ) (p : List UInt8) : ScriptedStub σ :=
  { s with state := (s.respond s.state p).1, transcript := s.transcript ++ [(p, s.answer p)] }

/-- Take one decoded frame: record and answer a packet, refuse a damaged one, ignore the rest. -/
def take (s : ScriptedStub σ) : Packet.Frame → ScriptedStub σ
  | .packet p => { s.handle p with outbox := s.outbox ++ MemoryStub.wire (s.answer p) }
  | .corrupt _ _ => { s with outbox := s.outbox ++ [Packet.nack] }
  | _ => s

/-- Take in bytes the client wrote. -/
def receive (s : ScriptedStub σ) (bytes : List UInt8) : ScriptedStub σ :=
  let (decoder, frames) := s.decoder.feed bytes
  frames.foldl take { s with decoder }

/-- Hand over everything waiting; with nothing waiting, the read times out. -/
def send (s : ScriptedStub σ) : Arrival × ScriptedStub σ :=
  match s.outbox with
  | [] => (.timedOut, s)
  | bytes => (.bytes bytes, { s with outbox := [] })

instance : Transport (ScriptedStub σ) where
  read := send
  write s bytes := .ok (s.receive bytes)
  shutdown s := s
  backlog s := s.outbox.length

@[simp] theorem handle_outbox (s : ScriptedStub σ) (p : List UInt8) :
    (s.handle p).outbox = s.outbox := rfl

@[simp] theorem handle_decoder (s : ScriptedStub σ) (p : List UInt8) :
    (s.handle p).decoder = s.decoder := rfl

@[simp] theorem handle_respond (s : ScriptedStub σ) (p : List UInt8) :
    (s.handle p).respond = s.respond := rfl

@[simp] theorem handle_transcript (s : ScriptedStub σ) (p : List UInt8) :
    (s.handle p).transcript = s.transcript ++ [(p, s.answer p)] := rfl

/-- A packet sent to a stub between packets is recorded and answered: it is acknowledged and
its answer framed. -/
theorem receive_encode {s : ScriptedStub σ} (hs : s.decoder = {}) (p : List UInt8) :
    s.receive (Packet.encode p) =
      { s.handle p with outbox := s.outbox ++ MemoryStub.wire (s.answer p) } := by
  obtain ⟨state, respond, decoder, outbox, transcript⟩ := s
  simp only at hs
  subst hs
  simp only [receive, Packet.feed_encode (show ({} : Packet.Decoder).phase = .idle from rfl) p,
    List.foldl_cons, List.foldl_nil, take]

/-- An acknowledgement sent to a stub between packets changes nothing. -/
theorem receive_ack {s : ScriptedStub σ} (hs : s.decoder = {}) : s.receive [Packet.ack] = s := by
  obtain ⟨state, respond, decoder, outbox, transcript⟩ := s
  simp only at hs
  subst hs
  simp [receive, Packet.Decoder.feed, Packet.Decoder.push, Packet.ack, take]

/-! ## Exchanges over a link at rest -/

/-- A link to the stub at rest, with `reply` decoded and not yet taken. -/
structure Settled (l : Link (ScriptedStub σ)) (reply : Option (List UInt8)) : Prop where
  decoder : l.decoder = {}
  frames : l.frames = (reply.map Packet.Frame.packet).toList
  pending : l.pending = []
  stubDecoder : l.transport.decoder = {}
  outbox : l.transport.outbox = []

/-- A settled link with nothing waiting. -/
abbrev Quiet (l : Link (ScriptedStub σ)) : Prop := Settled l none

theorem nextFrame_go_cons {l : Link (ScriptedStub σ)} {f : Packet.Frame} {fs : List Packet.Frame}
    (h : l.frames = f :: fs) (e : Bool) (n : Nat) :
    Link.nextFrame.go e (n + 1) l = .ok (some f) { l with frames := fs } := by
  simp [Link.nextFrame.go, h, EStateM.bind, EStateM.get, EStateM.set, pure, EStateM.pure, bind,
    get, getThe, MonadStateOf.get, set, MonadStateOf.set]

theorem nextFrame_go_silent {l : Link (ScriptedStub σ)} (hf : l.frames = [])
    (ho : l.transport.outbox = []) (e : Bool) (n : Nat) :
    Link.nextFrame.go e (n + 1) l = .ok none l := by
  obtain ⟨t, d, fr, p, r⟩ := l
  simp only at hf ho
  subst hf
  cases e <;> simp [Link.nextFrame.go, EStateM.bind, EStateM.get, EStateM.set, pure, EStateM.pure,
    bind, get, getThe, MonadStateOf.get, set, MonadStateOf.set, Transport.read, send, ho]

theorem nextFrame_go_read {l : Link (ScriptedStub σ)} (hf : l.frames = []) {b : UInt8}
    {bs : List UInt8} (ho : l.transport.outbox = b :: bs) {d : Packet.Decoder} {f : Packet.Frame}
    {fs : List Packet.Frame} (hd : l.decoder.feed (b :: bs) = (d, f :: fs)) (n : Nat) :
    Link.nextFrame.go false (n + 2) l =
      .ok (some f) { l with transport := { l.transport with outbox := [] }, decoder := d,
                            frames := fs } := by
  obtain ⟨t, d0, fr, p, r⟩ := l
  simp only at hf ho hd
  subst hf
  simp [Link.nextFrame.go, EStateM.bind, EStateM.get, EStateM.set, pure, EStateM.pure, bind,
    get, getThe, MonadStateOf.get, set, MonadStateOf.set, Transport.read, send, ho, hd]

theorem nextFrame_cons {l : Link (ScriptedStub σ)} {f : Packet.Frame} {fs : List Packet.Frame}
    (h : l.frames = f :: fs) (e : Bool) :
    Link.nextFrame e l = .ok (some f) { l with frames := fs } := by
  simp only [Link.nextFrame, EStateM.bind, EStateM.get, bind, get, getThe, MonadStateOf.get]
  exact nextFrame_go_cons h e _

theorem nextFrame_silent {l : Link (ScriptedStub σ)} (hf : l.frames = [])
    (ho : l.transport.outbox = []) (e : Bool) :
    Link.nextFrame e l = .ok none l := by
  simp only [Link.nextFrame, EStateM.bind, EStateM.get, bind, get, getThe, MonadStateOf.get]
  exact nextFrame_go_silent hf ho e _

/-- The stub's acknowledgement comes first in what it sends for a packet, so the wait for it
ends at once and leaves the answer decoded. -/
theorem awaitAck_wire {l : Link (ScriptedStub σ)} (hf : l.frames = []) (hd : l.decoder = {})
    (reply : Option (List UInt8)) (ho : l.transport.outbox = MemoryStub.wire reply) (n : Nat) :
    Link.awaitAck false (n + 1) l =
      .ok true { l with transport := { l.transport with outbox := [] }, decoder := {},
                        frames := (reply.map Packet.Frame.packet).toList } := by
  have hfeed : l.decoder.feed (Packet.ack :: (reply.map Packet.encode).getD []) =
      ({}, .ack :: (reply.map Packet.Frame.packet).toList) := by
    rw [hd]
    exact MemoryStub.feed_wire reply
  have hread := nextFrame_go_read hf ho hfeed
  -- the read budget counts the bytes waiting, so it is at least two
  have hsupply : l.supply + 1 = (l.supply - 1) + 2 := by
    simp [Link.supply, Transport.backlog, ho, MemoryStub.wire]
  simp only [Link.awaitAck, Link.nextFrame, EStateM.bind, EStateM.get, bind, get, getThe,
    MonadStateOf.get, hsupply, hread, pure, EStateM.pure]

/-- Sending over a quiet link is accepted at the first attempt: the stub has recorded and
answered the request, and its answer waits, decoded. -/
theorem send_quiet {l : Link (ScriptedStub σ)} (hl : Quiet l) (p : List UInt8) :
    Link.send p l = .ok () { l with transport := l.transport.handle p,
                                    frames := ((l.transport.answer p).map Packet.Frame.packet).toList } := by
  have hwrite : Link.write (Packet.encode p) l =
      .ok () { l with transport := l.transport.receive (Packet.encode p) } := rfl
  have hstub := receive_encode hl.stubDecoder p
  rw [hl.outbox, List.nil_append] at hstub
  have hrest : { l.transport.receive (Packet.encode p) with outbox := [] } = l.transport.handle p := by
    rw [hstub]
    apply ScriptedStub.ext <;> simp [hl.outbox]
  unfold Link.send
  simp only [EStateM.bind, EStateM.get, bind, get, getThe, MonadStateOf.get]
  rw [Link.send.attempt]
  simp only [EStateM.bind, bind, hwrite, EStateM.get, get, getThe, MonadStateOf.get, Link.supply]
  rw [awaitAck_wire (by simpa using hl.frames) (by simpa using hl.decoder)
    (l.transport.answer p) (by simp [hstub])]
  simp only [hrest, pure, EStateM.pure, hl.decoder, if_true]

/-- After a send over a quiet link, the stub's answer is the one reply waiting. -/
theorem settled_send {l : Link (ScriptedStub σ)} (hl : Quiet l) (p : List UInt8) :
    Settled { l with transport := l.transport.handle p,
                     frames := ((l.transport.answer p).map Packet.Frame.packet).toList }
      (l.transport.answer p) where
  decoder := hl.decoder
  frames := rfl
  pending := hl.pending
  stubDecoder := by simp [hl.stubDecoder]
  outbox := by simp [hl.outbox]

/-- Receiving over a settled link takes the waiting reply, if there is one, and acknowledges
it; a stub at rest takes the acknowledgement without a word. -/
theorem receive_settled {l : Link (ScriptedStub σ)} {reply : Option (List UInt8)}
    (hl : Settled l reply) (e : Bool) :
    Link.receive e l = .ok reply { l with frames := [] } := by
  obtain ⟨t, d, fr, pe, mr⟩ := l
  obtain ⟨hd, hf, hp, hsd, ho⟩ := hl
  simp only at hd hf hp hsd ho
  subst hp hf
  cases reply with
  | none =>
    simp only [Link.receive, EStateM.bind, EStateM.get, bind, get, getThe, MonadStateOf.get,
      Link.supply, Link.receive.go, nextFrame_silent
        (show (⟨t, d, [], [], mr⟩ : Link (ScriptedStub σ)).frames = [] from rfl) ho, pure,
      EStateM.pure, Option.map_none, Option.toList_none]
  | some r =>
    -- the acknowledgement reaches a stub with nothing half-read, which ignores it
    have hack : Link.write [Packet.ack] (⟨t, d, [], [], mr⟩ : Link (ScriptedStub σ)) =
        .ok () ⟨t, d, [], [], mr⟩ := by
      show EStateM.Result.ok () (⟨t.receive [Packet.ack], d, [], [], mr⟩ : Link (ScriptedStub σ)) = _
      rw [receive_ack hsd]
    simp only [Option.map_some, Option.toList_some, Link.receive, EStateM.bind, EStateM.get, bind,
      get, getThe, MonadStateOf.get, Link.supply, Link.receive.go,
      nextFrame_cons
        (show (⟨t, d, [.packet r], [], mr⟩ : Link (ScriptedStub σ)).frames = [.packet r] from rfl),
      hack, pure, EStateM.pure]

/-- A request over a quiet link gets the stub's answer, or times out when the stub gives
none; either way the stub has recorded and carried it out and the link is quiet again. -/
theorem transact_quiet {l : Link (ScriptedStub σ)} (hl : Quiet l) (p : List UInt8) :
    Link.transact p l =
      match l.transport.answer p with
      | some r => .ok r { l with transport := l.transport.handle p }
      | none => .error (.timeout "reply") { l with transport := l.transport.handle p } := by
  have hrecv := receive_settled (settled_send hl p) false
  simp only [Link.transact, EStateM.bind, bind, send_quiet hl, hrecv]
  cases l.transport.answer p with
  | none => simp [hl.frames, throw, throwThe, MonadExceptOf.throw, EStateM.throw]
  | some r => simp [hl.frames, pure, EStateM.pure]


theorem quiet_transport {l : Link (ScriptedStub σ)} (hl : Quiet l) {t : ScriptedStub σ}
    (hd : t.decoder = {}) (ho : t.outbox = []) : Quiet { l with transport := t } :=
  ⟨hl.decoder, hl.frames, hl.pending, hd, ho⟩

/-! ## Client requests over a quiet link -/

variable {c : Client (ScriptedStub σ)}

theorem quiet_handle (hc : Quiet c.link) (p : List UInt8) :
    Quiet (c.withTransport (c.link.transport.handle p)).link :=
  quiet_transport hc (by simp [hc.stubDecoder]) (by simp [hc.outbox])

/-- A client request gets the stub's answer, an `Exx` answer being the stub's error; the stub
has recorded the request either way. -/
theorem transact_run (hc : Quiet c.link) (p : List UInt8) :
    Client.transact p c =
      match c.link.transport.answer p with
      | some r =>
        match Client.errorCode r with
        | some code => .error (.wire (.remote code)) (c.withTransport (c.link.transport.handle p))
        | none => .ok r (c.withTransport (c.link.transport.handle p))
      | none => .error (.wire (.timeout "reply")) (c.withTransport (c.link.transport.handle p)) := by
  simp only [Client.transact, bind, EStateM.bind, Client.onLink, transact_quiet hc p]
  cases c.link.transport.answer p with
  | none => rfl
  | some r =>
    cases h : Client.errorCode r <;>
      simp [h, throw, throwThe, MonadExceptOf.throw, EStateM.throw, pure, EStateM.pure,
        Client.withTransport]

/-- A request the stub answers `OK` succeeds. -/
theorem expectOk_of_answer (hc : Quiet c.link) {p : List UInt8}
    (h : c.link.transport.answer p = some okReply) :
    Client.expectOk p c = .ok () (c.withTransport (c.link.transport.handle p)) := by
  simp only [Client.expectOk, bind, EStateM.bind, transact_run hc p, h]
  simp [Client.errorCode, okReply, pure, EStateM.pure]

end ScriptedStub

end RemoteDebugger
