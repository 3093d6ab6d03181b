import RemoteDebugger.Proofs.Remote.StubLink

/-!
# A stub with unmapped memory that records what it is asked

A stub that refuses reads and writes of unmapped memory with `E14`, passes every other request
to its target, and keeps a transcript of every packet with its answer.
-/

namespace RemoteDebugger

/-- Whether the `n` addresses from `a` on are all mapped, wrapping past the top. -/
def allMapped (mapped : UInt64 → Bool) (a : UInt64) (n : Nat) : Bool :=
  (List.range n).all fun i => mapped (a + i.toUInt64)

/-- The answer to a request for memory that is not mapped. -/
def unmappedReply : List UInt8 := [0x45, 0x31, 0x34]

/-- A stub in front of a target with state `σ` and memory mapped in part. -/
@[ext]
structure RecordingStub (σ : Type) where
  memory : UInt64 → UInt8
  /-- Which addresses are mapped; the bytes of the others are never read nor written. -/
  mapped : UInt64 → Bool
  target : σ
  /-- What the target does with a request that is not about memory. -/
  execute : σ → List UInt8 → σ × Option (List UInt8)
  decoder : Packet.Decoder := {}
  outbox : List UInt8 := []
  /-- Every packet taken, with its answer, oldest first. -/
  transcript : List (List UInt8 × Option (List UInt8)) := []

namespace RecordingStub

variable {σ : Type}

/-- Carry out one request: the stub afterwards and its answer, if any. -/
def answer (s : RecordingStub σ) (request : List UInt8) : RecordingStub σ × Option (List UInt8) :=
  match MemoryRequest.parse request with
  | some (.read a n) =>
    if allMapped s.mapped a n then (s, some (Hex.digits (bytesAt s.memory a n)))
    else (s, some unmappedReply)
  | some (.write a data) =>
    if allMapped s.mapped a data.length then
      ({ s with memory := storeAt s.memory a data }, some okReply)
    else (s, some unmappedReply)
  | none =>
    let (target, reply) := s.execute s.target request
    ({ s with target }, reply)

/-- Take one decoded frame: record and answer a packet, refuse a damaged one, ignore the
rest. -/
def take (s : RecordingStub σ) : Packet.Frame → RecordingStub σ
  | .packet p =>
    let (s', reply) := s.answer p
    { s' with outbox := s'.outbox ++ MemoryStub.wire reply,
              transcript := s'.transcript ++ [(p, reply)] }
  | .corrupt _ _ => { s with outbox := s.outbox ++ [Packet.nack] }
  | _ => s

/-- Take in bytes the client wrote. -/
def receive (s : RecordingStub σ) (bytes : List UInt8) : RecordingStub σ :=
  let (decoder, frames) := s.decoder.feed bytes
  frames.foldl take { s with decoder }

/-- Hand over everything waiting; with nothing waiting, the read times out. -/
def send (s : RecordingStub σ) : Arrival × RecordingStub σ :=
  match s.outbox with
  | [] => (.timedOut, s)
  | bytes => (.bytes bytes, { s with outbox := [] })

instance : Transport (RecordingStub σ) where
  read := send
  write s bytes := .ok (s.receive bytes)
  shutdown s := s
  backlog s := s.outbox.length

/-- The stub after carrying out a request and recording it, its answer not yet sent. -/
def handle (s : RecordingStub σ) (p : List UInt8) : RecordingStub σ :=
  { (s.answer p).1 with transcript := s.transcript ++ [(p, (s.answer p).2)] }

@[simp] theorem answer_outbox (s : RecordingStub σ) (p : List UInt8) :
    (s.answer p).1.outbox = s.outbox := by
  unfold answer
  split <;> (try split) <;> rfl

@[simp] theorem answer_decoder (s : RecordingStub σ) (p : List UInt8) :
    (s.answer p).1.decoder = s.decoder := by
  unfold answer
  split <;> (try split) <;> rfl

@[simp] theorem answer_transcript (s : RecordingStub σ) (p : List UInt8) :
    (s.answer p).1.transcript = s.transcript := by
  unfold answer
  split <;> (try split) <;> rfl

/-- No request maps or unmaps memory. -/
@[simp] theorem answer_mapped (s : RecordingStub σ) (p : List UInt8) :
    (s.answer p).1.mapped = s.mapped := by
  unfold answer
  split <;> (try split) <;> rfl

@[simp] theorem answer_execute (s : RecordingStub σ) (p : List UInt8) :
    (s.answer p).1.execute = s.execute := by
  unfold answer
  split <;> (try split) <;> rfl

@[simp] theorem handle_outbox (s : RecordingStub σ) (p : List UInt8) :
    (s.handle p).outbox = s.outbox := by
  simp [handle]

@[simp] theorem handle_decoder (s : RecordingStub σ) (p : List UInt8) :
    (s.handle p).decoder = s.decoder := by
  simp [handle]

@[simp] theorem handle_mapped (s : RecordingStub σ) (p : List UInt8) :
    (s.handle p).mapped = s.mapped := by
  simp [handle]

@[simp] theorem handle_transcript (s : RecordingStub σ) (p : List UInt8) :
    (s.handle p).transcript = s.transcript ++ [(p, (s.answer p).2)] := rfl

/-- A packet sent to a stub between packets is recorded and answered: it is acknowledged and
its answer framed. -/
theorem receive_encode {s : RecordingStub σ} (hs : s.decoder = {}) (p : List UInt8) :
    s.receive (Packet.encode p) =
      { s.handle p with outbox := s.outbox ++ MemoryStub.wire (s.answer p).2 } := by
  obtain ⟨memory, mapped, target, execute, decoder, outbox, transcript⟩ := s
  simp only at hs
  subst hs
  simp only [receive, Packet.feed_encode (show ({} : Packet.Decoder).phase = .idle from rfl) p,
    List.foldl_cons, List.foldl_nil, take, handle, answer_outbox, answer_transcript]

/-- An acknowledgement sent to a stub between packets changes nothing. -/
theorem receive_ack {s : RecordingStub σ} (hs : s.decoder = {}) : s.receive [Packet.ack] = s := by
  obtain ⟨memory, mapped, target, execute, decoder, outbox, transcript⟩ := s
  simp only at hs
  subst hs
  simp [receive, Packet.Decoder.feed, Packet.Decoder.push, Packet.ack, take]

/-! ## Exchanges over a link at rest -/

/-- A link to the stub at rest, with `reply` decoded and not yet taken. -/
structure Settled (l : Link (RecordingStub σ)) (reply : Option (List UInt8)) : Prop where
  decoder : l.decoder = {}
  frames : l.frames = (reply.map Packet.Frame.packet).toList
  pending : l.pending = []
  stubDecoder : l.transport.decoder = {}
  outbox : l.transport.outbox = []

/-- A settled link with nothing waiting. -/
abbrev Quiet (l : Link (RecordingStub σ)) : Prop := Settled l none

deriving instance DecidableEq for Packet.Decoder

instance (l : Link (RecordingStub σ)) (reply : Option (List UInt8)) : Decidable (Settled l reply) :=
  decidable_of_iff (l.decoder = {} ∧ l.frames = (reply.map Packet.Frame.packet).toList ∧
      l.pending = [] ∧ l.transport.decoder = {} ∧ l.transport.outbox = [])
    ⟨fun h => ⟨h.1, h.2.1, h.2.2.1, h.2.2.2.1, h.2.2.2.2⟩,
      fun h => ⟨h.decoder, h.frames, h.pending, h.stubDecoder, h.outbox⟩⟩

theorem nextFrame_go_cons {l : Link (RecordingStub σ)} {f : Packet.Frame} {fs : List Packet.Frame}
    (h : l.frames = f :: fs) (e : Bool) (n : Nat) :
    Link.nextFrame.go e (n + 1) l = .ok (some f) { l with frames := fs } := by
  simp [Link.nextFrame.go, h, EStateM.bind, EStateM.get, EStateM.set, pure, EStateM.pure, bind,
    get, getThe, MonadStateOf.get, set, MonadStateOf.set]

theorem nextFrame_go_silent {l : Link (RecordingStub σ)} (hf : l.frames = [])
    (ho : l.transport.outbox = []) (e : Bool) (n : Nat) :
    Link.nextFrame.go e (n + 1) l = .ok none l := by
  obtain ⟨t, d, fr, p, r⟩ := l
  simp only at hf ho
  subst hf
  cases e <;> simp [Link.nextFrame.go, EStateM.bind, EStateM.get, EStateM.set, pure, EStateM.pure,
    bind, get, getThe, MonadStateOf.get, set, MonadStateOf.set, Transport.read, send, ho]

theorem nextFrame_go_read {l : Link (RecordingStub σ)} (hf : l.frames = []) {b : UInt8}
    {bs : List UInt8} (ho : l.transport.outbox = b :: bs) {d : Packet.Decoder} {f : Packet.Frame}
    {fs : List Packet.Frame} (hd : l.decoder.feed (b :: bs) = (d, f :: fs)) (n : Nat) :
    Link.nextFrame.go false (n + 2) l =
      .ok (some f) { l with transport := { l.transport with outbox := [] }, decoder := d,
                            frames := fs } := by
  obtain ⟨t, d0, fr, p, r⟩ := l
  simp only at hf ho hd
  subst hf
  simp [Link.nextFrame.go, EStateM.bind, EStateM.get, EStateM.set, pure, EStateM.pure, bind,
    get, getThe, MonadStateOf.get, set, MonadStateOf.set, Transport.read, send, ho, hd]

theorem nextFrame_cons {l : Link (RecordingStub σ)} {f : Packet.Frame} {fs : List Packet.Frame}
    (h : l.frames = f :: fs) (e : Bool) :
    Link.nextFrame e l = .ok (some f) { l with frames := fs } := by
  simp only [Link.nextFrame, EStateM.bind, EStateM.get, bind, get, getThe, MonadStateOf.get]
  exact nextFrame_go_cons h e _

theorem nextFrame_silent {l : Link (RecordingStub σ)} (hf : l.frames = [])
    (ho : l.transport.outbox = []) (e : Bool) :
    Link.nextFrame e l = .ok none l := by
  simp only [Link.nextFrame, EStateM.bind, EStateM.get, bind, get, getThe, MonadStateOf.get]
  exact nextFrame_go_silent hf ho e _

/-- The stub's acknowledgement comes first in what it sends for a packet, so the wait for it
ends at once and leaves the answer decoded. -/
theorem awaitAck_wire {l : Link (RecordingStub σ)} (hf : l.frames = []) (hd : l.decoder = {})
    (reply : Option (List UInt8)) (ho : l.transport.outbox = MemoryStub.wire reply) (n : Nat) :
    Link.awaitAck false (n + 1) l =
      .ok true { l with transport := { l.transport with outbox := [] }, decoder := {},
                        frames := (reply.map Packet.Frame.packet).toList } := by
  have hfeed : l.decoder.feed (Packet.ack :: (reply.map Packet.encode).getD []) =
      ({}, .ack :: (reply.map Packet.Frame.packet).toList) := by
    rw [hd]
    exact MemoryStub.feed_wire reply
  have hread := nextFrame_go_read hf ho hfeed
  -- the read budget counts the bytes waiting, so it is at least two
  have hsupply : l.supply + 1 = (l.supply - 1) + 2 := by
    simp [Link.supply, Transport.backlog, ho, MemoryStub.wire]
  simp only [Link.awaitAck, Link.nextFrame, EStateM.bind, EStateM.get, bind, get, getThe,
    MonadStateOf.get, hsupply, hread, pure, EStateM.pure]

/-- Sending over a quiet link is accepted at the first attempt: the stub has recorded and
answered the request, and its answer waits, decoded. -/
theorem send_quiet {l : Link (RecordingStub σ)} (hl : Quiet l) (p : List UInt8) :
    Link.send p l = .ok () { l with transport := l.transport.handle p,
                                    frames := ((l.transport.answer p).2.map Packet.Frame.packet).toList } := by
  have hwrite : Link.write (Packet.encode p) l =
      .ok () { l with transport := l.transport.receive (Packet.encode p) } := rfl
  have hstub := receive_encode hl.stubDecoder p
  rw [hl.outbox, List.nil_append] at hstub
  have hrest : { l.transport.receive (Packet.encode p) with outbox := [] } = l.transport.handle p := by
    rw [hstub]
    apply RecordingStub.ext <;> simp [hl.outbox]
  unfold Link.send
  simp only [EStateM.bind, EStateM.get, bind, get, getThe, MonadStateOf.get]
  rw [Link.send.attempt]
  simp only [EStateM.bind, bind, hwrite, EStateM.get, get, getThe, MonadStateOf.get, Link.supply]
  rw [awaitAck_wire (by simpa using hl.frames) (by simpa using hl.decoder)
    (l.transport.answer p).2 (by simp [hstub])]
  simp only [hrest, pure, EStateM.pure, hl.decoder, if_true]

/-- After a send over a quiet link, the stub's answer is the one reply waiting. -/
theorem settled_send {l : Link (RecordingStub σ)} (hl : Quiet l) (p : List UInt8) :
    Settled { l with transport := l.transport.handle p,
                     frames := ((l.transport.answer p).2.map Packet.Frame.packet).toList }
      (l.transport.answer p).2 where
  decoder := hl.decoder
  frames := rfl
  pending := hl.pending
  stubDecoder := by simp [hl.stubDecoder]
  outbox := by simp [hl.outbox]

/-- Receiving over a settled link takes the waiting reply, if there is one, and acknowledges
it; a stub at rest takes the acknowledgement without a word. -/
theorem receive_settled {l : Link (RecordingStub σ)} {reply : Option (List UInt8)}
    (hl : Settled l reply) (e : Bool) :
    Link.receive e l = .ok reply { l with frames := [] } := by
  obtain ⟨t, d, fr, pe, mr⟩ := l
  obtain ⟨hd, hf, hp, hsd, ho⟩ := hl
  simp only at hd hf hp hsd ho
  subst hp hf
  cases reply with
  | none =>
    simp only [Link.receive, EStateM.bind, EStateM.get, bind, get, getThe, MonadStateOf.get,
      Link.supply, Link.receive.go, nextFrame_silent
        (show (⟨t, d, [], [], mr⟩ : Link (RecordingStub σ)).frames = [] from rfl) ho, pure,
      EStateM.pure, Option.map_none, Option.toList_none]
  | some r =>
    -- the acknowledgement reaches a stub with nothing half-read, which ignores it
    have hack : Link.write [Packet.ack] (⟨t, d, [], [], mr⟩ : Link (RecordingStub σ)) =
        .ok () ⟨t, d, [], [], mr⟩ := by
      show EStateM.Result.ok () (⟨t.receive [Packet.ack], d, [], [], mr⟩ : Link (RecordingStub σ)) = _
      rw [receive_ack hsd]
    simp only [Option.map_some, Option.toList_some, Link.receive, EStateM.bind, EStateM.get, bind,
      get, getThe, MonadStateOf.get, Link.supply, Link.receive.go,
      nextFrame_cons
        (show (⟨t, d, [.packet r], [], mr⟩ : Link (RecordingStub σ)).frames = [.packet r] from rfl),
      hack, pure, EStateM.pure]

/-- Taking the waiting reply leaves the link quiet. -/
theorem quiet_of_settled {l : Link (RecordingStub σ)} {reply : Option (List UInt8)}
    (hl : Settled l reply) : Quiet { l with frames := [] } where
  decoder := hl.decoder
  frames := rfl
  pending := hl.pending
  stubDecoder := hl.stubDecoder
  outbox := hl.outbox

/-- A quiet link stays quiet when the stub changes behind it in what it holds, not in what it
has to say. -/
theorem quiet_transport {l : Link (RecordingStub σ)} (hl : Quiet l) {t : RecordingStub σ}
    (hd : t.decoder = {}) (ho : t.outbox = []) : Quiet { l with transport := t } :=
  ⟨hl.decoder, hl.frames, hl.pending, hd, ho⟩

/-- A request over a quiet link gets the stub's answer, or times out when the stub gives
none; either way the stub has recorded and carried it out and the link is quiet again. -/
theorem transact_quiet {l : Link (RecordingStub σ)} (hl : Quiet l) (p : List UInt8) :
    Link.transact p l =
      match (l.transport.answer p).2 with
      | some r => .ok r { l with transport := l.transport.handle p }
      | none => .error (.timeout "reply") { l with transport := l.transport.handle p } := by
  have hrecv := receive_settled (settled_send hl p) false
  simp only [Link.transact, EStateM.bind, bind, send_quiet hl, hrecv]
  cases (l.transport.answer p).2 with
  | none => simp [hl.frames, throw, throwThe, MonadExceptOf.throw, EStateM.throw]
  | some r => simp [hl.frames, pure, EStateM.pure]

end RecordingStub

end RemoteDebugger
