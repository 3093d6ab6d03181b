import RemoteDebugger.Proofs.Remote.Stub
import Mathlib

/-!
# Packet exchange with a byte-map stub

Over a settled link to a `MemoryStub`, sending a request leaves exactly the stub's answer
waiting, and receiving takes it.
-/

namespace RemoteDebugger

namespace Link

variable {σ : Type}

/-- A link to the stub at rest, with `reply` decoded and not yet taken. -/
structure Settled (l : Link (MemoryStub σ)) (reply : Option (List UInt8)) : Prop where
  decoder : l.decoder = {}
  frames : l.frames = (reply.map Packet.Frame.packet).toList
  pending : l.pending = []
  stubDecoder : l.transport.decoder = {}
  outbox : l.transport.outbox = []

/-- A settled link with nothing waiting. -/
abbrev Quiet (l : Link (MemoryStub σ)) : Prop := Settled l none

theorem nextFrame_go_cons {l : Link (MemoryStub σ)} {f : Packet.Frame} {fs : List Packet.Frame}
    (h : l.frames = f :: fs) (e : Bool) (n : Nat) :
    nextFrame.go e (n + 1) l = .ok (some f) { l with frames := fs } := by
  simp [nextFrame.go, h, EStateM.bind, EStateM.get, EStateM.set, pure, EStateM.pure, bind,
    get, getThe, MonadStateOf.get, set, MonadStateOf.set]

/-- With no frame decoded and nothing sent by the stub, a wait finds nothing. -/
theorem nextFrame_go_silent {l : Link (MemoryStub σ)} (hf : l.frames = [])
    (ho : l.transport.outbox = []) (e : Bool) (n : Nat) :
    nextFrame.go e (n + 1) l = .ok none l := by
  obtain ⟨t, d, fr, p, r⟩ := l
  simp only at hf ho
  subst hf
  cases e <;> simp [nextFrame.go, EStateM.bind, EStateM.get, EStateM.set, pure, EStateM.pure,
    bind, get, getThe, MonadStateOf.get, set, MonadStateOf.set, Transport.read, MemoryStub.send, ho]

/-- A wait that may read takes everything the stub sent and hands out its first frame. -/
theorem nextFrame_go_read {l : Link (MemoryStub σ)} (hf : l.frames = []) {b : UInt8}
    {bs : List UInt8} (ho : l.transport.outbox = b :: bs) {d : Packet.Decoder} {f : Packet.Frame}
    {fs : List Packet.Frame} (hd : l.decoder.feed (b :: bs) = (d, f :: fs)) (n : Nat) :
    nextFrame.go false (n + 2) l =
      .ok (some f) { l with transport := { l.transport with outbox := [] }, decoder := d,
                            frames := fs } := by
  obtain ⟨t, d0, fr, p, r⟩ := l
  simp only at hf ho hd
  subst hf
  simp [nextFrame.go, EStateM.bind, EStateM.get, EStateM.set, pure, EStateM.pure, bind,
    get, getThe, MonadStateOf.get, set, MonadStateOf.set, Transport.read, MemoryStub.send, ho, hd]

theorem nextFrame_cons {l : Link (MemoryStub σ)} {f : Packet.Frame} {fs : List Packet.Frame}
    (h : l.frames = f :: fs) (e : Bool) :
    nextFrame e l = .ok (some f) { l with frames := fs } := by
  simp only [nextFrame, EStateM.bind, EStateM.get, bind, get, getThe, MonadStateOf.get]
  exact nextFrame_go_cons h e _

theorem nextFrame_silent {l : Link (MemoryStub σ)} (hf : l.frames = [])
    (ho : l.transport.outbox = []) (e : Bool) :
    nextFrame e l = .ok none l := by
  simp only [nextFrame, EStateM.bind, EStateM.get, bind, get, getThe, MonadStateOf.get]
  exact nextFrame_go_silent hf ho e _

/-- The stub's acknowledgement comes first in what it sends for a packet, so the wait for it
ends at once and leaves the answer decoded. -/
theorem awaitAck_wire {l : Link (MemoryStub σ)} (hf : l.frames = []) (hd : l.decoder = {})
    (reply : Option (List UInt8)) (ho : l.transport.outbox = MemoryStub.wire reply) (n : Nat) :
    awaitAck false (n + 1) l =
      .ok true { l with transport := { l.transport with outbox := [] }, decoder := {},
                        frames := (reply.map Packet.Frame.packet).toList } := by
  have hfeed : l.decoder.feed (Packet.ack :: (reply.map Packet.encode).getD []) =
      ({}, .ack :: (reply.map Packet.Frame.packet).toList) := by
    rw [hd]
    exact MemoryStub.feed_wire reply
  have hread := nextFrame_go_read hf ho hfeed
  -- the read budget counts the bytes waiting, so it is at least two
  have hsupply : l.supply + 1 = (l.supply - 1) + 2 := by
    simp [supply, Transport.backlog, ho, MemoryStub.wire]
  simp only [awaitAck, nextFrame, EStateM.bind, EStateM.get, bind, get, getThe,
    MonadStateOf.get, hsupply, hread, pure, EStateM.pure]

/-- Sending over a quiet link is accepted at the first attempt: the stub has answered and
its answer waits, decoded. -/
theorem send_quiet {l : Link (MemoryStub σ)} (hl : Quiet l) (p : List UInt8) :
    send p l = .ok () { l with transport := (l.transport.answer p).1,
                               frames := ((l.transport.answer p).2.map Packet.Frame.packet).toList } := by
  have hwrite : write (Packet.encode p) l =
      .ok () { l with transport := l.transport.receive (Packet.encode p) } := rfl
  have hstub := MemoryStub.receive_encode hl.stubDecoder p
  rw [hl.outbox, List.nil_append] at hstub
  unfold send
  simp only [EStateM.bind, EStateM.get, bind, get, getThe, MonadStateOf.get]
  rw [send.attempt]
  simp only [EStateM.bind, bind, hwrite, EStateM.get, get, getThe, MonadStateOf.get, supply]
  rw [awaitAck_wire (by simpa using hl.frames) (by simpa using hl.decoder)
    (l.transport.answer p).2 (by simp [hstub])]
  simp only [hstub, pure, EStateM.pure, hl.decoder, if_true]
  congr
  ext
  simp [hl.outbox]

/-- After a send over a quiet link, the stub's answer is the one reply waiting. -/
theorem settled_send {l : Link (MemoryStub σ)} (hl : Quiet l) (p : List UInt8) :
    Settled { l with transport := (l.transport.answer p).1,
                     frames := ((l.transport.answer p).2.map Packet.Frame.packet).toList }
      (l.transport.answer p).2 where
  decoder := hl.decoder
  frames := rfl
  pending := hl.pending
  stubDecoder := by simp [hl.stubDecoder]
  outbox := by simp [hl.outbox]

/-- Receiving over a settled link takes the waiting reply, if there is one, and acknowledges
it; a stub at rest takes the acknowledgement without a word. -/
theorem receive_settled {l : Link (MemoryStub σ)} {reply : Option (List UInt8)}
    (hl : Settled l reply) (e : Bool) :
    receive e l = .ok reply { l with frames := [] } := by
  obtain ⟨t, d, fr, pe, mr⟩ := l
  obtain ⟨hd, hf, hp, hsd, ho⟩ := hl
  simp only at hd hf hp hsd ho
  subst hp hf
  cases reply with
  | none =>
    simp only [receive, EStateM.bind, EStateM.get, bind, get, getThe, MonadStateOf.get, supply,
      receive.go, nextFrame_silent
        (show (⟨t, d, [], [], mr⟩ : Link (MemoryStub σ)).frames = [] from rfl) ho, pure, EStateM.pure,
      Option.map_none, Option.toList_none]
  | some r =>
    -- the acknowledgement reaches a stub with nothing half-read, which ignores it
    have hack : write [Packet.ack] (⟨t, d, [], [], mr⟩ : Link (MemoryStub σ)) =
        .ok () ⟨t, d, [], [], mr⟩ := by
      show EStateM.Result.ok () (⟨t.receive [Packet.ack], d, [], [], mr⟩ : Link (MemoryStub σ)) = _
      rw [MemoryStub.receive_ack hsd]
    simp only [Option.map_some, Option.toList_some, receive, EStateM.bind, EStateM.get, bind, get,
      getThe, MonadStateOf.get, supply, receive.go,
      nextFrame_cons
        (show (⟨t, d, [.packet r], [], mr⟩ : Link (MemoryStub σ)).frames = [.packet r] from rfl), hack, pure, EStateM.pure]

/-- Taking the waiting reply leaves the link quiet. -/
theorem quiet_of_settled {l : Link (MemoryStub σ)} {reply : Option (List UInt8)}
    (hl : Settled l reply) : Quiet { l with frames := [] } where
  decoder := hl.decoder
  frames := rfl
  pending := hl.pending
  stubDecoder := hl.stubDecoder
  outbox := hl.outbox

/-- A request over a quiet link gets the stub's answer, or times out when the stub gives
none; either way the stub has carried it out and the link is quiet again. -/
theorem transact_quiet {l : Link (MemoryStub σ)} (hl : Quiet l) (p : List UInt8) :
    transact p l =
      match (l.transport.answer p).2 with
      | some r => .ok r { l with transport := (l.transport.answer p).1 }
      | none => .error (.timeout "reply") { l with transport := (l.transport.answer p).1 } := by
  have hrecv := receive_settled (settled_send hl p) false
  simp only [transact, EStateM.bind, bind, send_quiet hl, hrecv]
  cases (l.transport.answer p).2 with
  | none => simp [hl.frames, throw, throwThe, MonadExceptOf.throw, EStateM.throw]
  | some r => simp [hl.frames, pure, EStateM.pure]

end Link

end RemoteDebugger
