import RemoteDebugger.Proofs.Wire.Streams
import Mathlib

/-!
# What a connection does with the packets it reads

Over any scripted byte stream and any sequence of link calls, a connection keeps a `Ledger`: it
hands out a prefix of the stream's packets and acknowledges each frame it has taken.
-/

namespace RemoteDebugger

open Packet

/-- A piece of the incoming stream as one read returns it. -/
structure Chunk where
  bytes : List UInt8
  nonempty : bytes ≠ []

/-- A transport whose incoming bytes are fixed in advance and arrive in chunks, with reads that
time out in between, and whose writes always succeed and are recorded. -/
structure Script where
  /-- What each read finds, in order: a chunk, or nothing before its deadline. Once these run
  out every read times out. -/
  reads : List (Option Chunk)
  /-- The bytes read so far. -/
  delivered : List UInt8 := []
  /-- Every write, in order. -/
  writes : List (List UInt8) := []

namespace Script

/-- The bytes a list of reads delivers. -/
def incoming (reads : List (Option Chunk)) : List UInt8 := (reads.filterMap id).flatMap (·.bytes)

/-- One read: the next chunk, or a timeout. -/
def read (s : Script) : Arrival × Script :=
  match s.reads with
  | [] => (.timedOut, s)
  | none :: rs => (.timedOut, { s with reads := rs })
  | some c :: rs => (.bytes c.bytes, { s with reads := rs, delivered := s.delivered ++ c.bytes })

/-- Record a write. -/
def record (s : Script) (bytes : List UInt8) : Script := { s with writes := s.writes ++ [bytes] }

/-- A read either times out, delivering nothing, or delivers the next chunk; it writes
nothing. -/
theorem read_cases (s : Script) :
    s.read.2.writes = s.writes ∧
      ((s.read.1 = .timedOut ∧ s.read.2.delivered = s.delivered) ∨
        ∃ c : Chunk, s.read.1 = .bytes c.bytes ∧ s.read.2.delivered = s.delivered ++ c.bytes) := by
  unfold read
  split
  · exact ⟨rfl, .inl ⟨rfl, rfl⟩⟩
  · exact ⟨rfl, .inl ⟨rfl, rfl⟩⟩
  · rename_i c rs _
    exact ⟨rfl, .inr ⟨c, rfl, rfl⟩⟩

/-- A read moves bytes from what is to come to what was delivered. -/
theorem delivered_append_incoming_read (s : Script) :
    s.read.2.delivered ++ incoming s.read.2.reads = s.delivered ++ incoming s.reads := by
  unfold read
  split
  · rfl
  · rename_i rs h
    simp [incoming, h]
  · rename_i c rs h
    simp [incoming, h]

end Script

instance : Transport Script where
  read := Script.read
  write s bytes := .ok (s.record bytes)
  shutdown s := s
  backlog s := (Script.incoming s.reads).length

namespace Packet.Frame

/-- The payload of a packet with a valid checksum. -/
def payload? : Frame → Option (List UInt8)
  | .packet p => some p
  | _ => none

/-- The byte a receiver answers a frame with: `+` for a packet, `-` for a corrupt one. -/
def reply? : Frame → Option UInt8
  | .packet _ => some Packet.ack
  | .corrupt _ _ => some Packet.nack
  | _ => none

/-- The verdict a frame gives on a packet sent: `true` for `+`, `false` for `-`. -/
def verdict? : Frame → Option Bool
  | .ack => some true
  | .nack => some false
  | _ => none

end Packet.Frame

/-- Whether a write is an acknowledgement. -/
def isReply (w : List UInt8) : Bool := w == [Packet.ack] || w == [Packet.nack]

/-- A packet is never written as an acknowledgement: it starts with `$`. -/
theorem isReply_encode (payload : List UInt8) : isReply (encode payload) = false := by
  cases h : body payload ++ stop :: Hex.pair (checksum (body payload)) with
  | nil => simp at h
  | cons b bs => simp [isReply, encode, h, Packet.start, Packet.ack, Packet.nack]

namespace Link

variable (stream : List UInt8)

/-- The reading side of a link: the frames taken from its queue, then those still queued, are
the frames of the bytes read so far, and those bytes begin the stream. -/
structure Decoded (l : Link Script) (taken : List Frame) : Prop where
  frames : ({} : Decoder).feed l.transport.delivered = (l.decoder, taken ++ l.frames)
  stream : l.transport.delivered ++ Script.incoming l.transport.reads = stream

/-- Reading moved only the reading side of the link. -/
structure ReadOnly (l l' : Link Script) : Prop where
  pending : l'.pending = l.pending
  writes : l'.transport.writes = l.transport.writes
  maxRetries : l'.maxRetries = l.maxRetries

variable {stream}

theorem Decoded.take {l : Link Script} {taken : List Frame} {f : Frame} {fs : List Frame}
    (h : Decoded stream l taken) (hf : l.frames = f :: fs) :
    Decoded stream { l with frames := fs } (taken ++ [f]) where
  frames := by
    rw [h.frames, hf]
    simp
  stream := h.stream

/-- A read that times out leaves the reading side as it was. -/
theorem Decoded.timedOut {l : Link Script} {taken : List Frame} (h : Decoded stream l taken)
    (hread : l.transport.read.2.delivered = l.transport.delivered) :
    Decoded stream { l with transport := l.transport.read.2 } taken where
  frames := by
    rw [← h.frames]
    exact congrArg _ hread
  stream := by
    rw [← h.stream]
    exact Script.delivered_append_incoming_read _

/-- Feeding a chunk read to the decoder adds its frames to the queue. -/
theorem Decoded.feed {l : Link Script} {taken : List Frame} (h : Decoded stream l taken)
    (hf : l.frames = []) {bs : List UInt8}
    (hread : l.transport.read.2.delivered = l.transport.delivered ++ bs) :
    Decoded stream { l with transport := l.transport.read.2, decoder := (l.decoder.feed bs).1,
                            frames := (l.decoder.feed bs).2 } taken where
  frames := by
    show ({} : Decoder).feed l.transport.read.2.delivered = _
    rw [hread, Decoder.feed_append, h.frames, hf, List.append_nil]
  stream := by
    rw [← h.stream]
    exact Script.delivered_append_incoming_read _

end Link

/-! ## Link operations, step by step, over any transport -/

namespace Link

/-- What a link operation gave: its value, or its error. -/
def outcome {τ α : Type} : EStateM.Result WireError (Link τ) α → Except WireError α
  | .ok a _ => .ok a
  | .error e _ => .error e

/-- The link an operation left, whether it succeeded or failed. -/
def final {τ α : Type} : EStateM.Result WireError (Link τ) α → Link τ
  | .ok _ l => l
  | .error _ l => l

section Results

variable {τ α β : Type} {a : α} {err : WireError} {l l' : Link τ}

@[simp] theorem outcome_ok : outcome (.ok a l : EStateM.Result WireError (Link τ) α) = .ok a := rfl
@[simp] theorem outcome_error :
    outcome (.error err l : EStateM.Result WireError (Link τ) α) = .error err := rfl
@[simp] theorem final_ok : final (.ok a l : EStateM.Result WireError (Link τ) α) = l := rfl
@[simp] theorem final_error : final (.error err l : EStateM.Result WireError (Link τ) α) = l := rfl

@[simp] theorem throw_apply : (throw err : LinkM τ α) l = .error err l := rfl
@[simp] theorem pure_apply : (pure a : LinkM τ α) l = .ok a l := rfl

/-- A step that succeeded hands its value and link to what follows. -/
theorem bind_of_ok {x : LinkM τ α} {f : α → LinkM τ β} (h : x l = .ok a l') :
    (x >>= f) l = f a l' := by
  simp [bind, EStateM.bind, h]

/-- A step that failed fails what follows. -/
theorem bind_of_error {x : LinkM τ α} {f : α → LinkM τ β} (h : x l = .error err l') :
    (x >>= f) l = .error err l' := by
  simp [bind, EStateM.bind, h]

theorem map_of_ok {x : LinkM τ α} {f : α → β} (h : x l = .ok a l') :
    (f <$> x) l = .ok (f a) l' := by
  simp [Functor.map, EStateM.map, h]

theorem map_of_error {x : LinkM τ α} {f : α → β} (h : x l = .error err l') :
    (f <$> x) l = .error err l' := by
  simp [Functor.map, EStateM.map, h]

theorem get_bind {g : Link τ → LinkM τ β} : (get >>= g) l = g l l := rfl

theorem modify_bind {f : Link τ → Link τ} {g : PUnit → LinkM τ β} :
    (modify f >>= g) l = g () (f l) := rfl

end Results

/-! One lemma per branch of the search for the next frame. -/

variable {τ : Type} [Transport τ] {l : Link τ}

theorem nextFrame_go_queued {f : Frame} {fs : List Frame} (hf : l.frames = f :: fs) (e : Bool)
    (n : Nat) : nextFrame.go e (n + 1) l = .ok (some f) { l with frames := fs } := by
  simp [nextFrame.go, hf, EStateM.bind, EStateM.get, EStateM.set, pure, EStateM.pure, bind,
    get, getThe, MonadStateOf.get, set, MonadStateOf.set]

theorem nextFrame_go_expired (hf : l.frames = []) (n : Nat) :
    nextFrame.go true (n + 1) l = .ok none l := by
  simp [nextFrame.go, hf, EStateM.bind, EStateM.get, pure, EStateM.pure, bind, get, getThe,
    MonadStateOf.get]

theorem nextFrame_go_timedOut {t : τ} (hf : l.frames = [])
    (hread : Transport.read l.transport = (.timedOut, t)) (n : Nat) :
    nextFrame.go false (n + 1) l = .ok none { l with transport := t } := by
  simp [nextFrame.go, hf, hread, EStateM.bind, EStateM.get, EStateM.set, pure, EStateM.pure, bind,
    get, getThe, MonadStateOf.get, set, MonadStateOf.set]

theorem nextFrame_go_bytes {t : τ} {bs : List UInt8} (hf : l.frames = [])
    (hread : Transport.read l.transport = (.bytes bs, t)) (n : Nat) :
    nextFrame.go false (n + 1) l =
      nextFrame.go false n { l with transport := t, decoder := (l.decoder.feed bs).1,
                                    frames := (l.decoder.feed bs).2 } := by
  simp [nextFrame.go, hf, hread, EStateM.bind, EStateM.get, EStateM.set, bind, get, getThe,
    MonadStateOf.get, set, MonadStateOf.set]

end Link

namespace Link

variable {stream : List UInt8}

/-- The next frame comes from the queue, or from the script when the queue is empty; reading
never fails, and only the reading side of the link moves. -/
theorem nextFrame_go_spec (e : Bool) (fuel : Nat) :
    ∀ {l : Link Script} {taken : List Frame}, Decoded stream l taken →
      ∃ o l', nextFrame.go e fuel l = .ok o l' ∧ Decoded stream l' (taken ++ o.toList) ∧
        ReadOnly l l' := by
  induction fuel with
  | zero =>
    intro l taken h
    exact ⟨none, l, rfl, by simpa using h, ⟨rfl, rfl, rfl⟩⟩
  | succ fuel ih =>
    intro l taken h
    cases hf : l.frames with
    | cons f fs => exact ⟨some f, _, nextFrame_go_queued hf e fuel, h.take hf, ⟨rfl, rfl, rfl⟩⟩
    | nil =>
      cases e with
      | true => exact ⟨none, l, nextFrame_go_expired hf fuel, by simpa using h, ⟨rfl, rfl, rfl⟩⟩
      | false =>
        obtain ⟨hwrites, ⟨htimed, hdel⟩ | ⟨c, hbytes, hdel⟩⟩ := Script.read_cases l.transport
        · have hread : Transport.read l.transport = (.timedOut, l.transport.read.2) :=
            Prod.ext htimed rfl
          exact ⟨none, _, nextFrame_go_timedOut hf hread fuel, by simpa using h.timedOut hdel,
            ⟨rfl, hwrites, rfl⟩⟩
        · -- a chunk: its frames join the queue, and the search goes on
          have hread : Transport.read l.transport = (.bytes c.bytes, l.transport.read.2) :=
            Prod.ext hbytes rfl
          obtain ⟨o, l', hgo, hdec, hro⟩ := ih (h.feed hf hdel)
          rw [nextFrame_go_bytes hf hread]
          exact ⟨o, l', hgo, hdec, ⟨hro.pending, hro.writes.trans hwrites, hro.maxRetries⟩⟩

theorem nextFrame_spec (e : Bool) {l : Link Script} {taken : List Frame}
    (h : Decoded stream l taken) :
    ∃ o l', nextFrame e l = .ok o l' ∧ Decoded stream l' (taken ++ o.toList) ∧ ReadOnly l l' :=
  nextFrame_go_spec e _ h

/-! ## The ledger -/

variable (stream) in

/-- What a link over a script has done, given the frames it has taken from its queue and the
payloads it has handed out: the frames read so far are those taken and those queued; the
payloads handed out, then those kept, are the packets taken; and the acknowledgements written
answer the frames taken, one each for a packet or a corrupt packet. -/
structure Ledger (l : Link Script) (taken : List Frame) (returned : List (List UInt8)) : Prop
    extends Decoded stream l taken where
  packets : returned ++ l.pending = taken.filterMap Frame.payload?
  replies : l.transport.writes.filter isReply = (taken.filterMap Frame.reply?).map fun b => [b]

variable (stream) in
/-- From `l` to `l'` the link took the frames `new` from its queue, handed out `out` and wrote
`ws`, and its ledger carried over. -/
structure Moved (l l' : Link Script) (taken new : List Frame) (ret out ws : List (List UInt8)) :
    Prop where
  ledger : Ledger stream l' (taken ++ new) (ret ++ out)
  writes : l'.transport.writes = l.transport.writes ++ ws
  maxRetries : l'.maxRetries = l.maxRetries

theorem Moved.refl {l : Link Script} {taken : List Frame} {ret : List (List UInt8)}
    (h : Ledger stream l taken ret) : Moved stream l l taken [] ret [] [] where
  ledger := by simpa using h
  writes := by simp
  maxRetries := rfl

theorem Moved.trans {l l' l'' : Link Script} {taken new new' : List Frame}
    {ret out out' ws ws' : List (List UInt8)} (h : Moved stream l l' taken new ret out ws)
    (h' : Moved stream l' l'' (taken ++ new) new' (ret ++ out) out' ws') :
    Moved stream l l'' taken (new ++ new') ret (out ++ out') (ws ++ ws') where
  ledger := by simpa using h'.ledger
  writes := by rw [h'.writes, h.writes, List.append_assoc]
  maxRetries := h'.maxRetries.trans h.maxRetries

theorem write_script (l : Link Script) (bytes : List UInt8) :
    write bytes l = .ok () { l with transport := l.transport.record bytes } := rfl

/-- Taking frames that need no answer and carry no packet. -/
theorem Ledger.take_quiet {l l' : Link Script} {taken fs : List Frame} {ret : List (List UInt8)}
    (h : Ledger stream l taken ret) (hd : Decoded stream l' (taken ++ fs)) (hro : ReadOnly l l')
    (hquiet : ∀ f ∈ fs, f.payload? = none ∧ f.reply? = none) :
    Moved stream l l' taken fs ret [] [] where
  ledger :=
    { hd with
      packets := by
        rw [List.append_nil, hro.pending, h.packets, List.filterMap_append,
          List.filterMap_eq_nil_iff.2 fun f hf => (hquiet f hf).1, List.append_nil]
      replies := by
        rw [hro.writes, h.replies, List.filterMap_append,
          List.filterMap_eq_nil_iff.2 fun f hf => (hquiet f hf).2, List.append_nil] }
  writes := by simp [hro.writes]
  maxRetries := hro.maxRetries

/-- Taking a packet while a verdict is awaited: it is acknowledged and kept. -/
theorem Ledger.take_kept {l l' : Link Script} {taken : List Frame} {ret : List (List UInt8)}
    {p : List UInt8} (h : Ledger stream l taken ret)
    (hd : Decoded stream l' (taken ++ [.packet p])) (hro : ReadOnly l l') :
    Moved stream l
      { l' with transport := l'.transport.record [Packet.ack], pending := l'.pending ++ [p] }
      taken [.packet p] ret [] [[Packet.ack]] where
  ledger :=
    { frames := hd.frames
      stream := hd.stream
      packets := by
        simp [hro.pending, ← List.append_assoc, h.packets, Frame.payload?]
      replies := by
        simp [Script.record, hro.writes, h.replies, Frame.reply?, isReply] }
  writes := by simp [Script.record, hro.writes]
  maxRetries := hro.maxRetries

/-- Taking a corrupt packet: it is refused. -/
theorem Ledger.take_corrupt {l l' : Link Script} {taken : List Frame} {ret : List (List UInt8)}
    {x y : UInt8} (h : Ledger stream l taken ret)
    (hd : Decoded stream l' (taken ++ [.corrupt x y])) (hro : ReadOnly l l') :
    Moved stream l { l' with transport := l'.transport.record [Packet.nack] } taken
      [.corrupt x y] ret [] [[Packet.nack]] where
  ledger :=
    { frames := hd.frames
      stream := hd.stream
      packets := by simp [hro.pending, h.packets, Frame.payload?]
      replies := by simp [Script.record, hro.writes, h.replies, Frame.reply?, isReply] }
  writes := by simp [Script.record, hro.writes]
  maxRetries := hro.maxRetries

/-! ## Waiting for a verdict -/

/-- A wait for the verdict on a packet takes frames until the verdict, writing only their
acknowledgements and keeping the packets among them; it gives the verdict, or times out
having taken none. -/
theorem awaitAck_spec (e : Bool) (fuel : Nat) :
    ∀ {l : Link Script} {taken : List Frame} {ret : List (List UInt8)}, Ledger stream l taken ret →
      ∃ new ws, Moved stream l (final (awaitAck e fuel l)) taken new ret [] ws ∧
        (∀ w ∈ ws, isReply w = true) ∧
        new.filterMap Frame.verdict? = (outcome (awaitAck e fuel l)).toOption.toList ∧
        ∀ err, outcome (awaitAck e fuel l) = .error err → err = .timeout "acknowledgement" := by
  induction fuel with
  | zero =>
    intro l taken ret h
    exact ⟨[], [], Moved.refl h, by simp, rfl, fun err herr => by cases herr; rfl⟩
  | succ fuel ih =>
    intro l taken ret h
    -- a frame that is not the verdict: the wait goes on from the link after it
    have hgo : ∀ {l2 : Link Script} {fs : List Frame} {ws0 : List (List UInt8)},
        Moved stream l l2 taken fs ret [] ws0 → (∀ w ∈ ws0, isReply w = true) →
        fs.filterMap Frame.verdict? = [] →
        ∃ new ws, Moved stream l (final (awaitAck e fuel l2)) taken new ret [] ws ∧
          (∀ w ∈ ws, isReply w = true) ∧
          new.filterMap Frame.verdict? = (outcome (awaitAck e fuel l2)).toOption.toList ∧
          ∀ err, outcome (awaitAck e fuel l2) = .error err → err = .timeout "acknowledgement" := by
      intro l2 fs ws0 hm hws0 hfs
      obtain ⟨new, ws, hm', hws, hv, herr⟩ := ih hm.ledger
      refine ⟨fs ++ new, ws0 ++ ws, hm.trans hm', ?_, ?_, herr⟩
      · intro w hw
        rcases List.mem_append.1 hw with hw | hw
        · exact hws0 w hw
        · exact hws w hw
      · rw [List.filterMap_append, hfs, hv, List.nil_append]
    obtain ⟨o, l1, hnext, hdec, hro⟩ := nextFrame_spec e h.toDecoded
    cases o with
    | none =>
      rw [awaitAck, bind_of_ok hnext]
      dsimp only
      rw [throw_apply]
      exact ⟨[], [], h.take_quiet (by simpa using hdec) hro (by simp), by simp, rfl,
        fun err herr => by cases herr; rfl⟩
    | some f =>
      cases f with
      | ack =>
        rw [awaitAck, bind_of_ok hnext]
        dsimp only
        rw [pure_apply]
        exact ⟨[.ack], [], h.take_quiet hdec hro (by simp [Frame.payload?, Frame.reply?]), by simp,
          rfl, fun err herr => by cases herr⟩
      | nack =>
        rw [awaitAck, bind_of_ok hnext]
        dsimp only
        rw [pure_apply]
        exact ⟨[.nack], [], h.take_quiet hdec hro (by simp [Frame.payload?, Frame.reply?]), by simp,
          rfl, fun err herr => by cases herr⟩
      | interrupt =>
        rw [awaitAck, bind_of_ok hnext]
        exact hgo (h.take_quiet hdec hro (by simp [Frame.payload?, Frame.reply?])) (by simp)
          (by simp [Frame.verdict?])
      | packet p =>
        rw [awaitAck, bind_of_ok hnext]
        dsimp only
        rw [bind_of_ok (write_script l1 _), modify_bind]
        exact hgo (h.take_kept hdec hro) (by simp [isReply]) (by simp [Frame.verdict?])
      | corrupt x y =>
        rw [awaitAck, bind_of_ok hnext]
        dsimp only
        rw [bind_of_ok (write_script l1 _)]
        exact hgo (h.take_corrupt hdec hro) (by simp [isReply]) (by simp [Frame.verdict?])

/-! ## Sending -/

/-- Acknowledgements are never the packet being sent. -/
theorem count_encode_of_replies {ws : List (List UInt8)} (hws : ∀ w ∈ ws, isReply w = true)
    (payload : List UInt8) : ws.count (encode payload) = 0 :=
  List.count_eq_zero.2 fun hmem => by
    have := hws _ hmem
    rw [isReply_encode] at this
    cases this

/-- Writing the packet being sent leaves the ledger as it was. -/
theorem Ledger.write_packet {l : Link Script} {taken : List Frame} {ret : List (List UInt8)}
    (h : Ledger stream l taken ret) (payload : List UInt8) :
    Ledger stream { l with transport := l.transport.record (encode payload) } taken ret where
  frames := h.frames
  stream := h.stream
  packets := h.packets
  replies := by simp [Script.record, h.replies, isReply_encode]

/-- A move that follows a write is a move from before the write. -/
theorem Moved.of_write {l l' l'' : Link Script} {taken new : List Frame}
    {ret out ws w0 : List (List UInt8)} (h : Moved stream l' l'' taken new ret out ws)
    (hw : l'.transport.writes = l.transport.writes ++ w0) (hmax : l'.maxRetries = l.maxRetries) :
    Moved stream l l'' taken new ret out (w0 ++ ws) where
  ledger := h.ledger
  writes := by rw [h.writes, hw, List.append_assoc]
  maxRetries := h.maxRetries.trans hmax

/-- The attempts of a send with `n` left. Each writes the packet and waits for the verdict, and
a refusal leads to the next attempt: with `k` refusals taken, the packet was written
`min (k + 1) n` times, the attempts ran out exactly when `k = n`, and an acceptance ends the
verdicts taken. -/
theorem attempt_spec (payload : List UInt8) (retries n : Nat) :
    ∀ {l : Link Script} {taken : List Frame} {ret : List (List UInt8)}, Ledger stream l taken ret →
      ∃ new ws k,
        Moved stream l (final (send.attempt (encode payload) retries n l)) taken new ret [] ws ∧
        new.filterMap Frame.verdict? = List.replicate k false ++
          (if (outcome (send.attempt (encode payload) retries n l)).isOk then [true] else []) ∧
        ws.count (encode payload) = min (k + 1) n ∧
        (outcome (send.attempt (encode payload) retries n l) = .error (.nack (retries + 1)) ↔
          k = n) := by
  induction n with
  | zero =>
    intro l taken ret h
    exact ⟨[], [], 0, Moved.refl h, rfl, rfl, by simp [send.attempt]⟩
  | succ n ih =>
    intro l taken ret h
    let l1 : Link Script := { l with transport := l.transport.record (encode payload) }
    have hw1 : l1.transport.writes = l.transport.writes ++ [encode payload] := rfl
    obtain ⟨new1, ws1, hm1, hws1, hv1, herr1⟩ :=
      awaitAck_spec false l1.supply (h.write_packet payload)
    have hcount1 := count_encode_of_replies hws1 payload
    rw [send.attempt, bind_of_ok (write_script l _), get_bind]
    cases hr : awaitAck false l1.supply l1 with
    | ok b l2 =>
      rw [hr, final_ok] at hm1
      rw [hr] at hv1
      rw [bind_of_ok hr]
      cases b with
      | true =>
        -- accepted at this attempt
        rw [if_pos rfl, pure_apply]
        refine ⟨new1, [encode payload] ++ ws1, 0, hm1.of_write hw1 rfl, ?_, ?_, ?_⟩
        · rw [hv1]
          rfl
        · simp [hcount1]
        · simp
      | false =>
        -- refused: the next attempt starts from where the wait ended
        rw [if_neg Bool.false_ne_true]
        obtain ⟨new2, ws2, k, hm2, hv2, hcount2, hnack2⟩ := ih hm1.ledger
        refine ⟨new1 ++ new2, ([encode payload] ++ ws1) ++ ws2, k + 1,
          (hm1.of_write hw1 rfl).trans hm2, ?_, ?_, ?_⟩
        · rw [List.filterMap_append, hv1, hv2]
          rfl
        · rw [List.count_append, List.count_append, hcount1, hcount2]
          simp
          omega
        · rw [hnack2]
          omega
    | error err l2 =>
      rw [hr, final_error] at hm1
      rw [hr] at hv1 herr1
      rw [bind_of_error hr]
      have htimeout := herr1 err rfl
      refine ⟨new1, [encode payload] ++ ws1, 0, hm1.of_write hw1 rfl, ?_, ?_, ?_⟩
      · rw [hv1]
        rfl
      · simp [hcount1]
      · simp [htimeout]

/-- A send writes its packet once, and once more for each refusal taken, at most once more
than its retry budget; it fails with `nack` exactly when that many refusals came first, and
succeeds exactly when an acceptance ends the verdicts taken. -/
theorem send_spec (payload : List UInt8) {l : Link Script} {taken : List Frame}
    {ret : List (List UInt8)} (h : Ledger stream l taken ret) :
    ∃ new ws k, Moved stream l (final (send payload l)) taken new ret [] ws ∧
      new.filterMap Frame.verdict? = List.replicate k false ++
        (if (outcome (send payload l)).isOk then [true] else []) ∧
      ws.count (encode payload) = min (k + 1) (l.maxRetries + 1) ∧
      (outcome (send payload l) = .error (.nack (l.maxRetries + 1)) ↔ k = l.maxRetries + 1) :=
  attempt_spec payload l.maxRetries (l.maxRetries + 1) h

/-! ## Receiving -/

/-- Taking a packet when nothing is kept: it is acknowledged and handed out. -/
theorem Ledger.take_handed {l l' : Link Script} {taken : List Frame} {ret : List (List UInt8)}
    {p : List UInt8} (h : Ledger stream l taken ret) (hp : l.pending = [])
    (hd : Decoded stream l' (taken ++ [.packet p])) (hro : ReadOnly l l') :
    Moved stream l { l' with transport := l'.transport.record [Packet.ack] } taken [.packet p]
      ret [p] [[Packet.ack]] where
  ledger :=
    { frames := hd.frames
      stream := hd.stream
      packets := by
        have hret := h.packets
        rw [hp, List.append_nil] at hret
        simp [hro.pending, hp, hret, Frame.payload?]
      replies := by simp [Script.record, hro.writes, h.replies, Frame.reply?, isReply] }
  writes := by simp [Script.record, hro.writes]
  maxRetries := hro.maxRetries

/-- With nothing kept, a receive takes frames until a packet, refusing corrupt ones and skipping
stray verdicts; it hands the packet out, or nothing if none came in time. -/
theorem receive_go_spec (e : Bool) (fuel : Nat) :
    ∀ {l : Link Script} {taken : List Frame} {ret : List (List UInt8)},
      Ledger stream l taken ret → l.pending = [] →
      ∃ new ws o l', receive.go e fuel l = .ok o l' ∧ Moved stream l l' taken new ret o.toList ws := by
  induction fuel with
  | zero =>
    intro l taken ret h _
    exact ⟨[], [], none, l, rfl, Moved.refl h⟩
  | succ fuel ih =>
    intro l taken ret h hp
    -- a frame that is not a packet: the search goes on from the link after it
    have hgo : ∀ {l2 : Link Script} {fs : List Frame} {ws0 : List (List UInt8)},
        Moved stream l l2 taken fs ret [] ws0 → l2.pending = [] →
        ∃ new ws o l', receive.go e fuel l2 = .ok o l' ∧
          Moved stream l l' taken new ret o.toList ws := by
      intro l2 fs ws0 hm hp2
      obtain ⟨new, ws, o, l', hgo, hm'⟩ := ih hm.ledger hp2
      exact ⟨fs ++ new, ws0 ++ ws, o, l', hgo, hm.trans hm'⟩
    obtain ⟨o, l1, hnext, hdec, hro⟩ := nextFrame_spec e h.toDecoded
    have hp1 : l1.pending = [] := hro.pending.trans hp
    have hquiet : ∀ f : Frame, f.payload? = none → f.reply? = none →
        Decoded stream l1 (taken ++ [f]) → Moved stream l l1 taken [f] ret [] [] :=
      fun f hpay hrep hd => h.take_quiet hd hro (by simp [hpay, hrep])
    rw [receive.go, bind_of_ok hnext]
    cases o with
    | none => exact ⟨[], [], none, l1, rfl, h.take_quiet (by simpa using hdec) hro (by simp)⟩
    | some f =>
      cases f with
      | packet p =>
        dsimp only
        rw [bind_of_ok (write_script l1 _)]
        exact ⟨_, _, some p, _, rfl, h.take_handed hp hdec hro⟩
      | corrupt x y =>
        dsimp only
        rw [bind_of_ok (write_script l1 _)]
        exact hgo (h.take_corrupt hdec hro) hp1
      | ack => exact hgo (hquiet .ack rfl rfl hdec) hp1
      | nack => exact hgo (hquiet .nack rfl rfl hdec) hp1
      | interrupt => exact hgo (hquiet .interrupt rfl rfl hdec) hp1

/-- A receive hands out the oldest kept packet, or else reads one; it never fails. -/
theorem receive_spec (e : Bool) {l : Link Script} {taken : List Frame} {ret : List (List UInt8)}
    (h : Ledger stream l taken ret) :
    ∃ new ws o l', receive e l = .ok o l' ∧ Moved stream l l' taken new ret o.toList ws := by
  cases hp : l.pending with
  | cons p ps =>
    refine ⟨[], [], some p, { l with pending := ps }, ?_, ?_⟩
    · simp [receive, hp, EStateM.bind, EStateM.get, EStateM.set, bind, get, getThe,
        MonadStateOf.get, set, MonadStateOf.set, pure, EStateM.pure]
    · exact
        { ledger :=
            { frames := by simpa using h.frames
              stream := h.stream
              packets := by
                have hret := h.packets
                rw [hp] at hret
                simpa using hret
              replies := by simpa using h.replies }
          writes := by simp
          maxRetries := rfl }
  | nil =>
    have hrecv : receive e l = receive.go e l.supply l := by
      simp [receive, hp, EStateM.bind, EStateM.get, bind, get, getThe, MonadStateOf.get]
    rw [hrecv]
    exact receive_go_spec e _ h hp

/-- An exchange hands out the reply it returns, and nothing when it fails. -/
theorem transact_spec (payload : List UInt8) {l : Link Script} {taken : List Frame}
    {ret : List (List UInt8)} (h : Ledger stream l taken ret) :
    ∃ new ws, Moved stream l (final (transact payload l)) taken new ret
      (outcome (transact payload l)).toOption.toList ws := by
  obtain ⟨new1, ws1, -, hm1, -⟩ := send_spec payload h
  rw [transact]
  cases hs : send payload l with
  | error err l1 =>
    rw [hs, final_error] at hm1
    rw [bind_of_error hs]
    exact ⟨new1, ws1, hm1⟩
  | ok u l1 =>
    rw [hs, final_ok] at hm1
    rw [bind_of_ok hs]
    obtain ⟨new2, ws2, o, l2, hrecv, hm2⟩ := receive_spec false hm1.ledger
    rw [bind_of_ok hrecv]
    cases o with
    | some reply => exact ⟨new1 ++ new2, ws1 ++ ws2, hm1.trans hm2⟩
    | none => exact ⟨new1 ++ new2, ws1 ++ ws2, hm1.trans hm2⟩

end Link

/-! ## Runs of calls -/

/-- A call a client makes on a connection. -/
inductive LinkCall where
  | send (payload : List UInt8)
  | receive (expired : Bool)
  | transact (payload : List UInt8)

namespace LinkCall

variable {τ : Type} [Transport τ]

/-- Make a call; the payload it hands out, if any. -/
def perform : LinkCall → LinkM τ (Option (List UInt8))
  | .send payload => do
    Link.send payload
    pure none
  | .receive expired => Link.receive expired
  | .transact payload => some <$> Link.transact payload

/-- Make calls one after another, going on after a failure with the link it left, and collect
the payloads handed out. -/
def run : List LinkCall → Link τ → List (List UInt8) × Link τ
  | [], l => ([], l)
  | c :: cs, l =>
    match c.perform l with
    | .ok o l' => let r := run cs l'; (o.toList ++ r.1, r.2)
    | .error _ l' => run cs l'

variable {stream : List UInt8}

open Link

/-- A call carries the ledger over, adding what it hands out. -/
theorem perform_spec (c : LinkCall) {l : Link Script} {taken : List Frame}
    {ret : List (List UInt8)} (h : Ledger stream l taken ret) :
    ∃ new ws, match c.perform l with
      | .ok o l' => Moved stream l l' taken new ret o.toList ws
      | .error _ l' => Moved stream l l' taken new ret [] ws := by
  cases c with
  | send payload =>
    obtain ⟨new, ws, -, hm, -⟩ := send_spec payload h
    refine ⟨new, ws, ?_⟩
    rw [perform]
    cases hs : Link.send payload l with
    | ok u l' =>
      rw [hs, final_ok] at hm
      rw [bind_of_ok hs]
      exact hm
    | error err l' =>
      rw [hs, final_error] at hm
      rw [bind_of_error hs]
      exact hm
  | receive e =>
    obtain ⟨new, ws, o, l', hrecv, hm⟩ := receive_spec e h
    refine ⟨new, ws, ?_⟩
    rw [perform, hrecv]
    exact hm
  | transact payload =>
    obtain ⟨new, ws, hm⟩ := transact_spec payload h
    refine ⟨new, ws, ?_⟩
    rw [perform]
    cases ht : Link.transact payload l with
    | ok reply l' =>
      rw [ht] at hm
      rw [map_of_ok ht]
      exact hm
    | error err l' =>
      rw [ht] at hm
      rw [map_of_error ht]
      exact hm

/-- A run of calls carries the ledger over, adding what the calls hand out, and keeps the retry
budget. -/
theorem run_spec (calls : List LinkCall) :
    ∀ {l : Link Script} {taken : List Frame} {ret : List (List UInt8)},
      Ledger stream l taken ret →
      (∃ taken', Ledger stream (run calls l).2 taken' (ret ++ (run calls l).1)) ∧
        (run calls l).2.maxRetries = l.maxRetries := by
  induction calls with
  | nil =>
    intro l taken ret h
    exact ⟨⟨taken, by simpa [run] using h⟩, rfl⟩
  | cons c cs ih =>
    intro l taken ret h
    obtain ⟨new, ws, hm⟩ := perform_spec c h
    rw [run]
    split
    · rename_i o l' hr
      rw [hr] at hm
      obtain ⟨⟨taken', hl⟩, hmax⟩ := ih hm.ledger
      refine ⟨⟨taken', ?_⟩, hmax.trans hm.maxRetries⟩
      simpa using hl
    · rename_i err l' hr
      rw [hr] at hm
      obtain ⟨⟨taken', hl⟩, hmax⟩ := ih hm.ledger
      exact ⟨⟨taken', by simpa using hl⟩, hmax.trans hm.maxRetries⟩

end LinkCall

namespace Link

variable {stream : List UInt8}

/-- What a link has handed out begins the packets of the whole stream: the bytes read begin
the stream, so their frames begin its frames. -/
theorem Ledger.handed_prefix {l : Link Script} {taken : List Frame} {ret : List (List UInt8)}
    (h : Ledger stream l taken ret) :
    ret <+: (({} : Decoder).feed stream).2.filterMap Frame.payload? := by
  obtain ⟨rest, hrest⟩ : ∃ rest, (({} : Decoder).feed stream).2 = taken ++ l.frames ++ rest := by
    rw [← h.stream, Decoder.feed_append, h.frames]
    exact ⟨_, rfl⟩
  rw [hrest, List.filterMap_append, List.filterMap_append, ← h.packets, List.append_assoc,
    List.append_assoc]
  exact List.prefix_append _ _

/-- A fresh link over a script has taken and handed out nothing. -/
theorem ledger_start (reads : List (Option Chunk)) (maxRetries : Nat) :
    Ledger (Script.incoming reads) ({ transport := { reads }, maxRetries } : Link Script) [] [] where
  frames := rfl
  stream := rfl
  packets := rfl
  replies := rfl

end Link

open Link in
/-- Over a transport that delivers a fixed stream in chunks, with timeouts anywhere and writes
that always succeed, any run of sends, receives and exchanges hands out, in order and once
each, a prefix of the packets of the stream; it keeps the other packets it took for later, and
has acknowledged exactly the packets and corrupt packets it took from its queue. A send made
next writes its packet once, and once more per refusal taken, at most once more than the retry
budget, and fails with `nack` exactly when the budget's worth of refusals came first. -/
theorem run_hands_out_stream_prefix (reads : List (Option Chunk)) (maxRetries : Nat)
    (calls : List LinkCall) :
    let stream := Script.incoming reads
    let r := LinkCall.run calls ({ transport := { reads }, maxRetries } : Link Script)
    r.1 <+: (({} : Decoder).feed stream).2.filterMap Frame.payload? ∧
      (∃ taken, Ledger stream r.2 taken r.1) ∧
      ∀ payload, ∃ taken new ws k, Ledger stream r.2 taken r.1 ∧
        Moved stream r.2 (final (send payload r.2)) taken new r.1 [] ws ∧
        new.filterMap Frame.verdict? = List.replicate k false ++
          (if (outcome (send payload r.2)).isOk then [true] else []) ∧
        ws.count (encode payload) = min (k + 1) (maxRetries + 1) ∧
        (outcome (send payload r.2) = .error (.nack (maxRetries + 1)) ↔ k = maxRetries + 1) := by
  intro stream r
  obtain ⟨⟨taken, hl⟩, hmax⟩ := LinkCall.run_spec calls (ledger_start reads maxRetries)
  rw [List.nil_append] at hl
  refine ⟨hl.handed_prefix, ⟨taken, hl⟩, fun payload => ?_⟩
  obtain ⟨new, ws, k, hm, hv, hcount, hnack⟩ := send_spec payload hl
  rw [hmax] at hcount hnack
  exact ⟨taken, new, ws, k, hl, hm, hv, hcount, hnack⟩

end RemoteDebugger
