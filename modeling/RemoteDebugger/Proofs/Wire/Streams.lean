import RemoteDebugger.Proofs.Wire.RoundTrip

/-!
# Framing over whole streams

A peer's traffic is a sequence of packets and single bytes (`+`, `-` and the
interrupt byte). Written one after another and cut into chunks anyhow, it
reads back as exactly its frames, in order, whether the decoder starts between
packets or inside a body that the first packet's `$` starts again; and the
decoder ends between packets.
-/

namespace RemoteDebugger

namespace Packet

/-- One unit of traffic a peer sends: a packet with its payload, or one of the single bytes. -/
inductive Traffic where
  | packet (payload : List UInt8)
  | ack
  | nack
  | interrupt
  deriving DecidableEq, Repr

namespace Traffic

/-- The bytes a unit of traffic is sent as. -/
def wire : Traffic → List UInt8
  | .packet p => encode p
  | .ack => [Packet.ack]
  | .nack => [Packet.nack]
  | .interrupt => [Packet.interrupt]

/-- The frame a unit of traffic should read back as. -/
def frame : Traffic → Frame
  | .packet p => .packet p
  | .ack => .ack
  | .nack => .nack
  | .interrupt => .interrupt

end Traffic

/-- Feed chunks one after another, collecting the frames they complete. -/
def Decoder.feedChunks (d : Decoder) : List (List UInt8) → Decoder × List Frame
  | [] => (d, [])
  | c :: cs =>
    let (d', fs) := d.feed c
    let (d'', gs) := d'.feedChunks cs
    (d'', fs ++ gs)

/-- Feeding chunks one after another is feeding their concatenation. -/
theorem Decoder.feedChunks_eq_feed (d : Decoder) (chunks : List (List UInt8)) :
    d.feedChunks chunks = d.feed chunks.flatten := by
  induction chunks generalizing d with
  | nil => rfl
  | cons c cs ih => simp [Decoder.feedChunks, ih, Decoder.feed_append]

/-- Inside a body, a `$` starts the packet again, so a framed payload still reads back as that
packet. -/
theorem feed_encode_of_body {d : Decoder} (hd : d.phase = .body) (payload : List UInt8) :
    d.feed (encode payload) = ({}, [.packet payload]) := by
  obtain ⟨phase, sum, acc⟩ := d
  subst hd
  have hstart : (Decoder.mk .body sum acc).push start = ({ phase := .body }, none) := by
    simp [Decoder.push, start, stop, escape, repeatMark]
  rw [encode, List.cons_append, feed_cons_of_push hstart]
  -- the restarted decoder is the one a `$` between packets leads to
  have hidle : ({} : Decoder).push start = ({ phase := .body }, none) := by
    simp [Decoder.push, start, ack, nack, interrupt]
  rw [← feed_cons_of_push hidle, ← List.cons_append, ← encode]
  exact feed_encode rfl payload

/-- Between packets, each unit of traffic reads back as its frame and leaves the decoder
between packets. -/
theorem feed_wire {d : Decoder} (hd : d.phase = .idle) (t : Traffic) :
    (d.feed t.wire).2 = [t.frame] ∧ (d.feed t.wire).1.phase = .idle := by
  cases t with
  | packet p => simp [Traffic.wire, Traffic.frame, feed_encode hd]
  | ack => simp [Traffic.wire, Traffic.frame, Decoder.feed, Decoder.push, hd, Packet.ack]
  | nack =>
    simp [Traffic.wire, Traffic.frame, Decoder.feed, Decoder.push, hd, Packet.ack, Packet.nack]
  | interrupt =>
    simp [Traffic.wire, Traffic.frame, Decoder.feed, Decoder.push, hd, Packet.ack, Packet.nack,
      Packet.interrupt]

/-- Between packets, a whole sequence of traffic reads back as its frames, in order. -/
theorem feed_traffic (items : List Traffic) :
    ∀ d : Decoder, d.phase = .idle →
      (d.feed (items.flatMap Traffic.wire)).2 = items.map Traffic.frame ∧
        (d.feed (items.flatMap Traffic.wire)).1.phase = .idle := by
  induction items with
  | nil => intro d hd; exact ⟨rfl, hd⟩
  | cons t ts ih =>
    intro d hd
    obtain ⟨hframe, hidle⟩ := feed_wire hd t
    obtain ⟨hrest, hend⟩ := ih _ hidle
    rw [List.flatMap_cons, Decoder.feed_append]
    exact ⟨by rw [List.map_cons, hframe, hrest]; rfl, hend⟩

/-- Traffic written one unit after another and cut into chunks anyhow reads back as exactly its
frames, in order, and leaves the decoder between packets; the decoder may start between packets,
or inside a body when the traffic starts with a packet. -/
theorem feedChunks_traffic (items : List Traffic) (chunks : List (List UInt8))
    (hsplit : chunks.flatten = items.flatMap Traffic.wire) (d : Decoder)
    (hd : d.phase = .idle ∨ (d.phase = .body ∧ ∃ p, items.head? = some (.packet p))) :
    (d.feedChunks chunks).2 = items.map Traffic.frame ∧ (d.feedChunks chunks).1.phase = .idle := by
  rw [Decoder.feedChunks_eq_feed, hsplit]
  rcases hd with hd | ⟨hd, p, hhead⟩
  · exact feed_traffic items d hd
  · -- the first packet's `$` restarts the body, and the rest follows between packets
    obtain ⟨rest, rfl⟩ : ∃ rest, items = .packet p :: rest := by
      cases items with
      | nil => cases hhead
      | cons t ts =>
        simp only [List.head?_cons, Option.some.injEq] at hhead
        exact ⟨ts, by rw [hhead]⟩
    obtain ⟨hrest, hend⟩ := feed_traffic rest {} rfl
    rw [List.flatMap_cons, Decoder.feed_append]
    simp only [Traffic.wire, feed_encode_of_body hd]
    exact ⟨by rw [List.map_cons, hrest]; rfl, hend⟩

/-- A packet holding reserved bytes, an acknowledgement and an interrupt. -/
def escapedTraffic : List Traffic := [.packet [0x24, 0x2b], .ack, .interrupt]

/-- The wire form of `escapedTraffic`, cut inside the escape and between the checksum digits. -/
def escapedChunks : List (List UInt8) :=
  [[0x24, 0x7d], [0x04, 0x2b, 0x23], [0x61], [0x63, 0x2b], [0x03]]

/-- A decoder inside the body of a packet that never finished. -/
def staleBody : Decoder := { phase := .body, sum := 7, payload := #[1, 2] }

theorem feedChunks_traffic_staleBody :
    escapedChunks.flatten = escapedTraffic.flatMap Traffic.wire ∧
      (staleBody.phase = .idle ∨
        (staleBody.phase = .body ∧ ∃ p, escapedTraffic.head? = some (.packet p))) ∧
      (staleBody.feedChunks escapedChunks).2 = escapedTraffic.map Traffic.frame ∧
      (staleBody.feedChunks escapedChunks).1.phase = .idle :=
  have hsplit : escapedChunks.flatten = escapedTraffic.flatMap Traffic.wire := by decide
  have hd : staleBody.phase = .idle ∨
      (staleBody.phase = .body ∧ ∃ p, escapedTraffic.head? = some (.packet p)) :=
    .inr ⟨rfl, _, rfl⟩
  ⟨hsplit, hd, feedChunks_traffic _ _ hsplit _ hd⟩

end Packet

end RemoteDebugger
