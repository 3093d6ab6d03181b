import RemoteDebugger.Proofs.Wire.RoundTrip

/-!
# A stub whose memory is a byte map

A stub that answers `m` and `M` from a total byte map, passes every other request to a target
that cannot store to memory, and exchanges packets over the same decoder a client uses.
-/

namespace RemoteDebugger

/-! ## Byte maps -/

/-- The `n` bytes from an address on, wrapping past the top. -/
def bytesAt (mem : UInt64 → UInt8) (a : UInt64) (n : Nat) : List UInt8 :=
  (List.range n).map fun i => mem (a + i.toUInt64)

/-- The byte map with `data` stored from an address on, wrapping past the top. -/
def storeAt (mem : UInt64 → UInt8) (a : UInt64) (data : List UInt8) : UInt64 → UInt8 :=
  fun x => if h : (x - a).toNat < data.length then data[(x - a).toNat] else mem x

@[simp] theorem length_bytesAt (mem : UInt64 → UInt8) (a : UInt64) (n : Nat) :
    (bytesAt mem a n).length = n := by
  simp [bytesAt]

@[simp] theorem getElem_bytesAt (mem : UInt64 → UInt8) (a : UInt64) (n i : Nat)
    (h : i < (bytesAt mem a n).length) : (bytesAt mem a n)[i] = mem (a + i.toUInt64) := by
  simp [bytesAt]

/-- Storing nothing changes nothing. -/
@[simp] theorem storeAt_nil (mem : UInt64 → UInt8) (a : UInt64) : storeAt mem a [] = mem := by
  funext x
  simp [storeAt]

/-- Bytes read in two runs, the second starting where the first ends, are the bytes of one run. -/
theorem bytesAt_append (mem : UInt64 → UInt8) (a : UInt64) (k n : Nat) :
    bytesAt mem a k ++ bytesAt mem (a + k.toUInt64) n = bytesAt mem a (k + n) := by
  simp only [bytesAt, List.range_add, List.map_append, List.map_map]
  congr 1
  apply List.map_congr_left
  intro i _
  simp [Nat.toUInt64_eq, UInt64.add_assoc]

/-- The first bytes of a run are a shorter run. -/
theorem take_bytesAt (mem : UInt64 → UInt8) (a : UInt64) {k n : Nat} (h : n ≤ k) :
    (bytesAt mem a k).take n = bytesAt mem a n := by
  rw [bytesAt, ← List.map_take, List.take_range, Nat.min_eq_left h]
  rfl

/-- The distance from `b + n` is the distance from `b` less `n`, modulo the word. -/
theorem toNat_sub_add (x b : UInt64) {n : Nat} (hn : n < UInt64.size) :
    (x - (b + n.toUInt64)).toNat = ((x - b).toNat + (UInt64.size - n)) % UInt64.size := by
  have hx := x.toNat_lt_size
  have hb := b.toNat_lt_size
  simp only [UInt64.toNat_sub, UInt64.toNat_add, Nat.toUInt64_eq, UInt64.toNat_ofNat',
    Nat.mod_eq_of_lt hn]
  simp only [UInt64.size] at *
  omega

/-- Storing two runs one after the other stores their concatenation, as long as together they do
not reach round the whole address space. -/
theorem storeAt_append (mem : UInt64 → UInt8) (b : UInt64) (p : List UInt8) {q : List UInt8}
    (hq : q ≠ []) (h : p.length + q.length ≤ UInt64.size) :
    storeAt (storeAt mem b p) (b + p.length.toUInt64) q = storeAt mem b (p ++ q) := by
  have hqlen : 0 < q.length := List.length_pos_iff.2 hq
  funext x
  have he := toNat_sub_add x b (show p.length < UInt64.size by omega)
  have hd := (x - b).toNat_lt_size
  simp only [storeAt]
  by_cases h1 : (x - b).toNat < p.length
  · -- below the second part, which would need a wrap to reach
    have hno : ¬ (x - (b + p.length.toUInt64)).toNat < q.length := by
      rw [he, Nat.mod_eq_of_lt (by omega)]
      omega
    rw [dif_neg hno, dif_pos h1, dif_pos (by simp; omega), List.getElem_append_left h1]
  · have he' : (x - (b + p.length.toUInt64)).toNat = (x - b).toNat - p.length := by
      have hsum : (x - b).toNat + (UInt64.size - p.length) =
          ((x - b).toNat - p.length) + UInt64.size := by
        omega
      rw [he, hsum, Nat.add_mod_right, Nat.mod_eq_of_lt (by omega)]
    by_cases h2 : (x - b).toNat < p.length + q.length
    · have hin : (x - (b + p.length.toUInt64)).toNat < q.length := by omega
      rw [dif_pos hin, dif_pos (by simp; omega), List.getElem_append_right (by omega)]
      simp only [he']
    · rw [dif_neg (by omega), dif_neg h1, dif_neg (by simp; omega)]

/-! ## Memory requests -/

/-- What a memory request asks of the stub. -/
inductive MemoryRequest where
  /-- `m`: the bytes at `length` addresses from `address` on. -/
  | read (address : UInt64) (length : Nat)
  /-- `M`: store `data` from `address` on. -/
  | write (address : UInt64) (data : List UInt8)
  deriving DecidableEq, Repr

/-- Read `m<addr>,<len>` or `M<addr>,<len>:<hex>`, numbers in hex. A write whose data does
not have the announced length, and every other request, is not a memory request. -/
def MemoryRequest.parse : List UInt8 → Option MemoryRequest
  | 0x6d :: rest =>
    match splitFirst 0x2c rest with
    | (address, some length) => do
      let a ← hexNumber address
      let n ← hexNumber length
      pure (.read (UInt64.ofNat a) n)
    | (_, none) => none
  | 0x4d :: rest =>
    match splitFirst 0x2c rest with
    | (address, some more) =>
      match splitFirst 0x3a more with
      | (length, some hex) => do
        let a ← hexNumber address
        let n ← hexNumber length
        let data ← (Hex.decode hex).toOption
        if data.length = n then pure (.write (UInt64.ofNat a) data) else none
      | (_, none) => none
    | (_, none) => none
  | _ => none

/-- The reply to a request that was carried out. -/
def okReply : List UInt8 := [0x4f, 0x4b]

/-! ## The stub -/

/-- A stub in front of a target with state `σ` and a byte map for memory. -/
@[ext]
structure MemoryStub (σ : Type) where
  memory : UInt64 → UInt8
  target : σ
  /-- What the target does with a request that is not about memory: its next state and its
  answer, if it gives one. -/
  execute : σ → List UInt8 → σ × Option (List UInt8)
  /-- The stub's reading of the bytes it was sent. -/
  decoder : Packet.Decoder := {}
  /-- Bytes waiting for the client to read them. -/
  outbox : List UInt8 := []

namespace MemoryStub

variable {σ : Type}

/-- Carry out one request: the stub afterwards and its answer, if any. -/
def answer (s : MemoryStub σ) (request : List UInt8) : MemoryStub σ × Option (List UInt8) :=
  match MemoryRequest.parse request with
  | some (.read a n) => (s, some (Hex.digits (bytesAt s.memory a n)))
  | some (.write a data) => ({ s with memory := storeAt s.memory a data }, some okReply)
  | none =>
    let (target, reply) := s.execute s.target request
    ({ s with target }, reply)

/-- What the stub sends for a packet: the acknowledgement, then the answer framed. -/
def wire (reply : Option (List UInt8)) : List UInt8 :=
  Packet.ack :: (reply.map Packet.encode).getD []

/-- A client reading what the stub sent for a packet finds the acknowledgement, then the
answer. -/
theorem feed_wire (reply : Option (List UInt8)) :
    ({} : Packet.Decoder).feed (wire reply) = ({}, .ack :: (reply.map .packet).toList) := by
  cases reply with
  | none => simp [wire, Packet.Decoder.feed, Packet.Decoder.push, Packet.ack]
  | some r =>
    rw [wire, Option.map_some, Option.getD_some, Packet.feed_ack rfl, Packet.feed_encode rfl]
    rfl

/-- Take one decoded frame: answer a packet, refuse a damaged one, ignore the rest. -/
def take (s : MemoryStub σ) : Packet.Frame → MemoryStub σ
  | .packet p =>
    let (s', reply) := s.answer p
    { s' with outbox := s'.outbox ++ wire reply }
  | .corrupt _ _ => { s with outbox := s.outbox ++ [Packet.nack] }
  | _ => s

/-- Take in bytes the client wrote. -/
def receive (s : MemoryStub σ) (bytes : List UInt8) : MemoryStub σ :=
  let (decoder, frames) := s.decoder.feed bytes
  frames.foldl take { s with decoder }

/-- Hand over everything waiting; with nothing waiting, the read times out. -/
def send (s : MemoryStub σ) : Arrival × MemoryStub σ :=
  match s.outbox with
  | [] => (.timedOut, s)
  | bytes => (.bytes bytes, { s with outbox := [] })

instance : Transport (MemoryStub σ) where
  read := send
  write s bytes := .ok (s.receive bytes)
  shutdown s := s
  backlog s := s.outbox.length

/-- Whether the stub is between packets with nothing left to say. -/
def Idle (s : MemoryStub σ) : Prop := s.decoder = {} ∧ s.outbox = []

/-- Answering never touches what is waiting to be sent or how input is read. -/
@[simp] theorem answer_outbox (s : MemoryStub σ) (p : List UInt8) :
    (s.answer p).1.outbox = s.outbox := by
  unfold answer
  split <;> rfl

@[simp] theorem answer_decoder (s : MemoryStub σ) (p : List UInt8) :
    (s.answer p).1.decoder = s.decoder := by
  unfold answer
  split <;> rfl

@[simp] theorem answer_execute (s : MemoryStub σ) (p : List UInt8) :
    (s.answer p).1.execute = s.execute := by
  unfold answer
  split <;> rfl

/-- A packet sent to an idle stub is answered: it is acknowledged and its answer framed. -/
theorem receive_encode {s : MemoryStub σ} (hs : s.decoder = {}) (p : List UInt8) :
    s.receive (Packet.encode p) =
      { (s.answer p).1 with outbox := s.outbox ++ wire (s.answer p).2 } := by
  obtain ⟨memory, target, execute, decoder, outbox⟩ := s
  simp only at hs
  subst hs
  simp only [receive, Packet.feed_encode (show ({} : Packet.Decoder).phase = .idle from rfl) p, List.foldl_cons, List.foldl_nil, take,
    answer_outbox]

/-- An acknowledgement sent to a stub between packets changes nothing. -/
theorem receive_ack {s : MemoryStub σ} (hs : s.decoder = {}) : s.receive [Packet.ack] = s := by
  obtain ⟨memory, target, execute, decoder, outbox⟩ := s
  simp only at hs
  subst hs
  simp [receive, Packet.Decoder.feed, Packet.Decoder.push, Packet.ack, take]

end MemoryStub

/-! ## Reading the requests a client sends -/

/-- No digit is a comma. -/
theorem digit_ne_comma : ∀ v : UInt8, v < 16 → Hex.digit v ≠ 0x2c := forall_byte (by decide +kernel)

/-- No digit is a colon. -/
theorem digit_ne_colon : ∀ v : UInt8, v < 16 → Hex.digit v ≠ 0x3a := forall_byte (by decide +kernel)

theorem comma_not_mem_numberBytes (n : Nat) : (0x2c : UInt8) ∉ numberBytes n := by
  intro h
  obtain ⟨v, hv, he⟩ := mem_numberBytes h
  exact digit_ne_comma v hv he.symm

theorem colon_not_mem_numberBytes (n : Nat) : (0x3a : UInt8) ∉ numberBytes n := by
  intro h
  obtain ⟨v, hv, he⟩ := mem_numberBytes h
  exact digit_ne_colon v hv he.symm

/-- Splitting at the first separator finds the one after a run without it. -/
theorem splitFirst_append {sep : UInt8} {xs : List UInt8} (h : sep ∉ xs) (ys : List UInt8) :
    splitFirst sep (xs ++ sep :: ys) = (xs, some ys) := by
  have hidx : (xs ++ sep :: ys).idxOf? sep = some xs.length := by
    induction xs with
    | nil => simp [List.idxOf?_cons]
    | cons x xs ih =>
      have hx : x ≠ sep := fun e => h (e ▸ List.mem_cons_self)
      have hxs : sep ∉ xs := fun m => h (List.mem_cons_of_mem _ m)
      simp [List.idxOf?_cons, hx, ih hxs]
  simp [splitFirst, hidx]

/-- The bytes of a read request for `n` bytes at `a`. -/
theorem Client.text_readRequest (a : UInt64) (n : Nat) :
    Client.text ("m" ++ Hex.natDigits a.toNat ++ "," ++ Hex.natDigits n) =
      0x6d :: (numberBytes a.toNat ++ 0x2c :: numberBytes n) := by
  have hm : Client.text "m" = [0x6d] := by rw [Client.text_eq]; rfl
  have hc : Client.text "," = [0x2c] := by rw [Client.text_eq]; rfl
  simp [hm, hc]

/-- The bytes of a write request storing `data` at `a`. -/
theorem Client.text_writeRequest (a : UInt64) (data : List UInt8) :
    Client.text ("M" ++ Hex.natDigits a.toNat ++ "," ++ Hex.natDigits data.length ++ ":") ++
        Hex.digits data =
      0x4d :: (numberBytes a.toNat ++ 0x2c :: (numberBytes data.length ++ 0x3a :: Hex.digits data)) := by
  have hm : Client.text "M" = [0x4d] := by rw [Client.text_eq]; rfl
  have hc : Client.text "," = [0x2c] := by rw [Client.text_eq]; rfl
  have hk : Client.text ":" = [0x3a] := by rw [Client.text_eq]; rfl
  simp [hm, hc, hk]

/-- The stub reads a client's read request as that read. -/
theorem MemoryRequest.parse_read (a : UInt64) (n : Nat) :
    MemoryRequest.parse (0x6d :: (numberBytes a.toNat ++ 0x2c :: numberBytes n)) =
      some (.read a n) := by
  simp [MemoryRequest.parse, splitFirst_append (comma_not_mem_numberBytes _),
    hexNumber_numberBytes]

/-- The stub reads a client's write request as that write. -/
theorem MemoryRequest.parse_write (a : UInt64) (data : List UInt8) :
    MemoryRequest.parse
        (0x4d :: (numberBytes a.toNat ++ 0x2c :: (numberBytes data.length ++ 0x3a :: Hex.digits data))) =
      some (.write a data) := by
  simp [MemoryRequest.parse, splitFirst_append (comma_not_mem_numberBytes _),
    splitFirst_append (colon_not_mem_numberBytes _), hexNumber_numberBytes, Hex.decode_digits,
    Except.toOption]

/-- A request that starts with neither `m` nor `M` is not about memory. -/
theorem MemoryRequest.parse_of_head {b : UInt8} (hm : b ≠ 0x6d) (hM : b ≠ 0x4d) (rest : List UInt8) :
    MemoryRequest.parse (b :: rest) = none := by
  unfold MemoryRequest.parse
  split <;> simp_all

end RemoteDebugger
