import RemoteDebugger.Proofs.Remote.ScriptedStub

/-!
# Memory moves in pieces

The client reads and writes a stub's memory in pieces of at most `maxMemoryChunk` bytes, each at
its own offset (`readMemory_answered`, `writeMemory_accepted`).
-/

namespace RemoteDebugger

/-! ## Pieces of a write -/

namespace Client

/-- Data in pieces of `maxMemoryChunk` bytes, the last one shorter, makes as many pieces as
`maxMemoryChunk` goes into its length, rounded up. -/
theorem length_pieces (d : List UInt8) :
    (pieces (maxMemoryChunk - 1) d).length = (d.length + maxMemoryChunk - 1) / maxMemoryChunk := by
  fun_induction pieces (maxMemoryChunk - 1) d with
  | case1 => rfl
  | case2 b bs ih =>
    simp only [List.length_cons, List.length_drop, maxMemoryChunk] at ih ⊢
    omega

end Client

/-- Pieces `ps` lay `d` out from `a`, `off` bytes in: each piece is a front of what is left of
`d`, nonempty and of at most `maxMemoryChunk` bytes, and stands at `a` plus the bytes of the
pieces before it; together they carry all of `d`, in order. -/
def LaysOut (a : UInt64) : Nat → List (UInt64 × List UInt8) → List UInt8 → Prop
  | _, [], d => d = []
  | off, (x, p) :: ps, d => x = a + off.toUInt64 ∧ p ≠ [] ∧ p.length ≤ maxMemoryChunk ∧
      ∃ rest, d = p ++ rest ∧ LaysOut a (off + p.length) ps rest

/-- The pieces of the data, each placed a whole number of pieces from `a`, lay it out. -/
theorem laysOut_pieces (a : UInt64) (d : List UInt8) (k : Nat) :
    LaysOut a (k * maxMemoryChunk) (((Client.pieces (maxMemoryChunk - 1) d).zipIdx k).map
      fun x => (a + (x.2 * maxMemoryChunk).toUInt64, x.1)) d := by
  fun_induction Client.pieces (maxMemoryChunk - 1) d generalizing k with
  | case1 => rfl
  | case2 b bs ih =>
    have hchunk : maxMemoryChunk - 1 + 1 = maxMemoryChunk := rfl
    rw [hchunk] at ih ⊢
    rw [List.zipIdx_cons, List.map_cons]
    refine ⟨rfl, ?_, ?_, _, (List.take_append_drop _ _).symm, ?_⟩
    · simp [maxMemoryChunk]
    · simp
    by_cases hd : (b :: bs).drop maxMemoryChunk = []
    · -- the first piece was the whole of the data
      rw [hd]
      simp [Client.pieces, LaysOut]
    · -- a full piece, and the next one starts right after it
      have hlen : ((b :: bs).take maxMemoryChunk).length = maxMemoryChunk := by
        have : maxMemoryChunk < (b :: bs).length := by
          apply Nat.lt_of_not_le
          intro hle
          exact hd (List.drop_eq_nil_of_le hle)
        simp only [List.length_take]
        omega
      rw [hlen, ← Nat.succ_mul]
      exact ih (k + 1)

namespace ScriptedStub

variable {σ : Type} {c : Client (ScriptedStub σ)}

/-! ## Reads -/

/-- One turn of the read loop with bytes still missing: a request at `a` plus what was received,
for what is missing up to a piece. The answer's bytes go on the end when it brings some; an `Exx`
answer, an answer that is not hex and an empty one fail the whole read. -/
theorem readMemory_go_succ (hc : Quiet c.link) (a : UInt64) (n fuel : Nat) {data : Array UInt8}
    (hs : data.size < n) :
    Client.readMemory.go a n (fuel + 1) data c =
      match c.link.transport.answer
          (readRequest (a + data.size.toUInt64) (min (n - data.size) maxMemoryChunk)) with
      | none => .error (.wire (.timeout "reply")) (c.withTransport (c.link.transport.handle
          (readRequest (a + data.size.toUInt64) (min (n - data.size) maxMemoryChunk))))
      | some r =>
        match Client.errorCode r with
        | some code => .error (.memoryAccess a n ("stub error E" ++ byteHex code))
            (c.withTransport (c.link.transport.handle
              (readRequest (a + data.size.toUInt64) (min (n - data.size) maxMemoryChunk))))
        | none =>
          match Hex.decode r with
          | .error e => .error (.memoryAccess a n e.message)
              (c.withTransport (c.link.transport.handle
                (readRequest (a + data.size.toUInt64) (min (n - data.size) maxMemoryChunk))))
          | .ok [] => .error (.memoryAccess a n ("short read at " ++ Address.render (a + data.size.toUInt64)))
              (c.withTransport (c.link.transport.handle
                (readRequest (a + data.size.toUInt64) (min (n - data.size) maxMemoryChunk))))
          | .ok bytes => Client.readMemory.go a n fuel (data ++ bytes.toArray)
              (c.withTransport (c.link.transport.handle
                (readRequest (a + data.size.toUInt64) (min (n - data.size) maxMemoryChunk)))) := by
  have ht := transact_run hc (readRequest (a + data.size.toUInt64) (min (n - data.size) maxMemoryChunk))
  simp only [readRequest] at ht ⊢
  rw [Client.readMemory.go, if_neg (by omega)]
  simp only [bind, EStateM.bind, tryCatch, tryCatchThe, MonadExceptOf.tryCatch, EStateM.tryCatch, ht]
  cases c.link.transport.answer _ with
  | none => rfl
  | some r =>
    dsimp only
    cases Client.errorCode r with
    | some code => rfl
    | none =>
      dsimp only
      cases Hex.decode r with
      | error e => rfl
      | ok bytes => cases bytes <;> rfl

/-- An answer to a read that brings no bytes: empty, or not hex. -/
def Barren (r : List UInt8) : Prop := ∀ bytes, Hex.decode r = .ok bytes → bytes = []

/-- A read, however it ends, records requests one after another; once an answer brings no bytes,
the read fails for the whole range it was asked for. -/
theorem readMemory_go_barren (a : UInt64) (n fuel : Nat) :
    ∀ (data : Array UInt8) (c : Client (ScriptedStub σ)), Quiet c.link →
    ∃ new, (endState (Client.readMemory.go a n fuel data c)).link.transport.transcript =
        c.link.transport.transcript ++ new ∧
      ∀ p r, (p, some r) ∈ new → Barren r →
        ∃ reason c', Client.readMemory.go a n fuel data c = .error (.memoryAccess a n reason) c' := by
  induction fuel with
  | zero =>
    intro data c _
    exact ⟨[], by simp [Client.readMemory.go, pure, EStateM.pure, endState], by simp⟩
  | succ fuel ih =>
    intro data c hc
    by_cases hs : n ≤ data.size
    · refine ⟨[], ?_, by simp⟩
      simp [Client.readMemory.go, hs, pure, EStateM.pure, endState]
    rw [readMemory_go_succ hc a n fuel (by omega)]
    generalize readRequest (a + data.size.toUInt64) (min (n - data.size) maxMemoryChunk) = p
    -- the request is recorded with its answer, whatever comes of it
    have hrec : (c.withTransport (c.link.transport.handle p)).link.transport.transcript =
        c.link.transport.transcript ++ [(p, c.link.transport.answer p)] := rfl
    cases hans : c.link.transport.answer p with
    | none => exact ⟨[(p, none)], by simp [endState, hrec, hans], by simp⟩
    | some r =>
      have hfail : ∀ reason, ∃ new, (endState (.error (.memoryAccess a n reason)
            (c.withTransport (c.link.transport.handle p)) :
            EStateM.Result DebugError (Client (ScriptedStub σ)) (List UInt8))).link.transport.transcript =
            c.link.transport.transcript ++ new ∧
          ∀ q r', (q, some r') ∈ new → Barren r' → ∃ reason' c', (.error (.memoryAccess a n reason)
            (c.withTransport (c.link.transport.handle p)) :
            EStateM.Result DebugError (Client (ScriptedStub σ)) (List UInt8)) =
              .error (.memoryAccess a n reason') c' :=
        fun reason => ⟨[(p, some r)], by simp [endState, hrec, hans], fun _ _ _ _ => ⟨_, _, rfl⟩⟩
      dsimp only
      cases Client.errorCode r with
      | some code => exact hfail _
      | none =>
        dsimp only
        cases hdec : Hex.decode r with
        | error e => exact hfail _
        | ok bytes =>
          cases bytes with
          | nil =>
            dsimp only
            exact hfail _
          | cons b bs =>
            dsimp only
            -- the answer brought bytes, so a barren answer comes later
            obtain ⟨new, hnew, hbarren⟩ := ih (data ++ (b :: bs).toArray) _ (quiet_handle hc p)
            refine ⟨(p, some r) :: new, by simp [hnew, hrec, hans], fun q r' hmem hr' => ?_⟩
            rcases List.mem_cons.1 hmem with he | hmem
            · have hr : r' = r := Option.some.inj (Prod.mk.inj he).2
              subst hr
              exact absurd (hr' _ hdec) (List.cons_ne_nil b bs)
            · exact hbarren q r' hmem hr'

/-- The stub answers every read `m<x>,<k>` with bytes of `mem` from `x` on, at least one of them,
however many were asked for. -/
def AnswersReads (mem : UInt64 → UInt8) (respond : σ → List UInt8 → σ × Option (List UInt8)) :
    Prop :=
  ∀ t x k, ∃ j, 0 < j ∧ (respond t (readRequest x k)).2 = some (Hex.digits (bytesAt mem x j))

/-- The exchanges of a read of `n` bytes from `a`, `done` bytes in, with a stub whose memory is
`mem` and whose answers bring `js` bytes one after the other: each request asks at `a` plus the
bytes received so far for what is still missing, at most `maxMemoryChunk` bytes, and is answered
with the bytes from there on. -/
def readExchanges (mem : UInt64 → UInt8) (a : UInt64) (n : Nat) :
    Nat → List Nat → List (List UInt8 × Option (List UInt8))
  | _, [] => []
  | done, j :: js =>
    (readRequest (a + done.toUInt64) (min (n - done) maxMemoryChunk),
      some (Hex.digits (bytesAt mem (a + done.toUInt64) j))) :: readExchanges mem a n (done + j) js

/-- Answers of `js` bytes take a read of `n` bytes from `done` bytes in to at least `n`: each
brings at least one byte and comes while bytes are still missing. -/
def Fills (n : Nat) : Nat → List Nat → Prop
  | done, [] => n ≤ done
  | done, j :: js => done < n ∧ 0 < j ∧ Fills n (done + j) js

/-- Each answer brings a byte, so a read needs at most as many requests as bytes are missing. -/
theorem length_le_of_fills {n : Nat} : ∀ {done : Nat} {js : List Nat}, Fills n done js →
    js.length ≤ n - done
  | _, [], _ => Nat.zero_le _
  | _, _ :: _, ⟨hlt, hj, hrest⟩ => by
    have := length_le_of_fills hrest
    simp only [List.length_cons]
    omega

/-- The read loop against a stub that always brings bytes: with at least as many turns as bytes
are missing, it ends with exactly the bytes asked for, one request per answer. -/
theorem readMemory_go_answered {mem : UInt64 → UInt8} (a : UInt64) (n fuel : Nat) :
    ∀ (data : Array UInt8) (c : Client (ScriptedStub σ)), Quiet c.link →
      AnswersReads mem c.link.transport.respond → data.toList = bytesAt mem a data.size →
      n - data.size < fuel →
      ∃ js c', Client.readMemory.go a n fuel data c = .ok (bytesAt mem a n) c' ∧
        Fills n data.size js ∧
        c'.link.transport.transcript = c.link.transport.transcript ++ readExchanges mem a n data.size js := by
  induction fuel with
  | zero => intro _ _ _ _ _ hfuel; omega
  | succ fuel ih =>
    intro data c hc hr hdata hfuel
    by_cases hs : n ≤ data.size
    · refine ⟨[], c, ?_, hs, by simp [readExchanges]⟩
      simp only [Client.readMemory.go, hs, if_true, pure, EStateM.pure, hdata, take_bytesAt _ _ hs]
    -- the stub brings `j` bytes from where the read has got to
    obtain ⟨j, hj, hans⟩ := hr c.link.transport.state (a + data.size.toUInt64)
      (min (n - data.size) maxMemoryChunk)
    obtain ⟨b, bs, hbs⟩ : ∃ b bs, bytesAt mem (a + data.size.toUInt64) j = b :: bs :=
      List.exists_cons_of_length_pos (by simpa using hj)
    rw [hbs] at hans
    have hcode : Client.errorCode (Hex.digits (b :: bs)) = none :=
      Client.errorCode_of_length (by simp only [Hex.length_digits]; omega)
    have hsize : (data ++ (b :: bs).toArray).size = data.size + j := by
      rw [Array.size_append, ← hbs]
      simp
    have hdata' : (data ++ (b :: bs).toArray).toList = bytesAt mem a (data.size + j) := by
      rw [Array.toList_append, hdata, ← hbs, List.toList_toArray, bytesAt_append]
    obtain ⟨js, c', hrun, hfills, htrans⟩ := ih (data ++ (b :: bs).toArray) _ (quiet_handle hc
      (readRequest (a + data.size.toUInt64) (min (n - data.size) maxMemoryChunk))) hr
      (hsize ▸ hdata') (by omega)
    rw [hsize] at hfills htrans
    refine ⟨j :: js, c', ?_, ⟨by omega, hj, hfills⟩, ?_⟩
    · rw [readMemory_go_succ hc a n fuel (by omega)]
      simp only [show c.link.transport.answer _ = _ from hans, hcode, Hex.decode_digits]
      exact hrun
    · rw [htrans]
      simp [readExchanges, Client.withTransport, answer, hans, hbs]

/-- A read from a stub that always brings bytes returns exactly the bytes asked for, after one
request per answer, each at `a` plus what was received and for at most a piece. -/
theorem readMemory_answered {mem : UInt64 → UInt8} (hc : Quiet c.link)
    (hr : AnswersReads mem c.link.transport.respond) (a : UInt64) (n : Nat) :
    ∃ js c', Client.readMemory a n c = .ok (bytesAt mem a n) c' ∧ Fills n 0 js ∧
      c'.link.transport.transcript = c.link.transport.transcript ++ readExchanges mem a n 0 js :=
  readMemory_go_answered a n (n + 1) #[] c hc hr rfl (by simp)

/-- A read in which the stub gives an answer that brings no bytes fails for its whole range. -/
theorem readMemory_barren (hc : Quiet c.link) (a : UInt64) (n : Nat) :
    ∃ new, (endState (Client.readMemory a n c)).link.transport.transcript =
        c.link.transport.transcript ++ new ∧
      ∀ p r, (p, some r) ∈ new → Barren r →
        ∃ reason c', Client.readMemory a n c = .error (.memoryAccess a n reason) c' :=
  readMemory_go_barren a n (n + 1) #[] c hc

/-! ## Writes -/

/-- The stub answers every write `M<x>,<k>:<hex>` with `OK`. -/
def AcceptsWrites (respond : σ → List UInt8 → σ × Option (List UInt8)) : Prop :=
  ∀ t x d, (respond t (writeRequest x d)).2 = some okReply

/-- Writes the stub accepts, one after another, are recorded in order with their `OK`. -/
theorem transcript_foldl_accepted {α : Type} (q : α → UInt64 × List UInt8) (xs : List α)
    (c : Client (ScriptedStub σ)) (hw : AcceptsWrites c.link.transport.respond) :
    (xs.foldl (fun c x => c.withTransport (c.link.transport.handle (writeRequest (q x).1 (q x).2)))
        c).link.transport.transcript =
      c.link.transport.transcript ++ xs.map fun x => (writeRequest (q x).1 (q x).2, some okReply) := by
  induction xs generalizing c with
  | nil => simp
  | cons x xs ih =>
    rw [List.foldl_cons, ih (c.withTransport (c.link.transport.handle _)) hw]
    simp [Client.withTransport, answer, hw c.link.transport.state (q x).1 (q x).2]

/-- A write to a stub that accepts every piece succeeds after one request per piece of the
data, the `i`-th at `a` plus `i` pieces. -/
theorem writeMemory_accepted (hc : Quiet c.link) (hw : AcceptsWrites c.link.transport.respond)
    (a : UInt64) (d : List UInt8) :
    ∃ c', Client.writeMemory a d c = .ok () c' ∧
      c'.link.transport.transcript = c.link.transport.transcript ++
        ((Client.pieces (maxMemoryChunk - 1) d).zipIdx).map fun x =>
          (writeRequest (a + (x.2 * maxMemoryChunk).toUInt64) x.1, some okReply) := by
  let q : List UInt8 × Nat → UInt64 × List UInt8 := fun x => (a + (x.2 * maxMemoryChunk).toUInt64, x.1)
  unfold Client.writeMemory
  rw [bind_apply, forIn_yield _ _
    (fun x c => c.withTransport (c.link.transport.handle (writeRequest (q x).1 (q x).2)))
    (fun c => Quiet c.link ∧ AcceptsWrites c.link.transport.respond) ?step c ⟨hc, hw⟩]
  case step =>
    rintro ⟨piece, i⟩ s ⟨hs, hws⟩
    have hok := expectOk_of_answer hs (hws s.link.transport.state (a + (i * maxMemoryChunk).toUInt64) piece)
    simp only [writeRequest] at hok
    refine ⟨?_, quiet_handle hs _, by simpa [Client.withTransport] using hws⟩
    simp only [bind, EStateM.bind, tryCatch, tryCatchThe, MonadExceptOf.tryCatch, EStateM.tryCatch,
      hok, pure, EStateM.pure]
    rfl
  exact ⟨_, rfl, transcript_foldl_accepted q _ c hw⟩

/-! ## Memory transfers -/

/-- Memory moves in pieces. A read from a stub that answers each read with at least one byte of
`mem` from the address asked on returns exactly the bytes of `mem` asked for, after one request
per answer and at most one per byte, each at `a` plus what was received so far and for at most
`maxMemoryChunk` bytes; from any stub, an answer that brings no bytes fails the read with
`memoryAccess`. A write to a stub that accepts every piece sends one request for each
`maxMemoryChunk` bytes of the data, rounded up, and their pieces lay the data out from `a`. -/
theorem memory_moves_in_pieces (c : Client (ScriptedStub σ)) (hc : Quiet c.link) (a : UInt64) :
    (∀ mem n, AnswersReads mem c.link.transport.respond →
      ∃ js c', Client.readMemory a n c = .ok (bytesAt mem a n) c' ∧ Fills n 0 js ∧ js.length ≤ n ∧
        c'.link.transport.transcript = c.link.transport.transcript ++ readExchanges mem a n 0 js) ∧
    (∀ n, ∃ new, (endState (Client.readMemory a n c)).link.transport.transcript =
        c.link.transport.transcript ++ new ∧
      ∀ p r, (p, some r) ∈ new → Barren r →
        ∃ reason c', Client.readMemory a n c = .error (.memoryAccess a n reason) c') ∧
    (∀ d, AcceptsWrites c.link.transport.respond →
      ∃ ps c', Client.writeMemory a d c = .ok () c' ∧
        c'.link.transport.transcript = c.link.transport.transcript ++
          ps.map (fun x => (writeRequest x.1 x.2, some okReply)) ∧
        ps.length = (d.length + maxMemoryChunk - 1) / maxMemoryChunk ∧ LaysOut a 0 ps d) := by
  refine ⟨fun mem n hr => ?_, readMemory_barren hc a, fun d hw => ?_⟩
  · obtain ⟨js, c', hrun, hfills, htrans⟩ := readMemory_answered hc hr a n
    exact ⟨js, c', hrun, hfills, by simpa using length_le_of_fills hfills, htrans⟩
  · obtain ⟨c', hrun, htrans⟩ := writeMemory_accepted hc hw a d
    refine ⟨((Client.pieces (maxMemoryChunk - 1) d).zipIdx).map
      fun x => (a + (x.2 * maxMemoryChunk).toUInt64, x.1), c', hrun, ?_, ?_, ?_⟩
    · rw [htrans, List.map_map]
      rfl
    · rw [List.length_map, List.length_zipIdx, Client.length_pieces]
    · simpa using laysOut_pieces a d 0

/-- A stub over `mem` that answers a read of `k` bytes with `k + 1` of them and accepts every
write. -/
def overReading (mem : UInt64 → UInt8) : ScriptedStub Unit where
  state := ()
  respond _ p := ((), match MemoryRequest.parse p with
    | some (.read x k) => some (Hex.digits (bytesAt mem x (k + 1)))
    | some (.write _ _) => some okReply
    | none => none)

theorem memory_moves_in_pieces_overReading :
    (∃ js : List Nat, ∃ c', Client.readMemory 0xfff 0x1001 (⟨⟨overReading UInt64.toUInt8, {}, [], [], 3⟩, 0, #[]⟩ :
        Client (ScriptedStub Unit)) = .ok (bytesAt UInt64.toUInt8 0xfff 0x1001) c' ∧ js.length ≤ 0x1001) ∧
    ∃ ps c', Client.writeMemory 0xfff (List.replicate 0x1001 7)
        (⟨⟨overReading UInt64.toUInt8, {}, [], [], 3⟩, 0, #[]⟩ : Client (ScriptedStub Unit)) = .ok () c' ∧
      ps.length = 3 ∧ LaysOut 0xfff 0 ps (List.replicate 0x1001 7) := by
  have h := memory_moves_in_pieces (⟨⟨overReading UInt64.toUInt8, {}, [], [], 3⟩, 0, #[]⟩ :
    Client (ScriptedStub Unit)) ⟨rfl, rfl, rfl, rfl, rfl⟩ 0xfff
  obtain ⟨js, c', hrun, -, hlen, -⟩ := h.1 UInt64.toUInt8 0x1001 fun _ x k =>
    ⟨k + 1, Nat.succ_pos k, by
      simp only [overReading]
      rw [readRequest, Client.text_readRequest, MemoryRequest.parse_read]⟩
  obtain ⟨ps, c'', hw, -, hcount, hlay⟩ := h.2.2 (List.replicate 0x1001 7) fun _ x d => by
    simp only [overReading]
    rw [writeRequest, Client.text_writeRequest, MemoryRequest.parse_write]
  exact ⟨⟨js, c', hrun, hlen⟩, ps, c'', hw, by rw [hcount, List.length_replicate]; rfl, hlay⟩

end ScriptedStub

end RemoteDebugger
