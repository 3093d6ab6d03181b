import RemoteDebugger.Object.Zstandard.Entropy

/-!
# Zstandard frames

`decompress` decodes Zstandard data (RFC 8878): frames of stored, run and compressed blocks,
whose sequences copy literals and repeat earlier output, pulled from the decoder by a reader
that holds at most a window of output.
-/

namespace RemoteDebugger.Zstandard

/-- The magic number that starts a frame. -/
def frameMagic : Nat := 0xFD2FB528

/-- Whether a magic number starts a skippable frame. -/
def isSkippable (magic : Nat) : Bool := 0x184D2A50 ≤ magic && magic ≤ 0x184D2A5F

/-- The largest block, before or after decoding. -/
def maxBlockSize : Nat := 128 * 1024

/-- The unsigned little-endian number in `n` bytes at an offset, if they are all there. -/
def le (data : ByteArray) (offset n : Nat) : Option Nat := Bytes.uint data false offset n

/-! ## Sequence codes -/

/-- Literal lengths: the base and the number of extra bits of each code. -/
def literalLengthCode (code : Nat) : Option (Nat × Nat) :=
  if code < 16 then some (code, 0)
  else
    [(16, 1), (18, 1), (20, 1), (22, 1), (24, 2), (28, 2), (32, 3), (40, 3), (48, 4), (64, 6),
     (128, 7), (256, 8), (512, 9), (1024, 10), (2048, 11), (4096, 12), (8192, 13), (16384, 14),
     (32768, 15), (65536, 16)][code - 16]?

/-- Match lengths: the base and the number of extra bits of each code. -/
def matchLengthCode (code : Nat) : Option (Nat × Nat) :=
  if code < 32 then some (code + 3, 0)
  else
    [(35, 1), (37, 1), (39, 1), (41, 1), (43, 2), (47, 2), (51, 3), (59, 3), (67, 4), (83, 4),
     (99, 5), (131, 7), (259, 8), (515, 9), (1027, 10), (2051, 11), (4099, 12), (8195, 13),
     (16387, 14), (32771, 15), (65539, 16)][code - 32]?

/-- The largest offset code. -/
def maxOffsetCode : Nat := 31

/-- The predefined probabilities of literal length codes, with accuracy log 6. -/
def literalLengthDefault : Array Int :=
  #[4, 3, 2, 2, 2, 2, 2, 2, 2, 2, 2, 2, 2, 1, 1, 1, 2, 2, 2, 2, 2, 2, 2, 2, 2, 3, 2, 1, 1, 1, 1,
    1, -1, -1, -1, -1]

/-- The predefined probabilities of match length codes, with accuracy log 6. -/
def matchLengthDefault : Array Int :=
  #[1, 4, 3, 2, 2, 2, 2, 2, 2, 1, 1, 1, 1, 1, 1, 1, 1, 1, 1, 1, 1, 1, 1, 1, 1, 1, 1, 1, 1, 1, 1,
    1, 1, 1, 1, 1, 1, 1, 1, 1, 1, 1, 1, 1, 1, 1, -1, -1, -1, -1, -1, -1, -1]

/-- The predefined probabilities of offset codes, with accuracy log 5. -/
def offsetDefault : Array Int :=
  #[1, 1, 1, 1, 1, 1, 2, 2, 2, 1, 1, 1, 1, 1, 1, 1, 1, 1, 1, 1, 1, 1, 1, 1, -1, -1, -1, -1, -1]

/-- How the table of one kind of code is given. -/
structure CodeKind where
  defaultLog : Nat
  defaults : Array Int
  maxLog : Nat
  maxSymbol : Nat

/-- Literal length codes. -/
def literalLengths : CodeKind := ⟨6, literalLengthDefault, 9, 35⟩

/-- Offset codes. -/
def offsetCodes : CodeKind := ⟨5, offsetDefault, 8, maxOffsetCode⟩

/-- Match length codes. -/
def matchLengths : CodeKind := ⟨6, matchLengthDefault, 9, 52⟩

/-- The table a compression mode gives, from the description at `pos`: `0` the predefined
table, `1` a single symbol in one byte, `2` a described table, `3` the previous table. Gives the
table and the bytes read. -/
def CodeKind.table (k : CodeKind) (mode : Nat) (data : ByteArray) (pos stop : Nat)
    (previous : Option Table) : Option (Table × Nat) :=
  match mode with
  | 0 => do pure (← buildTable k.defaultLog k.defaults k.maxSymbol, 0)
  | 1 => do
    if pos ≥ stop then none
    let s := (← data[pos]?).toNat
    if s > k.maxSymbol then none
    pure (Table.single s, 1)
  | 2 => do
    let (log, probs, used) ← readDescription data pos stop k.maxLog
    pure (← buildTable log probs k.maxSymbol, used)
  | _ => do pure (← previous, 0)

/-- One sequence: literals to copy, then a match of `matchLength` bytes named by an offset
value. -/
structure Sequence where
  literalLength : Nat
  matchLength : Nat
  offsetValue : Nat

/-- The tables of the three codes. -/
structure CodeTables where
  literalLength : Table
  offset : Table
  matchLength : Table

/-- Decode `count` sequences from the states of the three tables. Each sequence reads the
offset's extra bits, then the match length's, then the literal length's; every sequence but
the last then updates the literal length, match length and offset states, in that order. The
stream may not be read past its start, and must be read to it. -/
def decodeSequences (t : CodeTables) : Nat → Nat → Nat → Nat → Backward → Array Sequence →
    Option (Array Sequence)
  | 0, _, _, _, b, acc => if b.left > 0 then none else some acc
  | left + 1, sl, so, sm, b, acc => do
    let (llBase, llBits) ← literalLengthCode (t.literalLength.symbol sl)
    let (mlBase, mlBits) ← matchLengthCode (t.matchLength.symbol sm)
    let ofCode := t.offset.symbol so
    if ofCode > maxOffsetCode then none
    let (ofMore, b) := b.read ofCode
    let (mlMore, b) := b.read mlBits
    let (llMore, b) := b.read llBits
    let acc := acc.push ⟨llBase + llMore, mlBase + mlMore, (1 <<< ofCode) + ofMore⟩
    let (sl, so, sm, b) :=
      if left = 0 then (sl, so, sm, b)
      else
        let (sl, b) := t.literalLength.next sl b
        let (sm, b) := t.matchLength.next sm b
        let (so, b) := t.offset.next so b
        (sl, so, sm, b)
    if b.left < 0 then none
    decodeSequences t left sl so sm b acc

/-! ## Carrying out sequences -/

/-- The three most recent offsets. -/
structure Recent where
  first : Nat
  second : Nat
  third : Nat

/-- The offsets a frame starts with. -/
def Recent.initial : Recent := ⟨1, 4, 8⟩

/-- The offset an offset value names, and the recent offsets after it. Values above 3 are
offsets plus 3. Values 1 to 3 name the recent offsets; after a sequence without literals they
name the second, the third, and the first less one. A named offset moves to the front. -/
def Recent.resolve (r : Recent) (value literalLength : Nat) : Nat × Recent :=
  if value > 3 then (value - 3, ⟨value - 3, r.first, r.second⟩)
  else if literalLength > 0 then
    match value with
    | 1 => (r.first, r)
    | 2 => (r.second, ⟨r.second, r.first, r.third⟩)
    | _ => (r.third, ⟨r.third, r.first, r.second⟩)
  else
    match value with
    | 1 => (r.second, ⟨r.second, r.first, r.third⟩)
    | 2 => (r.third, ⟨r.third, r.first, r.second⟩)
    | _ => (r.first - 1, ⟨r.first - 1, r.first, r.second⟩)

/-- Append `n` bytes, each the byte `offset` back from the end; the copy may overlap what it
writes. -/
def copyMatch (offset : Nat) : Nat → ByteArray → ByteArray
  | 0, out => out
  | n + 1, out => copyMatch offset n (out.push (out[out.size - offset]?.getD 0))

/-- What decoding keeps through a frame: all output so far, where the bytes the decoder still
holds start (those before were handed out), the recent offsets and the tables a later block
may reuse. -/
structure FrameState where
  out : ByteArray
  held : Nat
  recent : Recent := Recent.initial
  literalTable : Option Table := none
  offsetTable : Option Table := none
  matchTable : Option Table := none
  huffman : Option Huffman := none

/-- Carry out sequences with the block's literals; the literals left over come last. A match
may reach back only into the bytes the decoder still holds. -/
def FrameState.execute (st : FrameState) (literals : ByteArray) (seqs : List Sequence)
    (used : Nat) : Option FrameState :=
  match seqs with
  | [] => some { st with out := st.out ++ literals.extract used literals.size }
  | seq :: rest => do
    if used + seq.literalLength > literals.size then none
    let out := st.out ++ literals.extract used (used + seq.literalLength)
    let (offset, recent) := st.recent.resolve seq.offsetValue seq.literalLength
    if offset = 0 then none
    let out ←
      if seq.matchLength = 0 then some out
      else if offset > out.size - st.held then none
      else some (copyMatch offset seq.matchLength out)
    FrameState.execute { st with out, recent } literals rest (used + seq.literalLength)

/-! ## Blocks -/

/-- Decode compressed literals of `regenerated` bytes from `[start, stop)`: a prefix code, or the
previous block's when `reuse`, then one stream, or four behind a table of the first three
streams' sizes. -/
def decodeLiterals (data : ByteArray) (start stop regenerated : Nat) (fourStreams reuse : Bool)
    (previous : Option Huffman) : Option (ByteArray × Huffman) := do
  let (h, used) ← if reuse then do pure (← previous, 0) else readHuffman data start stop
  let s := start + used
  let out ←
    if fourStreams then do
      if stop - s < 6 then none
      let j1 ← le data s 2
      let j2 := j1 + (← le data (s + 2) 2)
      let j3 := j2 + (← le data (s + 4) 2)
      let body := s + 6
      if stop - body < j3 then none
      let bounds := [(body, j1), (body + j1, j2 - j1), (body + j2, j3 - j2), (body + j3, stop - body - j3)]
      bounds.foldlM (fun out (at₀, size) => do
        h.stream (← Backward.start data at₀ size) true out) ByteArray.empty
    else h.stream (← Backward.start data s (stop - s)) false ByteArray.empty
  if out.size ≠ regenerated then none
  pure (out, h)

/-- The literals section at `start`: its kind and size fields, then its data. Gives the
literals, the position after the section and the prefix code to keep. -/
def literalsSection (data : ByteArray) (start stop : Nat) (previous : Option Huffman) :
    Option (ByteArray × Nat × Option Huffman) := do
  if start ≥ stop then none
  let b0 := (← data[start]?).toNat
  let kind := b0 % 4
  let format := (b0 >>> 2) % 4
  let header := if kind < 2 then [1, 2, 1, 3][format]?.getD 1 else [3, 3, 4, 5][format]?.getD 3
  if stop - start < header then none
  let field ← le data start header
  if kind < 2 then
    let regenerated := if format % 2 = 0 then b0 >>> 3 else field >>> 4
    let at₀ := start + header
    if kind = 0 then
      if stop - at₀ < regenerated then none
      pure (data.extract at₀ (at₀ + regenerated), at₀ + regenerated, previous)
    else
      if stop - at₀ < 1 then none
      let byte ← data[at₀]?
      pure (ByteArray.mk (Array.replicate regenerated byte), at₀ + 1, previous)
  else
    let width := [10, 10, 14, 18][format]?.getD 10
    let regenerated := (field >>> 4) % (1 <<< width)
    let compressed := (field >>> (4 + width)) % (1 <<< width)
    let at₀ := start + header
    if stop - at₀ < compressed then none
    let (lits, h) ← decodeLiterals data at₀ (at₀ + compressed) regenerated (format ≠ 0) (kind = 3) previous
    pure (lits, at₀ + compressed, some h)

/-- Decode a compressed block in `[start, stop)` onto the frame's output. -/
def FrameState.compressed (st : FrameState) (data : ByteArray) (start stop : Nat) :
    Option FrameState := do
  let (literals, pos, huffman) ← literalsSection data start stop st.huffman
  let st := { st with huffman }
  if pos ≥ stop then none
  let n0 := (← data[pos]?).toNat
  let header := if n0 < 128 then 1 else if n0 < 255 then 2 else 3
  if stop - pos < header then none
  let count ←
    if n0 < 128 then some n0
    else if n0 < 255 then do some (((n0 - 128) <<< 8) + (← le data (pos + 1) 1))
    else do some ((← le data (pos + 1) 2) + 0x7F00)
  if count = 0 then
    if pos + header ≠ stop then none
    return { st with out := st.out ++ literals }
  if stop - pos < header + 1 then none
  let modes := (← data[pos + header]?).toNat
  let p := pos + header + 1
  let (ll, u1) ← literalLengths.table (modes >>> 6) data p stop st.literalTable
  let (of, u2) ← offsetCodes.table ((modes >>> 4) % 4) data (p + u1) stop st.offsetTable
  let (ml, u3) ← matchLengths.table ((modes >>> 2) % 4) data (p + u1 + u2) stop st.matchTable
  let st := { st with literalTable := some ll, offsetTable := some of, matchTable := some ml }
  let streamStart := p + u1 + u2 + u3
  if streamStart > stop then none
  let b ← Backward.start data streamStart (stop - streamStart)
  let (sl, b) := ll.first b
  let (so, b) := of.first b
  let (sm, b) := ml.first b
  let seqs ← decodeSequences ⟨ll, of, ml⟩ count sl so sm b #[]
  st.execute literals seqs.toList 0

/-- Decode the block whose header is at `pos`; gives the state, the position after the block
and whether it is the frame's last. -/
def FrameState.block (st : FrameState) (data : ByteArray) (pos : Nat) :
    Option (FrameState × Nat × Bool) := do
  let h ← le data pos 3
  let last := h % 2 = 1
  let kind := (h >>> 1) % 4
  let size := h >>> 3
  let pos := pos + 3
  if kind = 3 ∨ size > maxBlockSize then none
  let (st, pos) ←
    if kind = 0 then do
      let bytes ← Bytes.slice data pos size
      pure ({ st with out := st.out ++ bytes }, pos + size)
    else if kind = 1 then do
      let byte ← data[pos]?
      pure ({ st with out := st.out ++ ByteArray.mk (Array.replicate size byte) }, pos + 1)
    else do
      if pos + size > data.size then none
      pure (← st.compressed data pos (pos + size), pos + size)
  pure (st, pos, last)

/-! ## Reading a frame -/

/-- A frame being decoded for a reader: the decoding state, where the next block starts, the
window of output the decoder keeps for matches, whether a checksum follows the last block, and
whether the last block is done. -/
structure Decoder where
  state : FrameState
  pos : Nat
  window : Nat
  checksum : Bool
  finished : Bool := false

/-- How many decoded bytes the decoder holds. -/
def Decoder.holding (d : Decoder) : Nat := d.state.out.size - d.state.held

/-- How many bytes the decoder can hand out now: all it holds once the frame is done, else
those beyond its window. -/
def Decoder.collectable (d : Decoder) : Nat :=
  if d.finished then d.holding else d.holding - d.window

/-- Decode the next block; the checksum after the last one must be there. -/
def Decoder.step (d : Decoder) (data : ByteArray) : Option Decoder := do
  let ⟨state, pos, window, checksum, _⟩ := d
  let (state, pos, last) ← state.block data pos
  if !last then return { state, pos, window, checksum }
  let pos := if checksum then pos + 4 else pos
  if pos > data.size then none
  pure { state, pos, window, checksum, finished := true }

/-- Decode blocks until `n` bytes can be handed out or the frame is done. Every block takes at
least its three header bytes, so the fuel `data.size + 1` is never used up. -/
def Decoder.fill (data : ByteArray) (n : Nat) : Nat → Decoder → Option Decoder
  | 0, _ => none
  | fuel + 1, d =>
    if d.finished ∨ n ≤ d.collectable then some d
    else do Decoder.fill data n fuel (← d.step data)

/-- Read at most `n` bytes: decode as much as that needs, then hand out what can be handed out,
up to `n`. No bytes means the frame is done and nothing is held. -/
def Decoder.read (d : Decoder) (data : ByteArray) (n : Nat) : Option (Decoder × Nat) := do
  let d ← Decoder.fill data n (data.size + 1) d
  let amount := min d.collectable n
  pure ({ d with state := { d.state with held := d.state.held + amount } }, amount)

/-- The size of a probing read. -/
def probeSize : Nat := 32

/-- The most a reader asks for at once until reads of that size come back full. -/
def firstReadLimit : Nat := 8192

/-- The room a vector of room `cap` holding `len` bytes takes on to fit `more` bytes: what it
has if that is enough, else at least twice as much, and never less than 8 bytes. -/
def grow (cap len more : Nat) : Nat :=
  if len + more ≤ cap then cap else max 8 (max (2 * cap) (len + more))

/-- Read into a probe of 32 bytes and append them to the vector, which grows to fit; gives the
decoder, the vector's room and the bytes read. -/
def Decoder.probe (d : Decoder) (data : ByteArray) (cap : Nat) : Option (Decoder × Nat × Nat) := do
  let len := d.state.held
  let (d, n) ← d.read data probeSize
  pure (d, grow cap len n, n)

/-- Read until no bytes come. The vector holds exactly the bytes handed out, so its length is
the decoder's `held`. A vector that is full and has not grown is probed first, so that an
exact fit does not grow it; a full one grows; then a read asks for all the room, up to a limit
that doubles whenever a read of the whole limit comes back full. Every round but the last adds
a byte, and a vector holds fewer than `2^64` bytes, so the fuel `UInt64.size` is never used up.
Gives the decoder and the vector's room. -/
def Decoder.readRounds (data : ByteArray) (startCap : Nat) :
    Nat → Decoder → Nat → Nat → Option (Decoder × Nat)
  | 0, _, _, _ => none
  | fuel + 1, d, cap, limit => do
    let (d, cap, done) ←
      if d.state.held = cap ∧ cap = startCap then do
        let (d, cap, n) ← d.probe data cap
        pure (d, cap, n == 0)
      else pure (d, cap, false)
    if done then return (d, cap)
    let cap := if d.state.held = cap then grow cap cap probeSize else cap
    let ask := min (cap - d.state.held) limit
    let (d, n) ← d.read data ask
    if n = 0 then return (d, cap)
    let limit := if limit ≤ ask ∧ n = ask then 2 * limit else limit
    Decoder.readRounds data startCap fuel d cap limit

/-- Read a frame to its end into a vector of room `cap`. A vector with less than a probe's room
is probed first, so that a frame with no output does not grow it. Gives the decoder, done, and
the vector's room. -/
def Decoder.readToEnd (d : Decoder) (data : ByteArray) (cap : Nat) : Option (Decoder × Nat) :=
  if cap - d.state.held < probeSize then do
    let (d', cap', n) ← d.probe data cap
    if n = 0 then pure (d', cap')
    else Decoder.readRounds data cap UInt64.size d' cap' firstReadLimit
  else Decoder.readRounds data cap UInt64.size d cap firstReadLimit

/-! ## Frames -/

/-- The window a frame header asks for: the content size of a single-segment frame, else a
power of two from `2^10` on, plus eighths of it. -/
def windowSize (single : Bool) (descriptor contentSize : Nat) : Option Nat :=
  if single then some contentSize
  else
    let base := 1 <<< (10 + (descriptor >>> 3))
    let size := base + (base / 8) * (descriptor % 8)
    if size < (1 <<< 41) + 7 * (1 <<< 38) then some size else none

/-- Read the frame whose header starts at `pos`, after its magic number, to its end, onto
`out` in a vector of room `cap`; gives the output, the vector's room and the position after
the frame. -/
def frame (data : ByteArray) (pos : Nat) (out : ByteArray) (cap : Nat) :
    Option (ByteArray × Nat × Nat) := do
  let d := (← data[pos]?).toNat
  let single := (d >>> 5) % 2 = 1
  let checksum := (d >>> 2) % 2 = 1
  let mut p := pos + 1
  let mut descriptor := 0
  if !single then
    descriptor := (← data[p]?).toNat
    p := p + 1
  let dictBytes := [0, 1, 2, 4][d % 4]?.getD 0
  let dictionary ← le data p dictBytes
  p := p + dictBytes
  let sizeBytes := [if single then 1 else 0, 2, 4, 8][d >>> 6]?.getD 0
  let contentSize ← le data p sizeBytes
  let contentSize := if sizeBytes = 2 then contentSize + 256 else contentSize
  p := p + sizeBytes
  let window ← windowSize single descriptor contentSize
  if dictionary ≠ 0 then none
  let start : Decoder := { state := { out, held := out.size }, pos := p, window, checksum }
  let (d, cap) ← start.readToEnd data cap
  pure (d.state.out, cap, d.pos)

/-- Decode frames from `pos` to the end of the data into a vector of room `cap`. -/
def frames (data : ByteArray) : Nat → Nat → ByteArray → Nat → Option ByteArray
  | 0, _, _, _ => none
  | fuel + 1, pos, out, cap =>
    if pos ≥ data.size then some out
    else do
      let magic ← le data pos 4
      if isSkippable magic then
        let length ← le data (pos + 4) 4
        if pos + 8 + length > data.size then none
        frames data fuel (pos + 8 + length) out cap
      else if magic = frameMagic then
        let (out, cap, next) ← frame data (pos + 4) out cap
        frames data fuel next out cap
      else none

/-- Decode Zstandard data, every frame one after another, read into a vector whose room is
first `capacity` bytes. -/
def decompress (data : ByteArray) (capacity : Nat) : Option ByteArray :=
  frames data (data.size + 1) 0 ByteArray.empty capacity

end RemoteDebugger.Zstandard
