import RemoteDebugger.Object.Bytes

/-!
# Entropy coding of Zstandard data

The backward bit streams, finite state entropy tables and literal prefix codes of the Zstandard
format (RFC 8878); each reader gives nothing for an invalid description.
-/

namespace RemoteDebugger.Zstandard

/-- The `n` bits at bit offset `lo` from byte `base`, the first bit lowest; bytes past the end
of the data read as zero. -/
def bitsAt (data : ByteArray) (base lo n : Nat) : Nat :=
  let first := base + lo / 8
  let count := (lo % 8 + n + 7) / 8
  let word := (List.range count).foldr
    (fun j acc => acc * 256 + (data[first + j]?.getD 0).toNat) 0
  (word >>> (lo % 8)) % (1 <<< n)

/-! ## Backward bit streams -/

/-- A bit stream read backwards from byte `base` on. `left` counts the bits not yet read; reads
past the start give zeros and make it negative. -/
structure Backward where
  data : ByteArray
  base : Nat
  left : Int

/-- Read `n` bits; the bits nearer the end of the stream are the higher ones. -/
def Backward.read (b : Backward) (n : Nat) : Nat × Backward :=
  let pos := b.left - n
  let v :=
    if 0 ≤ pos then bitsAt b.data b.base pos.toNat n
    else if 0 < b.left then bitsAt b.data b.base 0 b.left.toNat <<< pos.natAbs
    else 0
  (v, { b with left := pos })

/-- Open the stream of the `size` bytes at `base`, below the marker bit of its last byte. -/
def Backward.start (data : ByteArray) (base size : Nat) : Option Backward :=
  if size = 0 ∨ base + size > data.size then none
  else
    let last := (data[base + size - 1]?.getD 0).toNat
    if last = 0 then none
    else some ⟨data, base, ((size - 1) * 8 + Nat.log2 last : Nat)⟩

/-! ## Finite state entropy tables -/

/-- One state of a table: its symbol, and the next state as `base` plus `bits` more bits. -/
structure Entry where
  symbol : Nat
  bits : Nat
  base : Nat
  deriving Inhabited

/-- A decoding table of `2^log` states. -/
structure Table where
  log : Nat
  states : Array Entry

/-- The entry of a state. -/
def Table.entry (t : Table) (state : Nat) : Entry := t.states[state]?.getD ⟨0, 0, 0⟩

/-- The symbol of a state. -/
def Table.symbol (t : Table) (state : Nat) : Nat := (t.entry state).symbol

/-- The first state, read from the stream. -/
def Table.first (t : Table) (b : Backward) : Nat × Backward := b.read t.log

/-- The state after a state. -/
def Table.next (t : Table) (state : Nat) (b : Backward) : Nat × Backward :=
  let e := t.entry state
  let (more, b) := b.read e.bits
  (e.base + more, b)

/-- A table of one state that always stands for one symbol and reads no bits. -/
def Table.single (symbol : Nat) : Table := ⟨0, #[⟨symbol, 0, 0⟩]⟩

/-- Bits read forwards from byte `base`, of which there are `limit`. -/
structure Forward where
  data : ByteArray
  base : Nat
  limit : Nat

/-- The `n` bits at a bit offset, if they are all there. -/
def Forward.get (f : Forward) (pos n : Nat) : Option Nat :=
  if pos + n ≤ f.limit then some (bitsAt f.data f.base pos n) else none

/-- Read runs of symbols without probability: two bits give the run's length, and a run of
three is followed by another. -/
def zeroRuns (f : Forward) : Nat → Nat → Array Int → Option (Nat × Array Int)
  | 0, _, _ => none
  | fuel + 1, pos, probs => do
    let k ← f.get pos 2
    let probs := probs ++ Array.replicate k 0
    if k = 3 then zeroRuns f fuel (pos + 2) probs else some (pos + 2, probs)

/-- Read probabilities until they add up to `total`; `-1` stands for a symbol less likely than
one state, and counts as one. Each value takes as few bits as the part of `total` still to be
given allows. -/
def probabilities (f : Forward) (total : Nat) : Nat → Nat → Nat → Array Int →
    Option (Nat × Array Int)
  | 0, _, _, _ => none
  | fuel + 1, pos, counter, probs =>
    if counter ≥ total then
      if counter = total then some (pos, probs) else none
    else do
      let room := total - counter + 1
      let width := Nat.log2 room + 1
      let raw ← f.get pos width
      let low := ((1 <<< width) - 1) - room
      let mask := (1 <<< (width - 1)) - 1
      let small := raw % (mask + 1)
      let (value, pos) :=
        if small < low then (small, pos + width - 1)
        else if raw > mask then (raw - low, pos + width)
        else (raw, pos + width)
      let prob : Int := value - 1
      let probs := probs.push prob
      if prob = 0 then
        let (pos, probs) ← zeroRuns f (f.limit + 1) pos probs
        probabilities f total fuel pos counter probs
      else probabilities f total fuel pos (counter + prob.natAbs) probs

/-- Read a table description at byte `start`, of the bytes before `stop`: an accuracy log of
at most `maxLog`, then the probabilities. Gives the log, the probabilities and the number of
bytes the description takes. -/
def readDescription (data : ByteArray) (start stop maxLog : Nat) : Option (Nat × Array Int × Nat) := do
  let f : Forward := ⟨data, start, (stop - start) * 8⟩
  let log := 5 + (← f.get 0 4)
  if log > maxLog then none
  let (bits, probs) ← probabilities f (1 <<< log) (f.limit + 1) 4 0 #[]
  if probs.size > 256 then none
  pure (log, probs, (bits + 7) / 8)

/-- The next free state in the spreading order: states at or above `high` are taken. -/
def nextFree (size step high : Nat) : Nat → Nat → Nat
  | 0, pos => pos
  | fuel + 1, pos =>
    let pos := (pos + step) % size
    if pos ≥ high then nextFree size step high fuel pos else pos

/-- Build the table of probabilities with accuracy log `log`, for symbols up to `maxSymbol`.
The less likely symbols take the highest states; the others are spread with a fixed odd step,
so that each symbol's states are scattered over the table. A symbol's states, in table order,
count on from its probability; the count's magnitude gives the bits to read. -/
def buildTable (log : Nat) (probs : Array Int) (maxSymbol : Nat) : Option Table := Id.run do
  if probs.size > maxSymbol + 1 then return none
  let size := 1 <<< log
  let mut symbols : Array Nat := Array.replicate size 0
  let mut high := size
  for s in [0:probs.size] do
    if probs[s]? = some (-1) then
      if high = 0 then return none
      high := high - 1
      symbols := symbols.setIfInBounds high s
  let step := (size >>> 1) + (size >>> 3) + 3
  let mut pos := 0
  for s in [0:probs.size] do
    let p := probs[s]?.getD 0
    if p > 0 then
      for _ in [0:p.toNat] do
        symbols := symbols.setIfInBounds pos s
        pos := nextFree size step high size pos
  let mut counters : Array Nat := probs.map fun p => if p = -1 then 1 else p.toNat
  let mut states : Array Entry := #[]
  for u in [0:size] do
    let s := symbols[u]?.getD 0
    let n := counters[s]?.getD 0
    counters := counters.setIfInBounds s (n + 1)
    let bits := log - Nat.log2 n
    states := states.push ⟨s, bits, (n <<< bits) - size⟩
  return some ⟨log, states⟩

/-! ## Prefix codes for literals -/

/-- A prefix code, as a table of `2^maxBits` entries indexed by the next `maxBits` bits: the
symbol and the length of its code. -/
structure Huffman where
  maxBits : Nat
  entries : Array (Nat × Nat)

/-- The longest code a literal may have. -/
def maxCodeLength : Nat := 11

/-- The code of weights given for every symbol but the last. A symbol of weight `w > 0` has a
code of `maxBits + 1 - w` bits; the weights' powers `2^(w-1)` must fall short of a power of two
by a power of two, which gives the last symbol's weight. -/
def Huffman.ofWeights (weights : Array Nat) : Option Huffman := Id.run do
  if weights.any (· > maxCodeLength) then return none
  let sum := weights.foldl (fun acc w => if w > 0 then acc + (1 <<< (w - 1)) else acc) 0
  if sum = 0 then return none
  let maxBits := Nat.log2 sum + 1
  let leftOver := (1 <<< maxBits) - sum
  if leftOver &&& (leftOver - 1) ≠ 0 then return none
  if maxBits > maxCodeLength then return none
  let all := weights.push (Nat.log2 leftOver + 1)
  let lengths := all.map fun w => if w > 0 then maxBits + 1 - w else 0
  let mut entries : Array (Nat × Nat) := #[]
  for k in [0:maxBits] do
    let len := maxBits - k
    for s in [0:lengths.size] do
      if lengths[s]? = some len then
        entries := entries ++ Array.replicate (1 <<< (maxBits - len)) (s, len)
  return some ⟨maxBits, entries⟩

/-- Read weights with two interleaved states of one table, alternating, until a state update
reads past the start of the stream; the other state then gives the last weight. -/
def interleaved (t : Table) : Nat → Nat → Nat → Backward → Array Nat → Option (Array Nat)
  | 0, _, _, _, _ => none
  | fuel + 1, s1, s2, b, acc =>
    let acc := acc.push (t.symbol s1)
    let (s1, b) := t.next s1 b
    if b.left < 0 then some (acc.push (t.symbol s2))
    else
      let acc := acc.push (t.symbol s2)
      let (s2, b) := t.next s2 b
      if b.left < 0 then some (acc.push (t.symbol s1))
      else if acc.size > 255 then none
      else interleaved t fuel s1 s2 b acc

/-- Read a prefix code description at byte `start`, of the bytes before `stop`. A first byte
below 128 is the size of weights compressed with a table; a larger one counts weights of four
bits each, two to a byte. Gives the code and the bytes the description takes. -/
def readHuffman (data : ByteArray) (start stop : Nat) : Option (Huffman × Nat) := do
  if start ≥ stop then none
  let header := (← data[start]?).toNat
  if header < 128 then
    let body := start + 1
    if header > stop - body then none
    let (log, probs, used) ← readDescription data body stop 20
    if used > header then none
    let t ← buildTable log probs 255
    let b ← Backward.start data (body + used) (header - used)
    let (s1, b) := t.first b
    let (s2, b) := t.first b
    let weights ← interleaved t (header * 8 + 260) s1 s2 b #[]
    pure (← Huffman.ofWeights weights, 1 + header)
  else
    let count := header - 127
    let bytes := (count + 1) / 2
    if bytes > stop - (start + 1) then none
    let weights := (Array.range count).map fun i =>
      let byte := (data[start + 1 + i / 2]?.getD 0).toNat
      if i % 2 = 0 then byte >>> 4 else byte % 16
    pure (← Huffman.ofWeights weights, 1 + bytes)

/-- Decode one stream of literals: from a first state of `maxBits` bits, emit the state's symbol
and shift in as many bits as its code is long, until the stream and `maxBits` zeros past its
start are read. With `exact`, the reads must end there exactly. -/
def Huffman.stream (h : Huffman) (b : Backward) (exact : Bool) (out : ByteArray) :
    Option ByteArray :=
  let (state, b) := b.read h.maxBits
  go (b.left.toNat + h.maxBits + 1) state b out
where
  go : Nat → Nat → Backward → ByteArray → Option ByteArray
    | 0, _, _, _ => none
    | fuel + 1, state, b, out =>
      if b.left > -(h.maxBits : Int) then
        let (symbol, len) := h.entries[state]?.getD (0, 0)
        if len = 0 then none
        else
          let (more, b) := b.read len
          let state := ((state <<< len) % (1 <<< h.maxBits)) ||| more
          go fuel state b (out.push symbol.toUInt8)
      else if exact ∧ b.left ≠ -(h.maxBits : Int) then none
      else some out

end RemoteDebugger.Zstandard
