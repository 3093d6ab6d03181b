/-!
# Inflating zlib streams

`inflate data limit` decodes a zlib stream (RFC 1950, RFC 1951) into at most `limit` bytes: a
corrupt stream is refused, and one that runs out or passes the limit yields what it has
produced.
-/

namespace RemoteDebugger.Inflate

/-- Why decoding stopped before the end of the stream. -/
inductive Stop where
  /-- The stream is not valid. -/
  | corrupt
  /-- The input ended. -/
  | truncated
  /-- The output reached its limit. -/
  | full
  deriving DecidableEq, Repr

/-- The decoder's state: the input and the bit position in it, the output so far and the most
output allowed. -/
structure Inflater where
  data : ByteArray
  pos : Nat := 0
  out : ByteArray := ByteArray.empty
  limit : Nat

/-- Decoding steps; a stop keeps the state, so the output so far survives it. -/
abbrev InflateM := EStateM Stop Inflater

/-- The next bit, least significant first within each byte. -/
def bit : InflateM Nat := do
  let s ← get
  match s.data[s.pos / 8]? with
  | some byte =>
    set { s with pos := s.pos + 1 }
    pure ((byte.toNat >>> (s.pos % 8)) % 2)
  | none => throw .truncated

/-- The next `n` bits as a number, first bit lowest. -/
def bits : Nat → InflateM Nat
  | 0 => pure 0
  | n + 1 => do
    let b ← bit
    let rest ← bits n
    pure (b + 2 * rest)

/-- Skip to the next byte boundary. -/
def align : InflateM Unit := modify fun s => { s with pos := (s.pos + 7) / 8 * 8 }

/-- The next whole byte. -/
def byte : InflateM Nat := do
  let s ← get
  match s.data[s.pos / 8]? with
  | some b =>
    set { s with pos := s.pos + 8 }
    pure b.toNat
  | none => throw .truncated

/-- Append one output byte, unless the output is full. -/
def emit (b : UInt8) : InflateM Unit := do
  let s ← get
  if s.out.size ≥ s.limit then throw .full
  set { s with out := s.out.push b }

/-- A canonical Huffman code: how many codes each length has, and the symbols in code order. -/
structure Huffman where
  counts : Array Nat
  symbols : Array Nat

/-- The canonical code for some code lengths (zero means unused), or `none` when the lengths
over- or under-fill the code space. Unless the code must be complete, no code at all and a
single one-bit code are accepted; a stream that then sends a code with no symbol is corrupt. -/
def Huffman.ofLengths (lengths : List Nat) (complete : Bool) : Option Huffman :=
  let counts := (List.range 16).map fun l => (lengths.filter (· = l)).length
  let used := lengths.countP (· ≠ 0)
  let total := (List.range 15).foldl (fun t i => (t + counts.getD (i + 1) 0) * 2) 0
  let sparse := used = 0 ∨ (used = 1 ∧ counts.getD 1 0 = 1)
  if total ≠ 65536 ∧ (complete ∨ ¬sparse) then none
  else
    let symbols := ((lengths.zipIdx.filter (·.1 ≠ 0)).mergeSort fun a b => a.1 ≤ b.1).map (·.2)
    some ⟨counts.toArray, symbols.toArray⟩

/-- Decode one symbol, reading one bit per code length. -/
def Huffman.decode (h : Huffman) : InflateM Nat := go 15 1 0 0 0
where
  go : Nat → Nat → Nat → Nat → Nat → InflateM Nat
    | 0, _, _, _, _ => throw .corrupt
    | k + 1, len, code, first, index => do
      let code := code + (← bit)
      let count := h.counts.getD len 0
      if code < first + count then
        match h.symbols[index + (code - first)]? with
        | some s => pure s
        | none => throw .corrupt
      else go k (len + 1) (code * 2) ((first + count) * 2) (index + count)

/-- Base lengths of length symbols 257 to 285. -/
def lengthBase : Array Nat :=
  #[3, 4, 5, 6, 7, 8, 9, 10, 11, 13, 15, 17, 19, 23, 27, 31, 35, 43, 51, 59, 67, 83, 99, 115, 131,
    163, 195, 227, 258]

/-- Extra bits of length symbols 257 to 285. -/
def lengthExtra : Array Nat :=
  #[0, 0, 0, 0, 0, 0, 0, 0, 1, 1, 1, 1, 2, 2, 2, 2, 3, 3, 3, 3, 4, 4, 4, 4, 5, 5, 5, 5, 0]

/-- Base distances of distance symbols 0 to 29. -/
def distanceBase : Array Nat :=
  #[1, 2, 3, 4, 5, 7, 9, 13, 17, 25, 33, 49, 65, 97, 129, 193, 257, 385, 513, 769, 1025, 1537, 2049,
    3073, 4097, 6145, 8193, 12289, 16385, 24577]

/-- Extra bits of distance symbols 0 to 29. -/
def distanceExtra : Array Nat :=
  #[0, 0, 0, 0, 1, 1, 2, 2, 3, 3, 4, 4, 5, 5, 6, 6, 7, 7, 8, 8, 9, 9, 10, 10, 11, 11, 12, 12, 13, 13]

/-- Copy `n` bytes from `distance` bytes back in the output. -/
def copyBack (distance : Nat) : Nat → InflateM Unit
  | 0 => pure ()
  | n + 1 => do
    let s ← get
    if distance > s.out.size ∨ distance = 0 then throw .corrupt
    emit (s.out[s.out.size - distance]?.getD 0)
    copyBack distance n

/-- Decode the symbols of one compressed block up to its end symbol. Every symbol reads at
least one bit, so the input's bit count bounds the symbols. -/
def codes (lit dist : Huffman) : Nat → InflateM Unit
  | 0 => throw .truncated
  | fuel + 1 => do
    let sym ← lit.decode
    if sym < 256 then
      emit sym.toUInt8
      codes lit dist fuel
    else if sym = 256 then pure ()
    else
      let i := sym - 257
      if i ≥ 29 then throw .corrupt
      let len := lengthBase.getD i 0 + (← bits (lengthExtra.getD i 0))
      let d ← dist.decode
      if d ≥ 30 then throw .corrupt
      let distance := distanceBase.getD d 0 + (← bits (distanceExtra.getD d 0))
      copyBack distance len
      codes lit dist fuel

/-- The order in which code length code lengths are sent. -/
def lengthOrder : List Nat := [16, 17, 18, 0, 8, 7, 9, 6, 10, 5, 11, 4, 12, 3, 13, 2, 14, 1, 15]

/-- Read `n` code lengths with the code length code, expanding repeats. -/
def readLengths (h : Huffman) (n : Nat) : Nat → List Nat → InflateM (List Nat)
  | 0, acc => pure acc
  | fuel + 1, acc => do
    if acc.length ≥ n then return acc
    let sym ← h.decode
    if sym < 16 then readLengths h n fuel (acc ++ [sym])
    else
      let (value, times) ← match sym with
        | 16 => do
          match acc.getLast? with
          | some prev => pure (prev, 3 + (← bits 2))
          | none => throw .corrupt
        | 17 => do pure (0, 3 + (← bits 3))
        | _ => do pure (0, 11 + (← bits 7))
      if acc.length + times > n then throw .corrupt
      readLengths h n fuel (acc ++ List.replicate times value)

/-- The codes of a dynamic block, read from its header. -/
def dynamicCodes : InflateM (Huffman × Huffman) := do
  let nlen := (← bits 5) + 257
  let ndist := (← bits 5) + 1
  let ncode := (← bits 4) + 4
  if nlen > 286 ∨ ndist > 30 then throw .corrupt
  let mut given : List (Nat × Nat) := []
  for i in lengthOrder.take ncode do
    given := given ++ [(i, ← bits 3)]
  let codeLengths := (List.range 19).map fun i => (given.lookup i).getD 0
  let some lenCode := Huffman.ofLengths codeLengths true | throw .corrupt
  let lengths ← readLengths lenCode (nlen + ndist) (nlen + ndist + 1) []
  let some lit := Huffman.ofLengths (lengths.take nlen) false | throw .corrupt
  let some dist := Huffman.ofLengths (lengths.drop nlen) false | throw .corrupt
  pure (lit, dist)

/-- The fixed codes of block type 1. -/
def fixedCodes : Huffman × Huffman :=
  let lit := List.replicate 144 8 ++ List.replicate 112 9 ++ List.replicate 24 7 ++ List.replicate 8 8
  ((Huffman.ofLengths lit true).getD ⟨#[], #[]⟩, (Huffman.ofLengths (List.replicate 32 5) true).getD ⟨#[], #[]⟩)

/-- Copy a stored block. -/
def stored : InflateM Unit := do
  align
  let len := (← byte) + 256 * (← byte)
  let nlen := (← byte) + 256 * (← byte)
  if len + nlen ≠ 65535 then throw .corrupt
  for _ in List.range len do
    emit (← byte).toUInt8

/-- Decode blocks until the last one. -/
def blocks : Nat → InflateM Unit
  | 0 => throw .truncated
  | fuel + 1 => do
    let final ← bit
    let kind ← bits 2
    let budget := (← get).data.size * 8 + 1
    match kind with
    | 0 => stored
    | 1 => codes fixedCodes.1 fixedCodes.2 budget
    | 2 =>
      let (lit, dist) ← dynamicCodes
      codes lit dist budget
    | _ => throw .corrupt
    if final = 0 then blocks fuel

/-- The Adler-32 checksum of some bytes. -/
def adler32 (bytes : ByteArray) : Nat :=
  let (a, b) := bytes.foldl (fun (a, b) x => let a := (a + x.toNat) % 65521; (a, (b + a) % 65521)) (1, 0)
  b * 65536 + a

/-- Decode a whole zlib stream: header, blocks, checksum. -/
def stream : InflateM Unit := do
  let cmf ← byte
  let flg ← byte
  if (cmf * 256 + flg) % 31 ≠ 0 ∨ flg % 64 ≥ 32 ∨ cmf % 16 ≠ 8 ∨ cmf / 16 > 7 then throw .corrupt
  blocks ((← get).data.size * 8 + 1)
  align
  let check := (← byte) * 16777216 + (← byte) * 65536 + (← byte) * 256 + (← byte)
  if check ≠ adler32 (← get).out then throw .corrupt

/-- Inflate a zlib stream into at most `limit` bytes: `none` for a corrupt stream, otherwise
the bytes produced before the stream, the input or the room ended. -/
def inflate (data : ByteArray) (limit : Nat) : Option ByteArray :=
  match stream.run { data, limit } with
  | .ok _ s => some s.out
  | .error .corrupt _ => none
  | .error _ s => some s.out

end RemoteDebugger.Inflate
