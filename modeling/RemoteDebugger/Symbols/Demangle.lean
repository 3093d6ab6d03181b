import RemoteDebugger.Text.Quoted

/-!
# Demangling linkage names

Rust symbols in the legacy `_ZN` and the current `_R` mangling made readable; any other name is
shown as written.
-/

namespace RemoteDebugger.Demangle

/-- Whether a character is an ASCII letter or digit. -/
def isAlnum (c : Char) : Bool := c.isAlphanum && c.toNat < 128

/-- Whether a character is ASCII punctuation. -/
def isPunct (c : Char) : Bool :=
  (33 ≤ c.toNat && c.toNat ≤ 47) || (58 ≤ c.toNat && c.toNat ≤ 64) ||
    (91 ≤ c.toNat && c.toNat ≤ 96) || (123 ≤ c.toNat && c.toNat ≤ 126)

/-- Whether a character is a hex digit of either case. -/
def isHex (c : Char) : Bool := c.isDigit || ('a' ≤ c && c ≤ 'f') || ('A' ≤ c && c ≤ 'F')

/-- Whether a character is a lowercase hex digit. -/
def isLowerHex (c : Char) : Bool := c.isDigit || ('a' ≤ c && c ≤ 'f')

/-- The value of a lowercase hex digit. -/
def hexValue (c : Char) : Nat := if c.isDigit then c.toNat - 48 else c.toNat - 87

/-- The value of decimal digits. -/
def decimal (ds : List Char) : Nat := ds.foldl (fun n d => 10 * n + (d.toNat - 48)) 0

/-- Split the path elements of a legacy symbol body; the text after the closing `E` comes back
too. Each element is a decimal length and that many characters, and a character must follow
every element. Each element takes at least two characters, so the body's length is enough
fuel. -/
def legacyElements : Nat → List Char → Option (List (List Char) × List Char)
  | 0, _ => none
  | _ + 1, [] => none
  | _ + 1, 'E' :: rest => some ([], rest)
  | fuel + 1, cs@(c :: _) =>
    if !c.isDigit then none
    else
      let after := cs.dropWhile Char.isDigit
      let len := decimal (cs.takeWhile Char.isDigit)
      if len ≥ UInt64.size ∨ after.length < len + 1 then none
      else (legacyElements fuel (after.drop len)).map fun (els, rest) => (after.take len :: els, rest)

/-- Whether an element is a symbol hash: `h` and hex digits. -/
def isHash : List Char → Bool
  | 'h' :: ds => ds.all isHex
  | _ => false

/-- The character a legacy escape stands for: the named ones, or `u` and lowercase hex digits
of a character that is not a control character. -/
def unescape (esc : List Char) : Option String :=
  match esc with
  | ['S', 'P'] => some "@"
  | ['B', 'P'] => some "*"
  | ['R', 'F'] => some "&"
  | ['L', 'T'] => some "<"
  | ['G', 'T'] => some ">"
  | ['L', 'P'] => some "("
  | ['R', 'P'] => some ")"
  | ['C'] => some ","
  | 'u' :: ds =>
    if ds.isEmpty || !ds.all isLowerHex then none
    else
      let n := ds.foldl (fun n d => 16 * n + hexValue d) 0
      if n ≥ UInt32.size ∨ n ≤ 0x1F ∨ (0x7F ≤ n ∧ n ≤ 0x9F) ∨ (0xD800 ≤ n ∧ n ≤ 0xDFFF) ∨ n > 0x10FFFF then
        none
      else some (Char.ofNat n).toString
  | _ => none

/-- The text of one legacy element: `..` reads `::`, escapes between `$` signs are replaced,
and the rest is kept. An escape that is not understood ends the replacing; what is left is
written as it stands. -/
def legacyElementText : Nat → List Char → String
  | 0, rest => String.ofList rest
  | _ + 1, [] => ""
  | fuel + 1, '.' :: '.' :: rest => "::" ++ legacyElementText fuel rest
  | fuel + 1, '.' :: rest => "." ++ legacyElementText fuel rest
  | fuel + 1, cs@('$' :: rest) =>
    match rest.idxOf? '$' with
    | none => String.ofList cs
    | some i =>
      match unescape (rest.take i) with
      | some s => s ++ legacyElementText fuel (rest.drop (i + 1))
      | none => String.ofList cs
  | fuel + 1, cs =>
    let plain := cs.takeWhile fun c => c != '$' && c != '.'
    if plain.length = cs.length then String.ofList cs
    else String.ofList plain ++ legacyElementText fuel (cs.drop plain.length)

/-- A legacy path, elements joined by `::`, without a trailing hash. -/
def legacyText (elements : List (List Char)) : String :=
  let shown :=
    match elements.getLast? with
    | some last => if isHash last then elements.dropLast else elements
    | none => elements
  "::".intercalate (shown.map fun el =>
    let el := match el with
      | '_' :: '$' :: more => '$' :: more
      | _ => el
    legacyElementText (el.length + 1) el)

/-- The body of a legacy symbol after its prefix; it has at least two characters. -/
def legacyBody (s : List Char) : Option (List Char) :=
  let body := match s with
    | '_' :: 'Z' :: 'N' :: rest => some rest
    | 'Z' :: 'N' :: rest => some rest
    | '_' :: '_' :: 'Z' :: 'N' :: rest => some rest
    | _ => none
  body.filter (·.length ≥ 2)

/-- A legacy symbol: its readable path and the text after it. -/
def legacy (s : List Char) : Option (String × List Char) := do
  let body ← legacyBody s
  if body.any (·.toNat ≥ 128) then none
  let (elements, rest) ← legacyElements (body.length + 1) body
  pure (legacyText elements, rest)

/-- Remove an `.llvm.` suffix made of uppercase hex digits and `@`. -/
def stripLlvm (s : String) : String :=
  match s.splitOn ".llvm." with
  | first :: second :: more =>
    let tail := ".llvm.".intercalate (second :: more)
    if tail.all fun c => c.isDigit || ('A' ≤ c && c ≤ 'F') || c = '@' then first else s
  | _ => s

/-! ## Symbols of the current scheme

The body is a path in a small prefix grammar: `C` a crate root, `N` a nested
name in a namespace, `M`, `X` and `Y` implementations and trait items, `I`
generic arguments, and `B` a back reference to an earlier position. Types,
constants and lifetimes appear as generic arguments. A printer reads the body
and writes the readable path as it goes; after a fault it writes a marker and
every later read writes `?`. A back reference is followed only when writing,
and after it the reader continues where it was, fault or not. Back references
can make the output grow exponentially, so it is capped at a million bytes;
a name cut there ends with `{size limit reached}`.
-/

/-- The readable name of a one-letter basic type. -/
def basicType : Char → Option String
  | 'b' => some "bool" | 'c' => some "char" | 'e' => some "str" | 'u' => some "()"
  | 'a' => some "i8" | 's' => some "i16" | 'l' => some "i32" | 'x' => some "i64"
  | 'n' => some "i128" | 'i' => some "isize" | 'h' => some "u8" | 't' => some "u16"
  | 'm' => some "u32" | 'y' => some "u64" | 'o' => some "u128" | 'j' => some "usize"
  | 'f' => some "f32" | 'd' => some "f64" | 'z' => some "!" | 'p' => some "_"
  | 'v' => some "..."
  | _ => none

/-- The deepest nesting of paths, types and constants a symbol may have. -/
def maxDepth : Nat := 500

/-- An identifier: its plain part and its punycode part. -/
structure Ident where
  ascii : List Char
  punycode : List Char

/-- Decode punycode into at most 128 characters, inserting into the plain part. -/
def punycodeDecode (ascii punycode : List Char) : Option (List Char) :=
  if punycode.isEmpty then none else
  if ascii.length > 128 then none else
  deltas punycode.length punycode ascii 0 0x80 72 700
where
  /-- Read one delta of the variable-length encoding. -/
  delta : Nat → List Char → Nat → Nat → Nat → Nat → Option (Nat × List Char)
    | 0, _, _, _, _, _ => none
    | _ + 1, [], _, _, _, _ => none
    | fuel + 1, d :: ds, bias, k, w, acc =>
      let k := k + 36
      let t := min (max (k - bias) 1) 26
      let v := if 'a' ≤ d ∧ d ≤ 'z' then some (d.toNat - 97)
        else if '0' ≤ d ∧ d ≤ '9' then some (26 + d.toNat - 48) else none
      match v with
      | none => none
      | some v =>
        let acc := acc + v * w
        if v * w ≥ UInt64.size ∨ acc ≥ UInt64.size then none
        else if v < t then some (acc, ds)
        else if w * (36 - t) ≥ UInt64.size then none
        else delta fuel ds bias k (w * (36 - t)) acc
  /-- Insert one character per delta until the input ends. -/
  deltas : Nat → List Char → List Char → Nat → Nat → Nat → Nat → Option (List Char)
    | 0, _, _, _, _, _, _ => none
    | fuel + 1, input, out, i, n, bias, damp => do
      let (d, rest) ← delta (input.length + 1) input bias 0 1 0
      let len := out.length + 1
      let i := i + d
      if i ≥ UInt64.size then none
      let n := n + i / len
      if n ≥ UInt64.size then none
      let i := i % len
      if n ≥ 0x110000 ∨ (0xD800 ≤ n ∧ n ≤ 0xDFFF) then none
      if out.length ≥ 128 then none
      let out := out.take i ++ Char.ofNat n :: out.drop i
      if rest.isEmpty then some out
      else
        let d := d / damp
        let d := d + d / len
        let (d, k) := adapt 64 d 0
        deltas fuel rest out (i + 1) n (k + (36 * d) / (d + 38)) 2
  /-- Scale a delta down for the next bias. -/
  adapt : Nat → Nat → Nat → Nat × Nat
    | 0, d, k => (d, k)
    | fuel + 1, d, k => if d > 455 then adapt fuel (d / 35) (k + 36) else (d, k)

/-- The pieces an identifier is written in: each decoded character when the punycode decodes,
else the plain part, or the encoding spelled out. -/
def Ident.pieces (id : Ident) : List String :=
  match punycodeDecode id.ascii id.punycode with
  | some cs => cs.map Char.toString
  | none =>
    if id.punycode.isEmpty then [String.ofList id.ascii]
    else ["punycode\x7b"] ++ (if id.ascii.isEmpty then [] else [String.ofList id.ascii, "-"]) ++
      [String.ofList id.punycode, "\x7d"]

/-- The text of an identifier: decoded punycode when it decodes, else the encoding itself. -/
def Ident.text (id : Ident) : String := String.join id.pieces

/-- Whether an identifier is empty. -/
def Ident.isEmpty (id : Ident) : Bool := id.ascii.isEmpty && id.punycode.isEmpty

/-- Why reading stopped: `true` for nesting too deep, `false` for broken syntax. -/
abbrev Read (α : Type) := Except Bool α

/-- A reader of the symbol body at a position and nesting depth. -/
structure Cursor where
  pos : Nat
  depth : Nat

/-- One read step: a value and the cursor after it. -/
abbrev Step (α : Type) := Array Char → Cursor → Read (α × Cursor)

/-- The next character. -/
def nextChar : Step Char := fun sym c =>
  match sym[c.pos]? with
  | some ch => .ok (ch, { c with pos := c.pos + 1 })
  | none => .error false

/-- One more level of nesting. -/
def pushDepth : Step Unit := fun _ c =>
  if c.depth + 1 > maxDepth then .error true else .ok ((), { c with depth := c.depth + 1 })

/-- Lowercase hex digits up to an underscore. -/
def hexNibbles (sym : Array Char) (c : Cursor) : Read (List Char × Cursor) :=
  go (sym.size + 1) [] c.pos
where
  go : Nat → List Char → Nat → Read (List Char × Cursor)
    | 0, _, _ => .error false
    | fuel + 1, acc, pos =>
      match sym[pos]? with
      | some '_' => .ok (acc.reverse, { c with pos := pos + 1 })
      | some d => if isLowerHex d then go fuel (d :: acc) (pos + 1) else .error false
      | none => .error false

/-- The value of a base-62 digit. -/
def digit62 (d : Char) : Option Nat :=
  if d.isDigit then some (d.toNat - 48)
  else if 'a' ≤ d ∧ d ≤ 'z' then some (d.toNat - 97 + 10)
  else if 'A' ≤ d ∧ d ≤ 'Z' then some (d.toNat - 65 + 36)
  else none

/-- A base-62 number ended by an underscore: `_` is zero, otherwise one more than the digits
say. -/
def integer62 (sym : Array Char) (c : Cursor) : Read (Nat × Cursor) :=
  if sym[c.pos]? = some '_' then .ok (0, { c with pos := c.pos + 1 })
  else go (sym.size + 1) 0 c.pos
where
  go : Nat → Nat → Nat → Read (Nat × Cursor)
    | 0, _, _ => .error false
    | fuel + 1, x, pos =>
      match sym[pos]? with
      | some '_' => if x + 1 ≥ UInt64.size then .error false else .ok (x + 1, { c with pos := pos + 1 })
      | some d =>
        match digit62 d with
        | some v => if x * 62 + v ≥ UInt64.size then .error false else go fuel (x * 62 + v) (pos + 1)
        | none => .error false
      | none => .error false

/-- A base-62 number after a tag, or zero when the tag is absent. -/
def optInteger62 (tag : Char) : Step Nat := fun sym c =>
  if sym[c.pos]? = some tag then do
    let (x, c) ← integer62 sym { c with pos := c.pos + 1 }
    if x + 1 ≥ UInt64.size then .error false else pure (x + 1, c)
  else .ok (0, c)

/-- A namespace letter: uppercase ones are special (closures, shims), lowercase ones are not
shown. -/
def namespaceTag : Step (Option Char) := fun sym c => do
  let (ch, c) ← nextChar sym c
  if 'A' ≤ ch ∧ ch ≤ 'Z' then pure (some ch, c)
  else if 'a' ≤ ch ∧ ch ≤ 'z' then pure (none, c)
  else .error false

/-- A back reference after its `B`: the earlier position it names, one level deeper, and the
cursor after it. -/
def backref : Step Cursor := fun sym c => do
  let start := c.pos - 1
  let (i, c') ← integer62 sym c
  if i ≥ start then .error false
  else if c.depth + 1 > maxDepth then .error true
  else pure (⟨i, c.depth + 1⟩, c')

/-- An identifier: an optional `u` for punycode, a decimal length, an optional underscore and
that many characters; in punycode the plain part ends at the last underscore. -/
def ident (sym : Array Char) (c : Cursor) : Read (Ident × Cursor) := do
  let puny := sym[c.pos]? = some 'u'
  let pos := if puny then c.pos + 1 else c.pos
  let (len, pos) ← lengthAt pos
  let pos := if sym[pos]? = some '_' then pos + 1 else pos
  if len ≥ UInt64.size ∨ pos + len > sym.size then .error false
  else
    let text := (sym.extract pos (pos + len)).toList
    let c := { c with pos := pos + len }
    if puny then
      match (text.reverse.idxOf? '_') with
      | some j =>
        let cut := text.length - 1 - j
        let id : Ident := ⟨text.take cut, text.drop (cut + 1)⟩
        if id.punycode.isEmpty then .error false else pure (id, c)
      | none => if text.isEmpty then .error false else pure (⟨[], text⟩, c)
    else pure (⟨text, []⟩, c)
where
  lengthAt (pos : Nat) : Read (Nat × Nat) :=
    match sym[pos]? with
    | some '0' => .ok (0, pos + 1)
    | some d => if d.isDigit then digits (sym.size + 1) (d.toNat - 48) (pos + 1) else .error false
    | none => .error false
  digits : Nat → Nat → Nat → Read (Nat × Nat)
    | 0, n, pos => .ok (n, pos)
    | fuel + 1, n, pos =>
      match sym[pos]? with
      | some d =>
        if d.isDigit then
          if n * 10 + (d.toNat - 48) ≥ UInt64.size then .error false
          else digits fuel (n * 10 + (d.toNat - 48)) (pos + 1)
        else .ok (n, pos)
      | none => .ok (n, pos)

/-- The most bytes a readable name may take. Output is written in pieces, and the first piece
that would pass the limit ends the name, which is then marked as cut. -/
def maxOutput : Nat := 1000000

/-- The printer: the symbol, the reader (none after a fault), whether output is kept, the
output, the bytes still allowed, whether a piece did not fit, and how many lifetimes the
enclosing binders bound. -/
structure Printer where
  sym : Array Char
  reader : Option Cursor
  printing : Bool
  out : String
  room : Nat
  full : Bool
  bound : Nat

/-- A printer at the start of a body. -/
def Printer.start (sym : Array Char) (printing : Bool) : Printer :=
  ⟨sym, some ⟨0, 0⟩, printing, "", maxOutput, false, 0⟩

/-- Printing steps. -/
abbrev PrintM := StateM Printer

/-- Write one piece when output is kept and the limit has not been reached; a piece too long
for the room left reaches it. -/
def emit (s : String) : PrintM Unit :=
  modify fun p =>
    if !p.printing || p.full then p
    else if s.utf8ByteSize > p.room then { p with full := true }
    else { p with out := p.out ++ s, room := p.room - s.utf8ByteSize }

/-- Write pieces in order. -/
def emitAll (pieces : List String) : PrintM Unit := pieces.forM emit

/-- Whether the output limit has been reached; from then on loops and back references stop,
since nothing more can be written. -/
def stopped : PrintM Bool := do pure (← get).full

/-- Stop reading with a marker. -/
def fault (deep : Bool) : PrintM Unit := do
  emit (if deep then "\x7brecursion limit reached\x7d" else "\x7binvalid syntax\x7d")
  modify fun p => { p with reader := none }

/-- Run a read step; after an earlier fault it writes `?` instead. -/
def read {α : Type} (step : Step α) : PrintM (Option α) := do
  let p ← get
  match p.reader with
  | none => emit "?"; pure none
  | some c =>
    match step p.sym c with
    | .ok (a, c') => set { p with reader := some c' }; pure (some a)
    | .error deep => fault deep; pure none

/-- Consume a character if it is next. -/
def eat (ch : Char) : PrintM Bool := do
  let p ← get
  match p.reader with
  | some c =>
    if p.sym[c.pos]? = some ch then
      set { p with reader := some { c with pos := c.pos + 1 } }; pure true
    else pure false
  | none => pure false

/-- Leave one level of nesting. -/
def popDepth : PrintM Unit :=
  modify fun p => { p with reader := p.reader.map fun c => { c with depth := c.depth - 1 } }

/-- Step back to the character just read. -/
def unread : PrintM Unit :=
  modify fun p => { p with reader := p.reader.map fun c => { c with pos := c.pos - 1 } }

/-- Whether the reader is still sound. -/
def sound : PrintM Bool := do pure (← get).reader.isSome

/-- Write a lifetime by its de Bruijn index among the bound ones: `'a`, `'b`, and so on. -/
def lifetime (lt : Nat) : PrintM Unit := do
  let p ← get
  if !p.printing then return
  emit "'"
  if lt = 0 then emit "_"; return
  if lt > p.bound then fault false; return
  let depth := p.bound - lt
  if depth < 26 then emit (Char.ofNat (97 + depth)).toString
  else
    emit "_"
    emit (toString depth)

/-- The value of hex digits, if it fits in 64 bits. -/
def hexValueOf (ds : List Char) : Option Nat :=
  let ds := ds.dropWhile (· = '0')
  if ds.length > 16 then none else some (ds.foldl (fun n d => 16 * n + hexValue d) 0)

/-- Write an unsigned constant. -/
def constUint : PrintM Unit := do
  let some hex ← read hexNibbles | return
  match hexValueOf hex with
  | some v => emit (toString v)
  | none =>
    emit "0x"
    emit (String.ofList hex)

/-- A character as it is written inside quotes of the given kind. -/
def quotedChar (quote c : Char) : String :=
  if (quote = '\'' ∧ c = '"') ∨ (quote = '"' ∧ c = '\'') then c.toString
  else if c = '\'' then "\\'"
  else String.ofList ((Quoted.quote c.toString).toList.drop 1 |>.dropLast)

/-- Write characters between quotes of the given kind, one piece per character written. -/
def quoted (quote : Char) (cs : List Char) : PrintM Unit := do
  emit quote.toString
  cs.forM fun c => (quotedChar quote c).toList.forM fun e => emit e.toString
  emit quote.toString

/-- Bytes from pairs of hex digits. -/
def bytePairs : List Char → List UInt8
  | a :: b :: rest => (16 * hexValue a + hexValue b).toUInt8 :: bytePairs rest
  | _ => []

/-- Write a string constant from the hex of its UTF-8 bytes. -/
def constStr : PrintM Unit := do
  let some hex ← read hexNibbles | return
  let valid := hex.length % 2 = 0
  match (if valid then String.fromUTF8? (ByteArray.mk (bytePairs hex).toArray) else none) with
  | some s => quoted '"' s.toList
  | none => fault false

/-- What the printer is asked to read and write. -/
inductive Task where
  | path (inValue : Bool)
  | type
  | genericArg
  | const (inValue : Bool)
  | constField
  | dynTrait
  | dynProjections (isOpen : Bool)
  | pathMaybeOpen
  | fnSig
  /-- A pattern of a pattern type: a range, `!null`, or alternatives. -/
  | pattern
  /-- The alternatives of an or-pattern after the first, up to an `E`. -/
  | alternatives
  | binder (body : Task)
  | backref (body : Task)
  | skip (body : Task)
  /-- Items up to an `E`, separated; the count so far is carried. -/
  | list (item : Task) (sep : String) (count : Nat)

mutual

/-- Read and write one task; the number returned is a list's length or, for a path that may
leave generic arguments open, whether it did. The fuel bounds the nesting of tasks. -/
def run : Nat → Task → PrintM Nat
  | 0, _ => do fault true; pure 0
  | n + 1, .path inValue => runPath n inValue
  | n + 1, .type => runType n
  | n + 1, .genericArg => do
    if ← eat 'L' then
      let some lt ← read integer62 | return 0
      lifetime lt
    else if ← eat 'K' then discard <| run n (.const false)
    else discard <| run n .type
    pure 0
  | n + 1, .const inValue => runConst n inValue
  | n + 1, .constField => do
    let some _ ← read (optInteger62 's') | return 0
    let some name ← read ident | return 0
    emitAll name.pieces
    emit ": "
    discard <| run n (.const true)
    pure 0
  | n + 1, .dynTrait => do
    let o ← run n .pathMaybeOpen
    run n (.dynProjections (o != 0))
  | n + 1, .dynProjections isOpen => do
    if ← eat 'p' then
      emit (if isOpen then ", " else "<")
      let some name ← read ident | return 0
      emitAll name.pieces
      emit " = "
      if ← eat 'K' then discard <| run n (.const false)
      else discard <| run n .type
      run n (.dynProjections true)
    else
      if isOpen then emit ">"
      pure 0
  | n + 1, .pathMaybeOpen => do
    if ← eat 'B' then run n (.backref .pathMaybeOpen)
    else if ← eat 'I' then
      discard <| run n (.path false)
      emit "<"
      discard <| run n (.list .genericArg ", " 0)
      pure 1
    else
      discard <| run n (.path false)
      pure 0
  | n + 1, .fnSig => runFnSig n
  | n + 1, .pattern => do
    let some tag ← read nextChar | return 0
    match tag with
    | 'R' =>
      discard <| run n (.const false)
      emit "..="
      discard <| run n (.const false)
    | 'N' => emit "!null"
    | 'O' =>
      let some () ← read pushDepth | return 0
      discard <| run n .pattern
      discard <| run n .alternatives
      popDepth
    | _ => fault false
    pure 0
  | n + 1, .alternatives => do
    if ← eat 'E' then return 0
    if !(← sound) then fault false; return 0
    emit " | "
    discard <| run n .pattern
    run n .alternatives
  | n + 1, .binder body => do
    let some count ← read (optInteger62 'G') | return 0
    if !(← get).printing then return ← run n body
    if count > 0 then
      emit "for<"
      bindLifetimes count 0
      emit "> "
    let r ← run n body
    modify fun p => { p with bound := p.bound - count }
    pure r
  | n + 1, .backref body => do
    let some target ← read backref | return 0
    let p ← get
    -- past the output limit nothing more is written, so the target is not read again
    if !p.printing || p.full then return 0
    set { p with reader := some target }
    let r ← run n body
    modify fun q => { q with reader := p.reader }
    pure r
  | n + 1, .skip body => do
    let printing := (← get).printing
    modify fun p => { p with printing := false }
    discard <| run n body
    modify fun p => { p with printing := printing }
    pure 0
  | n + 1, .list item sep count => do
    if !(← sound) then return count
    if ← eat 'E' then return count
    if count > 0 then emit sep
    discard <| run n item
    run n (.list item sep (count + 1))

/-- Bind `count` lifetimes, writing each, until the output limit is reached. -/
def bindLifetimes : Nat → Nat → PrintM Unit
  | 0, _ => pure ()
  | k + 1, i => do
    if ← stopped then return
    if i > 0 then emit ", "
    modify fun p => { p with bound := p.bound + 1 }
    lifetime 1
    bindLifetimes k (i + 1)

/-- A path: crate root, nested name, implementation, generic arguments or back reference. -/
def runPath (n : Nat) (inValue : Bool) : PrintM Nat := do
  let some () ← read pushDepth | return 0
  let some tag ← read nextChar | return 0
  match tag with
  | 'C' =>
    let some _ ← read (optInteger62 's') | return 0
    let some name ← read ident | return 0
    emitAll name.pieces
  | 'N' =>
    let some ns ← read namespaceTag | return 0
    discard <| run n (.path inValue)
    -- the marker written by the next read needs its separator
    if !(← sound) then emit "::"
    let some dis ← read (optInteger62 's') | return 0
    let some name ← read ident | return 0
    match ns with
    | some c =>
      emit "::\x7b"
      emit (if c = 'C' then "closure" else if c = 'S' then "shim" else c.toString)
      if !name.isEmpty then
        emit ":"
        emitAll name.pieces
      emit "#"
      emit (toString dis)
      emit "\x7d"
    | none =>
      if !name.isEmpty then
        emit "::"
        emitAll name.pieces
  | 'M' | 'X' | 'Y' =>
    if tag != 'Y' then
      let some _ ← read (optInteger62 's') | return 0
      discard <| run n (.skip (.path false))
    emit "<"
    discard <| run n .type
    if tag != 'M' then
      emit " as "
      discard <| run n (.path false)
    emit ">"
  | 'I' =>
    discard <| run n (.path inValue)
    if inValue then emit "::"
    emit "<"
    discard <| run n (.list .genericArg ", " 0)
    emit ">"
  | 'B' => discard <| run n (.backref (.path inValue))
  | _ => fault false; return 0
  popDepth
  pure 0

/-- A type, perhaps marked as splatted by a leading `w`: basic, reference, pointer, array,
slice, tuple, function, pattern type (`T is P`), trait object, back reference or path. -/
def runType (n : Nat) : PrintM Nat := do
  if ← eat 'w' then emit "#[splat] "
  let some tag ← read nextChar | return 0
  if let some b := basicType tag then emit b; return 0
  let some () ← read pushDepth | return 0
  match tag with
  | 'R' | 'Q' =>
    emit "&"
    if ← eat 'L' then
      let some lt ← read integer62 | return 0
      if lt != 0 then
        lifetime lt
        emit " "
    if tag != 'R' then emit "mut "
    discard <| run n .type
  | 'P' | 'O' =>
    emit "*"
    emit (if tag != 'P' then "mut " else "const ")
    discard <| run n .type
  | 'A' | 'S' =>
    emit "["
    discard <| run n .type
    if tag = 'A' then
      emit "; "
      discard <| run n (.const true)
    emit "]"
  | 'T' =>
    emit "("
    let count ← run n (.list .type ", " 0)
    if count = 1 then emit ","
    emit ")"
  | 'F' => discard <| run n (.binder .fnSig)
  | 'W' =>
    discard <| run n .type
    emit " is "
    discard <| run n .pattern
  | 'D' =>
    emit "dyn "
    discard <| run n (.binder (.list .dynTrait " + " 0))
    if !(← eat 'L') then fault false; return 0
    let some lt ← read integer62 | return 0
    if lt != 0 then
      emit " + "
      lifetime lt
  | 'B' => discard <| run n (.backref .type)
  | _ =>
    unread
    discard <| run n (.path false)
  popDepth
  pure 0

/-- A function signature inside its binder. -/
def runFnSig (n : Nat) : PrintM Nat := do
  let isUnsafe ← eat 'U'
  let abi ← if ← eat 'K' then
      if ← eat 'C' then pure (some "C")
      else
        let some name ← read ident | return 0
        if name.ascii.isEmpty || !name.punycode.isEmpty then fault false; return 0
        pure (some (String.ofList name.ascii))
    else pure none
  if isUnsafe then emit "unsafe "
  if let some abi := abi then
    emit "extern \""
    -- dashes were written as underscores, so the parts between them are joined back
    match abi.splitOn "_" with
    | first :: rest =>
      emit first
      rest.forM fun part => do emit "-"; emit part
    | [] => pure ()
    emit "\" "
  emit "fn("
  discard <| run n (.list .type ", " 0)
  emit ")"
  if !(← eat 'u') then
    emit " -> "
    discard <| run n .type
  pure 0

/-- A constant: placeholder, integer, boolean, character, string, reference, array, tuple,
value of a named type, or back reference. -/
def runConst (n : Nat) (inValue : Bool) : PrintM Nat := do
  let some tag ← read nextChar | return 0
  let some () ← read pushDepth | return 0
  let braced := !inValue && ['e', 'A', 'T', 'V'].contains tag
  let braced := braced || (!inValue && (tag = 'R' || tag = 'Q'))
  match tag with
  | 'p' => emit "_"
  | 'h' | 't' | 'm' | 'y' | 'o' | 'j' => constUint
  | 'a' | 's' | 'l' | 'x' | 'n' | 'i' =>
    if ← eat 'n' then emit "-"
    constUint
  | 'b' =>
    let some hex ← read hexNibbles | return 0
    match hexValueOf hex with
    | some 0 => emit "false"
    | some 1 => emit "true"
    | _ => fault false; return 0
  | 'c' =>
    let some hex ← read hexNibbles | return 0
    match hexValueOf hex with
    | some v =>
      if v < 0x110000 ∧ ¬(0xD800 ≤ v ∧ v ≤ 0xDFFF) then
        quoted '\'' [Char.ofNat v]
      else fault false; return 0
    | none => fault false; return 0
  | 'e' =>
    if braced then emit "\x7b"
    emit "*"
    constStr
    if braced then emit "\x7d"
  | 'R' | 'Q' =>
    -- only a shared reference may hold a string, and only then is the `e` read
    let isStr ← if tag = 'R' then eat 'e' else pure false
    if isStr then constStr
    else
      if braced then emit "\x7b"
      emit "&"
      if tag != 'R' then emit "mut "
      discard <| run n (.const true)
      if braced then emit "\x7d"
  | 'A' =>
    if braced then emit "\x7b"
    emit "["
    discard <| run n (.list (.const true) ", " 0)
    emit "]"
    if braced then emit "\x7d"
  | 'T' =>
    if braced then emit "\x7b"
    emit "("
    let count ← run n (.list (.const true) ", " 0)
    if count = 1 then emit ","
    emit ")"
    if braced then emit "\x7d"
  | 'V' =>
    if braced then emit "\x7b"
    discard <| run n (.path true)
    let some kind ← read nextChar | return 0
    match kind with
    | 'U' => pure ()
    | 'T' =>
      emit "("
      discard <| run n (.list (.const true) ", " 0)
      emit ")"
    | 'S' =>
      emit " \x7b "
      discard <| run n (.list .constField ", " 0)
      emit " \x7d"
    | _ => fault false; return 0
    if braced then emit "\x7d"
  | 'B' => discard <| run n (.backref (.const inValue))
  | _ => fault false; return 0
  popDepth
  pure 0

end

/-- The body of a symbol of the current scheme after its prefix. -/
def symbolicBody : List Char → Option (List Char)
  | '_' :: 'R' :: rest => if rest.isEmpty then none else some rest
  | 'R' :: rest => if rest.isEmpty then none else some rest
  | '_' :: '_' :: 'R' :: rest => if rest.isEmpty then none else some rest
  | _ => none

/-- Enough nesting fuel for any body: every level reads a character or is bounded by the
depth limit. -/
def fuelFor (sym : Array Char) : Nat := 4 * (maxDepth + 2) * (sym.size + 2)

/-- A symbol of the current scheme: its readable path and the text after it. The body must
read as a path without faults, optionally followed by the path of the instantiating crate. -/
def symbolic (s : List Char) : Option (String × List Char) := do
  let body ← symbolicBody s
  let first ← body.head?
  if !('A' ≤ first ∧ first ≤ 'Z') then none
  if body.any (·.toNat ≥ 128) then none
  let sym := body.toArray
  let fuel := fuelFor sym
  let check (c : Cursor) : Option Cursor :=
    let (_, p) := (run fuel (.path false)).run { Printer.start sym false with reader := some c }
    p.reader
  let c ← check ⟨0, 0⟩
  let c ← match sym[c.pos]? with
    | some ch => if 'A' ≤ ch ∧ ch ≤ 'Z' then check c else some c
    | none => some c
  let (_, p) := (run fuel (.path true)).run (Printer.start sym true)
  pure (if p.full then p.out ++ "\x7bsize limit reached\x7d" else p.out, body.drop c.pos)

/-- Whether trailing text looks like symbol text: ASCII letters, digits and punctuation. -/
def isSymbolLike (s : List Char) : Bool := s.all fun c => isAlnum c || isPunct c

/-- The readable form of a linkage name; other names come back as they are. -/
def demangle (raw : String) : String :=
  let s := stripLlvm raw
  let cs := s.toList
  match (legacy cs).orElse fun _ => symbolic cs with
  | some (text, rest) =>
    if rest.isEmpty then text
    else if rest.head? = some '.' ∧ isSymbolLike rest then text ++ String.ofList rest
    else raw
  | none => raw

end RemoteDebugger.Demangle
