/-!
# Shortest decimals of binary floats

`shortest` finds the fewest significant digits that read back as a finite binary float, the
nearest such decimal on a tie going up, in exact arithmetic on natural numbers; `positional`
writes them without exponent notation.
-/

namespace RemoteDebugger.Decimal

/-- A binary float by class. -/
inductive Binary where
  | nan
  | infinite (negative : Bool)
  | zero (negative : Bool)
  /-- `m · 2^q`, with `lowerTight` when the gap below is half the gap above (the
  smallest mantissa of a binade above the first). -/
  | finite (negative : Bool) (m : Nat) (q : Int) (lowerTight : Bool)
  deriving DecidableEq, Repr

/-- Classify the bits of a float with `fracBits` fraction bits and `expBits` exponent bits. -/
def Binary.ofBits (fracBits expBits : Nat) (bits : Nat) : Binary :=
  let frac := bits % Nat.pow 2 fracBits
  let expField := bits / Nat.pow 2 fracBits % Nat.pow 2 expBits
  let negative := bits / Nat.pow 2 (fracBits + expBits) % 2 = 1
  let bias : Int := (Nat.pow 2 (expBits - 1) : Nat) - 1
  if expField = Nat.pow 2 expBits - 1 then
    if frac = 0 then .infinite negative else .nan
  else if expField = 0 then
    if frac = 0 then .zero negative
    else .finite negative frac (1 - bias - fracBits) false
  else
    .finite negative (frac + Nat.pow 2 fracBits) (expField - bias - fracBits) (frac = 0 ∧ expField > 1)

/-- A 64-bit float by class. -/
def Binary.ofBits64 (bits : UInt64) : Binary := ofBits 52 11 bits.toNat

/-- A 32-bit float by class. -/
def Binary.ofBits32 (bits : UInt32) : Binary := ofBits 23 8 bits.toNat

/-- The exact number `n · 2^e · 10^k` as a fraction of naturals. -/
def scaled (n : Nat) (e k : Int) : Nat × Nat :=
  (n * Nat.pow 2 e.toNat * Nat.pow 10 k.toNat, Nat.pow 2 (-e).toNat * Nat.pow 10 (-k).toNat)

/-- Whether `a/b ≤ c/d`. -/
def fracLe (a b c d : Nat) : Bool := a * d ≤ c * b

/-- The exponent `E` with `10^E ≤ m · 2^q < 10^(E+1)`, found from an estimate by at most a
few corrections each way. -/
def magnitude (m : Nat) (q : Int) : Int :=
  let estimate : Int := ((Nat.log2 m : Int) + q) * 30103 / 100000
  let below (k : Int) : Bool :=  -- 10^k ≤ m · 2^q
    let (a, b) := scaled 1 0 k
    let (c, d) := scaled m q 0
    fracLe a b c d
  let up := (List.range 4).foldl (fun k _ => if below (k + 1) then k + 1 else k) estimate
  (List.range 4).foldl (fun k _ => if below k then k else k - 1) up

/-- Digits and exponent `(d, k)` of the shortest decimal `d · 10^k` that reads back as
`m · 2^q`; of several with the fewest digits, the nearest, a tie going up. -/
def shortest (m : Nat) (q : Int) (lowerTight : Bool) : Nat × Int :=
  -- All bounds in units of 2^(q-2): the value is 4m, the interval is [low, high].
  let e := q - 2
  let v := 4 * m
  let high := 4 * m + 2
  let low := if lowerTight then 4 * m - 1 else 4 * m - 2
  let inclusive := m % 2 = 0
  let top := magnitude m q
  let attempt (n : Nat) : Option (Nat × Int) :=
    let k := top - n + 1
    -- The interval and the value, divided by 10^k.
    let (lo, den) := scaled low e (-k)
    let (hi, _) := scaled high e (-k)
    let (val, _) := scaled v e (-k)
    let dmin := if inclusive then (lo + den - 1) / den else lo / den + 1
    let dmax := if inclusive then hi / den else (hi - 1) / den
    if dmin ≤ dmax then
      let c := val / den
      let r := val % den
      let d := if c + 1 ≤ dmax ∧ (c < dmin ∨ 2 * r ≥ den) then c + 1 else c
      some (d, k)
    else none
  let found := (List.range 18).findSome? fun i => attempt (i + 1)
  let (d, k) := found.getD (m, q)
  -- Drop trailing zeros of the digits.
  (List.range 20).foldl (fun (d, k) _ => if d % 10 = 0 ∧ d > 0 then (d / 10, k + 1) else (d, k)) (d, k)

/-- Digits `d · 10^k` written out in full, with a point only when there is a fraction. -/
def positional (d : Nat) (k : Int) : String :=
  let ds := (Nat.toDigits 10 d)
  let len : Int := ds.length
  let exp := len + k
  if exp ≤ 0 then
    "0." ++ String.ofList (List.replicate (-exp).toNat '0' ++ ds)
  else if exp < len then
    String.ofList (ds.take exp.toNat ++ '.' :: ds.drop exp.toNat)
  else
    String.ofList (ds ++ List.replicate (exp - len).toNat '0')

/-- The shortest positional text of a float: `NaN`, `inf`, `-inf`, `0`, `-0`, or the sign and
the shortest decimal that reads back. -/
def Binary.render : Binary → String
  | .nan => "NaN"
  | .infinite neg => if neg then "-inf" else "inf"
  | .zero neg => if neg then "-0" else "0"
  | .finite neg m q tight =>
    let (d, k) := shortest m q tight
    (if neg then "-" else "") ++ positional d k

end RemoteDebugger.Decimal
