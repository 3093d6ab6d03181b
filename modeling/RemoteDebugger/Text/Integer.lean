/-!
# Integers from text

Reading a number written in a radix: an optional sign (`-` only for signed
numbers), then at least one digit. The digits are taken left to right, and
the first one that is not a digit of the radix, or that carries the value past
the width, is the error; a lone sign counts as a bad digit. Letters are digits
in either case.
-/

namespace RemoteDebugger

/-- Why a text is not a number of the wanted width. -/
inductive IntegerError where
  | empty
  | invalidDigit
  | tooLarge
  | tooSmall
  deriving DecidableEq, Repr

/-- The description of a number that could not be read. -/
def IntegerError.message : IntegerError → String
  | .empty => "cannot parse integer from empty string"
  | .invalidDigit => "invalid digit found in string"
  | .tooLarge => "number too large to fit in target type"
  | .tooSmall => "number too small to fit in target type"

namespace Integer

/-- The value of a digit character in a radix of at most 36. -/
def digitValue (radix : Nat) (c : Char) : Option Nat :=
  let n := c.toNat
  let v :=
    if 48 ≤ n ∧ n ≤ 57 then n - 48
    else if 97 ≤ n ∧ n ≤ 122 then n - 87
    else if 65 ≤ n ∧ n ≤ 90 then n - 55
    else 36
  if v < radix then some v else none

/-- Accumulate digits onto a value below `bound`. -/
def accumulate (radix bound : Nat) : Nat → List Char → Except IntegerError Nat
  | acc, [] => .ok acc
  | acc, c :: cs =>
    match digitValue radix c with
    | none => .error .invalidDigit
    | some d =>
      if acc * radix + d < bound then accumulate radix bound (acc * radix + d) cs
      else .error .tooLarge

/-- An unsigned number of `bits` bits written in `radix`. -/
def parseUnsigned (radix bits : Nat) (s : String) : Except IntegerError Nat :=
  match s.toList with
  | [] => .error .empty
  | ['+'] | ['-'] => .error .invalidDigit
  | '+' :: rest => accumulate radix (Nat.pow 2 bits) 0 rest
  | cs => accumulate radix (Nat.pow 2 bits) 0 cs

/-- A signed number of `bits` bits written in `radix`. -/
def parseSigned (radix bits : Nat) (s : String) : Except IntegerError Int :=
  match s.toList with
  | [] => .error .empty
  | ['+'] | ['-'] => .error .invalidDigit
  | '-' :: rest =>
    match accumulate radix (Nat.pow 2 (bits - 1) + 1) 0 rest with
    | .ok v => .ok (-(v : Int))
    | .error .tooLarge => .error .tooSmall
    | .error e => .error e
  | '+' :: rest => (Int.ofNat ·) <$> accumulate radix (Nat.pow 2 (bits - 1)) 0 rest
  | cs => (Int.ofNat ·) <$> accumulate radix (Nat.pow 2 (bits - 1)) 0 cs

/-- A decimal 64-bit word. -/
def parseU64 (s : String) : Except IntegerError UInt64 := (·.toUInt64) <$> parseUnsigned 10 64 s

/-- A decimal 32-bit word. -/
def parseU32 (s : String) : Except IntegerError UInt32 := (·.toUInt32) <$> parseUnsigned 10 32 s

/-- A decimal 16-bit word. -/
def parseU16 (s : String) : Except IntegerError UInt16 := (·.toUInt16) <$> parseUnsigned 10 16 s

end Integer

end RemoteDebugger
