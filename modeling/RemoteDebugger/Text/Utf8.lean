/-!
# Lossy UTF-8

Reading bytes as text when they may not be valid UTF-8. Every maximal prefix of
a well-formed sequence that cannot be completed becomes one replacement
character U+FFFD, and so does every byte that cannot start a sequence; this is
the substitution rule of the Unicode standard (§3.9, "maximal subparts").
-/

namespace RemoteDebugger.Utf8

/-- Whether a byte continues a multi-byte sequence. -/
def isContinuation (b : UInt8) : Bool := 0x80 ≤ b && b ≤ 0xBF

/-- The range allowed for the second byte after a given lead byte. -/
def secondRange (lead : UInt8) : UInt8 × UInt8 :=
  if lead = 0xE0 then (0xA0, 0xBF)
  else if lead = 0xED then (0x80, 0x9F)
  else if lead = 0xF0 then (0x90, 0xBF)
  else if lead = 0xF4 then (0x80, 0x8F)
  else (0x80, 0xBF)

/-- How many bytes a sequence with this lead byte has, or `0` when it cannot lead. -/
def sequenceLength (lead : UInt8) : Nat :=
  if lead < 0x80 then 1
  else if 0xC2 ≤ lead && lead ≤ 0xDF then 2
  else if 0xE0 ≤ lead && lead ≤ 0xEF then 3
  else if 0xF0 ≤ lead && lead ≤ 0xF4 then 4
  else 0

/-- The replacement character. -/
def replacement : Char := '�'

/-- The code point of a complete sequence: the lead's payload bits followed by six bits per
continuation byte. -/
def codePoint (lead : UInt8) (rest : List UInt8) : Nat :=
  let leadBits := match rest.length with
    | 0 => lead.toNat
    | 1 => lead.toNat % 32
    | 2 => lead.toNat % 16
    | _ => lead.toNat % 8
  rest.foldl (fun acc b => acc * 64 + b.toNat % 64) leadBits

/-- How many continuation bytes after a lead byte are acceptable, at most `need`: the second
byte is checked against the lead's range, later ones against the plain continuation range. -/
def acceptedTail (lead : UInt8) (need : Nat) (bytes : List UInt8) : Nat :=
  match need, bytes with
  | 0, _ => 0
  | _, [] => 0
  | n + 1, b :: bs =>
    let (lo, hi) := secondRange lead
    if lo ≤ b && b ≤ hi then 1 + ((bs.take n).takeWhile isContinuation).length else 0

/-- Decode bytes, replacing each ill-formed part by U+FFFD. -/
def decodeLossy : List UInt8 → List Char
  | [] => []
  | b :: bs =>
    let len := sequenceLength b
    if len = 1 then Char.ofNat b.toNat :: decodeLossy bs
    else if len = 0 then replacement :: decodeLossy bs
    else
      let ok := acceptedTail b (len - 1) bs
      if ok = len - 1 then
        Char.ofNat (codePoint b (bs.take ok)) :: decodeLossy (bs.drop ok)
      else replacement :: decodeLossy (bs.drop ok)
termination_by bytes => bytes.length
decreasing_by all_goals simp only [List.length_drop, List.length_cons]; omega

/-- The lossy text of a byte string. -/
def toText (bytes : List UInt8) : String := String.ofList (decodeLossy bytes)

/-- The UTF-8 bytes of a text. -/
def ofText (s : String) : List UInt8 := s.toUTF8.toList

end RemoteDebugger.Utf8
