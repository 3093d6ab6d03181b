import RemoteDebugger.Text.Blank

/-!
# Architectures

The target architecture as a stub names it in the `<architecture>` element of
its target description. Names are compared after trimming blanks; unknown
names are kept as given.
-/

namespace RemoteDebugger

/-- The architecture of a target. -/
inductive Architecture where
  | x86_64
  | x86
  | arm
  | unknown (name : String)
  deriving DecidableEq, Repr

namespace Architecture

/-- The architecture a target name denotes. -/
def ofName (name : String) : Architecture :=
  let n := Blank.trim name
  if n = "i386:x86-64" ∨ n = "x86-64" ∨ n = "x86_64" then .x86_64
  else if n = "i386" ∨ n = "i386:intel" then .x86
  else if n.startsWith "arm" then .arm
  else .unknown n

/-- The text between the first `<architecture>` and the next `</architecture>` after it. -/
def elementText (xml : String) : Option String :=
  match xml.splitOn "<architecture>" with
  | _ :: after :: more =>
    let rest := "<architecture>".intercalate (after :: more)
    match rest.splitOn "</architecture>" with
    | inner :: _ :: _ => some inner
    | _ => none
  | _ => none

/-- The architecture named in a target description; `unknown ""` when it names none. -/
def ofDescription (xml : String) : Architecture :=
  match elementText xml with
  | some inner => ofName inner
  | none => .unknown ""

/-- Size of a pointer in bytes. -/
def pointerSize : Architecture → Nat
  | .x86 | .arm => 4
  | _ => 8

/-- The architecture's display name; an unknown one shows as given, or as `unknown` when
it has no name. -/
def render : Architecture → String
  | .x86_64 => "x86_64"
  | .x86 => "x86"
  | .arm => "arm"
  | .unknown n => if n.isEmpty then "unknown" else n

end Architecture

end RemoteDebugger
