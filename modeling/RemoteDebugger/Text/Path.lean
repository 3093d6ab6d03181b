/-!
# Paths

Unix paths as text, compared and sorted by their components.
-/

namespace RemoteDebugger.Path

/-- One component of a path. -/
inductive Component where
  | root
  | current
  | parent
  | normal (name : String)
  deriving DecidableEq, Repr

/-- The place of a component kind in the order of components. -/
def Component.rank : Component → Nat
  | .root => 0
  | .current => 1
  | .parent => 2
  | .normal _ => 3

/-- Whether one component sorts before another. -/
def Component.lt : Component → Component → Bool
  | .normal a, .normal b => decide (a < b)
  | a, b => a.rank < b.rank

/-- Whether one list of components sorts before another. -/
def componentsLt : List Component → List Component → Bool
  | [], [] => false
  | [], _ :: _ => true
  | _ :: _, [] => false
  | x :: xs, y :: ys => if x.lt y then true else if y.lt x then false else componentsLt xs ys

/-- The parts of a text between the occurrences of a separator, empty parts included. -/
def splitAt (sep : Char) (s : String) : List String := (s.toList.splitOn sep).map String.ofList

/-- The components of a path. -/
def components (p : String) : List Component :=
  let parts := splitAt '/' p
  let rooted := p.startsWith "/"
  let lead : List Component :=
    if rooted then [.root]
    else match parts with
      | "." :: _ => [.current]
      | _ => []
  let rest := if rooted then parts else match parts with
    | "." :: more => more
    | _ => parts
  lead ++ rest.filterMap fun part =>
    if part = "" ∨ part = "." then none
    else if part = ".." then some .parent
    else some (.normal part)

/-- Whether two paths have the same components. -/
def same (a b : String) : Bool := components a == components b

/-- Whether one path sorts before another. -/
def precedes (a b : String) : Bool := componentsLt (components a) (components b)

/-- Paths sorted, the order of equal ones kept, then each run of equal paths cut to its first. -/
def sortDistinct (paths : List String) : List String :=
  match paths.mergeSort fun a b => !precedes b a with
  | [] => []
  | p :: rest => p :: go p rest
where
  go (last : String) : List String → List String
    | [] => []
    | q :: rest => if same last q then go last rest else q :: go q rest

/-- Whether a path starts at the root. -/
def isAbsolute (p : String) : Bool := p.startsWith "/"

/-- The last component when it is a name. -/
def fileName (p : String) : Option String :=
  match (components p).getLast? with
  | some (.normal n) => some n
  | _ => none

/-- `rest` resolved against `dir`: an absolute `rest` replaces `dir`, otherwise it is appended
after a separator. -/
def join (dir rest : String) : String :=
  if isAbsolute rest then rest
  else if dir.isEmpty then rest
  else if dir.endsWith "/" then dir ++ rest
  else dir ++ "/" ++ rest

/-- The names among a path's components, in order. -/
def names (p : String) : List String :=
  (components p).filterMap fun | .normal n => some n | _ => none

end RemoteDebugger.Path
