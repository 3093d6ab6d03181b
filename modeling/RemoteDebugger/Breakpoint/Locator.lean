import RemoteDebugger.Symbols.Resolver

/-!
# Placing breakpoints on source lines

A requested line becomes the addresses of its code. A line without code moves to the nearest
following line whose code lies in a scope the request is already inside, with a diagnostic;
finding nothing is an error with no addresses.
-/

namespace RemoteDebugger

/-- How serious a placement diagnostic is. -/
inductive Severity where
  | generalError
  | low
  deriving DecidableEq, Repr

/-- The word an editor shows for a severity. -/
def Severity.render : Severity → String
  | .generalError => "error"
  | .low => "info"

/-- A message about placing a breakpoint, with the place it concerns. -/
structure Diagnostic where
  severity : Severity
  message : String
  location : Option SourcePosition
  deriving DecidableEq, Repr

/-- Where a breakpoint request landed. -/
structure Resolution where
  addresses : List Address := []
  diagnostics : List Diagnostic := []
  /-- The line the breakpoint ended up on. -/
  resolvedLine : Option UInt32 := none
  deriving DecidableEq, Repr

namespace Resolution

/-- Whether the breakpoint has code to stop at. -/
def isBound (r : Resolution) : Bool := !r.addresses.isEmpty

/-- Whether any diagnostic is an error. -/
def hasErrors (r : Resolution) : Bool := r.diagnostics.any (·.severity == .generalError)

/-- A failed placement with one error message. -/
def error (message : String) : Resolution := { diagnostics := [⟨.generalError, message, none⟩] }

end Resolution

/-- Whether the code of a scope can hold a breakpoint requested for a line: the scope begins by
that line, or it is a block whose enclosing scope does. -/
def isSuitable (db : SymbolDatabase) (scope : Entry) (line : UInt32) : Bool :=
  beginsBy scope || (scope.isBlock && (scope.outerScope.bind db.entry).any beginsBy)
where
  beginsBy (e : Entry) : Bool := (db.firstLineOfScope e.key).any (· ≤ line)

/-- Insert into an ascending list of distinct lines. -/
def insertLine (l : UInt32) : List UInt32 → List UInt32
  | [] => [l]
  | m :: ms => if l < m then l :: m :: ms else if l = m then m :: ms else m :: insertLine l ms

/-- Place a breakpoint on a line (counted from one) of the file a path names. The resolver
records the path as the matched files' current path. -/
def resolveLine (r : Resolver) (path : String) (line : UInt32) : Resolver × Resolution :=
  let (r, files) := r.matchingFiles path
  if files.isEmpty then
    (r, .error ("No code is compiled for " ++ path ++ " in the loaded module"))
  else
    let candidates := files.flatMap fun f =>
      (r.db.locationsForFile f.key).filterMap fun row =>
        if row.line ≥ line ∧ (r.db.scopeForAddress row.start).any (isSuitable r.db · line) then
          some row.line
        else none
    match (candidates.foldr insertLine []).head? with
    | none =>
      (r, .error ("The breakpoint at " ++ path ++ ":" ++ toString line ++ " does not map to any code"))
    | some resolved =>
      let (r, addresses) := r.addresses path resolved
      let diagnostics :=
        if resolved = line then []
        else [⟨.low, "Breakpoint moved from line " ++ toString line ++ " to line " ++ toString resolved,
          some ⟨path, resolved, 0⟩⟩]
      (r, { addresses, diagnostics, resolvedLine := some resolved })

/-- Place a breakpoint on a line counted from zero, as an editor numbers it. -/
def resolveIdeLine (r : Resolver) (path : String) (line : UInt32) : Resolver × Resolution :=
  resolveLine r path (dwarfLine line)

end RemoteDebugger
