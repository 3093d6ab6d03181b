import RemoteDebugger.Cli.Invocation
import RemoteDebugger.Session.Debugger
import RemoteDebugger.Session.Logging
import RemoteDebugger.Breakpoint.Locator
import RemoteDebugger.Text.Path

/-!
# Running the program

One run of the program: its exit code and what it writes to standard output and standard
error, for each of `symbols`, `lookup`, `breakpoint` and `attach`, with code 1 for a reported
error, 2 for a refused command line and 101 for an arithmetic fault.
-/

namespace RemoteDebugger.Cli

/-- What a run of the program leaves: its exit code and what it wrote to its two streams. -/
structure Outcome where
  code : Nat
  stdout : String := ""
  stderr : String := ""
  deriving DecidableEq, Repr

/-- Where each checked operation stands in the program, as the report of a fault names it. -/
def faultLocation : OverflowSite → String
  | .rangeLow => "crates/nacldbg-core/src/symbols/resolver.rs:255:53"
  | .rangeHigh => "crates/nacldbg-core/src/symbols/resolver.rs:256:54"
  | .arraySize => "crates/nacldbg-core/src/symbols/resolver.rs:534:47"
  | .arrayBound => "crates/nacldbg-core/src/symbols/resolver.rs:605:34"
  | .lineAdvance =>
    "/root/.cargo/registry/src/index.crates.io-1949cf8c6b5b557f/gimli-0.32.3/src/read/line.rs:867:33"

/-- The run stopped by an arithmetic fault, after writing `stdout`. -/
def faulted (o : Overflow) (stdout : String) : Outcome :=
  { code := 101, stdout,
    stderr := "thread 'main' panicked at " ++ faultLocation o.site ++ ":\n" ++ o.message ++
      "\nnote: run with `RUST_BACKTRACE=1` environment variable to display a backtrace\n" }

/-- The run ended by a reported error, after writing `stdout`. -/
def failed (message stdout : String) : Outcome :=
  { code := 1, stdout, stderr := "Error: " ++ message ++ "\n" }

/-- Lines of text, each ended by a line break. -/
def lines (ls : List String) : String := String.join (ls.map (· ++ "\n"))

/-! ## Logging settings -/

/-- The environment variables the program reads. -/
def programVariables : List String := ["NACLDBG_LOG_FORMAT", "NACLDBG_LOG_FILE"] ++ SessionConfig.environmentNames

/-- Why the logging settings of an environment are refused, if they are: a format that is
not blank must be a known one, and a log file, when given, must name a file. -/
def loggingProblem (env : String → Option String) : Option String :=
  let format : Except String LogFormat := match env "NACLDBG_LOG_FORMAT" with
    | some v => if (Blank.trim v).isEmpty then .ok .pretty else LogFormat.ofName v
    | none => .ok .pretty
  match format with
  | .error message => some message
  | .ok _ =>
    match env "NACLDBG_LOG_FILE" with
    | some p =>
      if p.isEmpty ∨ (Path.fileName p).isSome then none
      else some ("Failed to initialize logging: NACLDBG_LOG_FILE has no file name: " ++ p)
    | none => none

/-! ## Reports -/

/-- The declared paths of a database's source files, sorted and without repeats. -/
def sourceFileList (db : SymbolDatabase) : List String :=
  Path.sortDistinct (db.files.toList.map (·.declared))

/-- What `symbols` prints for a module. -/
def symbolsReport (module : String) (db : SymbolDatabase) : String :=
  let st := db.stats
  lines ([module,
    "  Entries:           " ++ toString st.entries,
    "  Source files:      " ++ toString st.files,
    "  Line rows:         " ++ toString st.locations,
    "  Scope transitions: " ++ toString st.scopeTransitions,
    "  Call frames:       " ++ toString st.callFrames,
    "  Location lists:    " ++ toString st.locLists,
    "  Range entries:     " ++ toString st.rangeEntries,
    "", "Source files:"] ++ (sourceFileList db).map ("  " ++ ·))

/-- What `lookup` prints for an address and its function. -/
def lookupReport (r : Resolver) (a : Address) (f : Function) : String :=
  lines [
    "Address:  " ++ Address.render a,
    "Position: " ++ ((r.position a).map SourcePosition.render).getD "<no line information>",
    "Function: " ++ f.name ++ match f.range with
      | some (low, high) => " [" ++ Address.render low ++ ", " ++ Address.render high ++ ")"
      | none => ""]

/-- What `breakpoint` prints for a placement: its addresses, then its diagnostics. -/
def placementReport (resolution : Resolution) : String :=
  lines (resolution.addresses.map Address.render ++
    resolution.diagnostics.map fun d => "[" ++ d.severity.render ++ "] " ++ d.message)

/-! ## Subcommands -/

/-- Load a module's symbols at a base for a subcommand; failing to is a reported error. -/
def loadResolver (files : FileContents) (module : String) (base : Address) : Except Outcome Resolver :=
  match Resolver.loadModule {} files module base with
  | .error o => .error (faulted o "")
  | .ok (r, status) => if status.loaded then .ok r else .error (failed status.message "")

/-- Print what a module's debug information contains. -/
def runSymbols (files : FileContents) (module : String) : Outcome :=
  match loadModuleFile files module with
  | .error e => failed e.message ""
  | .ok (.error o) => faulted o ""
  | .ok (.ok db) => { code := 0, stdout := symbolsReport module db }

/-- Print the source position and function of an address. -/
def runLookup (files : FileContents) (module : String) (address base : UInt64) : Outcome :=
  match loadResolver files module base with
  | .error o => o
  | .ok r =>
    match r.functionAt address with
    | .error o => faulted o ""
    | .ok f => { code := 0, stdout := lookupReport r address f }

/-- Print where a breakpoint on a line would be placed. -/
def runBreakpoint (files : FileContents) (module file : String) (line : UInt32) : Outcome :=
  match loadResolver files module 0 with
  | .error o => o
  | .ok r =>
    let (_, resolution) := resolveLine r file line
    let out := placementReport resolution
    if resolution.hasErrors then failed ("no code for " ++ file ++ ":" ++ toString line) out
    else { code := 0, stdout := out }

section Attach

variable {τ : Type} [Transport τ]

/-- Run one session operation; a failure ends the run with what was printed so far. -/
def sessionStep {α : Type} (out : String) (m : DebugM τ α) (d : DebugSession τ) :
    Except Outcome (α × DebugSession τ) :=
  match m.run d with
  | .ok a d => .ok (a, d)
  | .error (.error e) _ => .error (failed e.message out)
  | .error (.fault o) _ => .error (faulted o out)

/-- Set the requested breakpoints, lines counted from one, printing each diagnostic and each
breakpoint set. -/
def placeBreakpoints (breakpoints : List (String × UInt32)) (out : String) (d : DebugSession τ) :
    Except Outcome (String × DebugSession τ) :=
  List.foldlM (fun (out, d) (file, line) => do
    let (binding, d) ← sessionStep out (DebugSession.setBreakpoint file (ideLine line)) d
    let place := file ++ ":" ++ toString line
    let diagnostics := binding.resolution.diagnostics.map fun g =>
      "[" ++ g.severity.render ++ "] " ++ place ++ ": " ++ g.message
    let installed := binding.ids.map fun id => "Breakpoint " ++ toString id ++ " set at " ++ place
    pure (out ++ lines (diagnostics ++ installed), d)) (out, d) breakpoints

/-- The call stack of the stopped target, and the variables of its innermost frame. -/
def stopReport : DebugM τ String := do
  let d ← get
  match (DebugSession.callStack none).run d with
  | .error (.error _) _ => pure ""
  | .error (.fault o) _ => throw (.fault o)
  | .ok frames d =>
    set d
    let stack := frames.map fun f =>
      "  #" ++ toString f.index ++ " " ++ Address.render f.pc ++ " " ++ f.function.name ++
        match f.position with
        | some p => " at " ++ p.path ++ ":" ++ toString ((IdePosition.ofSource p).line + 1)
        | none => ""
    let locals ← match frames.head? with
      | none => pure []
      | some f => do
        let symbols ← DebugSession.symbolsForFrame f
        symbols.mapM fun s => do
          let value := (← DebugSession.formatSymbol s).getD "<unavailable>"
          pure ("    " ++ s.type.name ++ " " ++ s.name ++ " = " ++ value)
    pure (lines (stack ++ locals))

/-- Report announced events in order: each is described, a live stop also shows the call stack
and resumes the target, and the first other stop or the closing ends the report. -/
def followEvents : List SessionEvent → DebugM τ String
  | [] => pure ""
  | e :: rest => do
    let line := match e with
      | .output text => text
      | other => other.describe ++ "\n"
    match e with
    | .stopped reason _ _ _ =>
      if reason.isAlive then
        let stop ← stopReport
        DebugSession.continueExecution
        pure (line ++ stop ++ (← followEvents rest))
      else pure line
    | .closed => pure line
    | _ => pure (line ++ (← followEvents rest))

/-- Connect to a stub, set breakpoints, resume the target, report the events announced by then
and close the session. -/
def runAttach (machine : Machine τ) (env : String → Option String) (address : String)
    (module : Option String) (breakpoints : List (String × UInt32)) : Outcome :=
  let config := SessionConfig.fromEnv env
  let config := match module with
    | some m => config.withModulePath m
    | none => config
  let run : Except Outcome Outcome := do
    let ((), d) ← sessionStep "" (DebugSession.open machine address) (DebugSession.new config)
    let (out, d) ← placeBreakpoints breakpoints "" d
    let ((), d) ← sessionStep out DebugSession.continueExecution d
    let (report, d) ← sessionStep out (do
      followEvents (← DebugSession.onRemote RemoteSession.takeEvents)) d
    let out := out ++ report
    let ((), _) ← sessionStep out DebugSession.close d
    pure { code := 0, stdout := out }
  match run with
  | .ok o => o
  | .error o => o

/-- Carry out an invocation on a machine. -/
def Invocation.run (machine : Machine τ) (env : String → Option String) : Invocation → Outcome
  | .symbols module _ => runSymbols machine.files module
  | .lookup module address base => runLookup machine.files module address base
  | .breakpoint module file line => runBreakpoint machine.files module file line
  | .attach address module breakpoints _ => runAttach machine env address module breakpoints

/-- One run of the program with its arguments (its own name left out) and its environment. -/
def runProgram (machine : Machine τ) (env : String → Option String) (args : List String) : Outcome :=
  match loggingProblem env with
  | some message => { code := 1, stderr := "Failed to initialize logging: " ++ message ++ "\n" }
  | none =>
    match readArguments args with
    | .inform text => { code := 0, stdout := text }
    | .refuse text => { code := 2, stderr := text }
    | .run i => i.run machine env

end Attach

end RemoteDebugger.Cli
