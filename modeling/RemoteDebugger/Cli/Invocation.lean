import RemoteDebugger.Cli.Grammar
import RemoteDebugger.Text.Similarity

/-!
# Reading the command line

A command line is read against the grammar into an `Invocation`, a page to show (help,
version) or a refusal that says what is wrong, may give tips and a usage line, and points to
`--help`.
-/

namespace RemoteDebugger.Cli

/-- What the command line asks the program to do. -/
inductive Invocation where
  | symbols (module : String) (base : UInt64)
  | lookup (module : String) (address base : UInt64)
  | breakpoint (module file : String) (line : UInt32)
  | attach (address : String) (module : Option String) (breakpoints : List (String × UInt32))
      (seconds : UInt64)
  deriving DecidableEq, Repr

/-- The module files an invocation names on the command line. -/
def Invocation.moduleFiles : Invocation → List String
  | .symbols module _ | .lookup module _ _ | .breakpoint module _ _ => [module]
  | .attach _ module _ _ => module.toList

/-- What reading a command line comes to. -/
inductive Reading where
  /-- Carry out an invocation. -/
  | run (i : Invocation)
  /-- Show a page, such as help, and succeed. -/
  | inform (text : String)
  /-- Refuse the command line with a message. -/
  | refuse (text : String)
  deriving DecidableEq, Repr

/-- A refused command line, as reported. -/
structure Refusal where
  message : String
  tips : List String := []
  usage : Option String := none
  /-- How to ask for help, offered at the end; none for a command without a help flag. -/
  helpHint : Option String := some "--help"
  deriving DecidableEq, Repr

/-- The report of a refusal: the message, the tips, the usage line and the pointer to help. -/
def Refusal.render (r : Refusal) : String :=
  "error: " ++ r.message ++
    (if r.tips.isEmpty then "" else "\n" ++ String.join (r.tips.map ("\n  tip: " ++ ·))) ++
    (match r.usage with
      | some u => "\n\nUsage: " ++ u
      | none => "") ++
    (match r.helpHint with
      | some h => "\n\nFor more information, try '" ++ h ++ "'.\n"
      | none => "\n")

/-- The tip naming similar words of a kind. -/
def similarTip (kind : String) (words : List String) : String :=
  let quoted := ", ".intercalate (words.map fun w => "'" ++ w ++ "'")
  match words with
  | [_] => "a similar " ++ kind ++ " exists: " ++ quoted
  | _ => "some similar " ++ kind ++ "s exist: " ++ quoted

/-- The tip for passing a text that looks like a flag as a value. -/
def escapeTip (arg : String) : String := "to pass '" ++ arg ++ "' as a value, use '-- " ++ arg ++ "'"

/-- The message for an argument the command does not take. -/
def unexpected (arg : String) : String := "unexpected argument '" ++ arg ++ "' found"

/-- The message for a name that is no subcommand. -/
def unrecognized (name : String) : String := "unrecognized subcommand '" ++ name ++ "'"

/-- The message for a value given to a flag that takes none. -/
def unneeded (value flag : String) : String :=
  "unexpected value '" ++ value ++ "' for '" ++ flag ++ "' found; no more were expected"

/-- The refusal of a value's text. -/
def valueRefusal (p : Parameter) (raw : String) : ValueError → Refusal
  | .missing => { message := "a value is required for '" ++ p.display ++ "' but none was supplied" }
  | .invalid reason =>
    { message := "invalid value '" ++ raw ++ "' for '" ++ p.display ++ "': " ++ reason }

/-- A text split at the first occurrence of a character, when it occurs. -/
def splitFirst (s : String) (sep : Char) : String × Option String :=
  let cs := s.toList
  match cs.findIdx? (· = sep) with
  | none => (s, none)
  | some k => (String.ofList (cs.take k), some (String.ofList (cs.drop (k + 1))))

/-- The most similar of some names, if any is similar enough. -/
def closest (name : String) (names : List String) : Option String :=
  (Similarity.suggestions name names).getLast?

/-! ## Subcommand arguments -/

/-- The state of reading a subcommand's arguments. -/
structure Scan where
  /-- The parameters given so far, in order of first appearance, with the values read. -/
  given : List (Parameter × List Value) := []
  /-- A parameter whose texts are waiting to be read. -/
  pending : Option (Parameter × List String) := none
  /-- An option waiting for its value. -/
  awaiting : Option Parameter := none
  /-- How many positional arguments have been taken. -/
  position : Nat := 0
  /-- Whether `--` has been passed. -/
  trailing : Bool := false
  deriving Repr

/-- Reading a subcommand's arguments; the state survives a stop, which is the reading's end. -/
abbrev ScanM := EStateM Reading Scan

namespace Scan

/-- Whether a parameter has been given. -/
def has (s : Scan) (p : Parameter) : Bool := s.given.any (·.1 == p)

/-- The values read for a parameter, when it was given. -/
def valuesOf (s : Scan) (p : Parameter) : Option (List Value) := (s.given.find? (·.1 == p)).map (·.2)

/-- The options given so far, shown as in usage lines. -/
def givenOptions (s : Scan) : List String :=
  (s.given.filter fun (p, _) => !p.isPositional).map (·.1.display)

end Scan

/-- Stop reading with a refusal. -/
def refuse {α : Type} (r : Refusal) : ScanM α := throw (.refuse r.render)

/-- The usage line for an error: the full one when nothing was given, else the one naming the
options given. -/
def usageFor (c : Subcommand) (s : Scan) : String :=
  if s.given.isEmpty then c.usage else c.usageWith s.givenOptions

/-- Record that a parameter was given, then read its texts. A parameter given with no text is
refused before anything else; one given again is refused unless it repeats, and is then no
longer counted as given. -/
def accept (c : Subcommand) (p : Parameter) (raws : List String) : ScanM Unit := do
  if raws.isEmpty then refuse (valueRefusal p "" .missing)
  let s ← get
  if s.has p then
    if !p.repeatable then
      set { s with given := s.given.filter (·.1 != p) }
      refuse {
        message := "the argument '" ++ p.display ++ "' cannot be used multiple times",
        usage := some c.usage }
  else set { s with given := s.given ++ [(p, [])] }
  for raw in raws do
    match p.reader.read raw with
    | .ok v =>
      modify fun s => { s with given := s.given.map fun (q, vs) => if q == p then (q, vs ++ [v]) else (q, vs) }
    | .error e => refuse (valueRefusal p raw e)

/-- Read the texts waiting for a parameter. -/
def resolve (c : Subcommand) : ScanM Unit := do
  match (← get).pending with
  | none => pure ()
  | some (p, raws) =>
    modify fun s => { s with pending := none }
    accept c p raws

/-- Read the texts waiting for a parameter, disregarding a refusal: another one is coming. -/
def resolveQuietly (c : Subcommand) : ScanM Unit :=
  tryCatch (resolve c) fun _ => pure ()

/-- An argument starting with `--`, without the dashes. -/
def longArgument (c : Subcommand) (body : String) : ScanM Unit := do
  let (name, attached) := splitFirst body '='
  if name = "help" then
    match attached with
    | some v =>
      let used := (← get).givenOptions ++ ["--help"]
      resolveQuietly c
      refuse { message := unneeded v "--help", usage := some (c.usageWith used) }
    | none =>
      resolve c
      throw (.inform c.help)
  match c.options.find? (·.long == some name) with
  | some p =>
    match attached with
    | some v =>
      resolve c
      accept c p [v]
      modify fun s => { s with awaiting := none }
    | none =>
      resolve c
      modify fun s => { s with pending := some (p, []), awaiting := some p }
  | none =>
    resolveQuietly c
    let longs := c.options.filterMap (·.long) ++ ["help"]
    match closest name longs with
    | some similar =>
      -- the suggested option counts as given for the usage line
      let shown := match c.options.find? (·.long == some similar) with
        | some p => p.display
        | none => "--help"
      let s ← get
      let used := if s.givenOptions.contains shown then s.givenOptions else s.givenOptions ++ [shown]
      refuse {
        message := unexpected ("--" ++ name),
        tips := [similarTip "argument" ["--" ++ similar]], usage := some (c.usageWith used) }
    | none =>
      let s ← get
      refuse {
        message := unexpected ("--" ++ name),
        tips := if c.positionals.isEmpty then [] else [escapeTip ("--" ++ name)],
        usage := some (usageFor c s) }

/-- An argument starting with a single dash and more: a cluster of short flags, of which only
`-h` exists. -/
def shortArgument (c : Subcommand) (flag : Char) : ScanM Unit := do
  if flag = 'h' then
    resolve c
    throw (.inform c.help)
  resolveQuietly c
  let shown := String.ofList ['-', flag]
  refuse {
    message := unexpected shown,
    tips := if c.positionals.isEmpty then [] else [escapeTip shown], usage := some c.usage }

/-- A positional argument. -/
def positionalArgument (c : Subcommand) (arg : String) : ScanM Unit := do
  let s ← get
  match c.positionals[s.position]? with
  | some p =>
    resolve c
    modify fun s => { s with pending := some (p, [arg]), position := s.position + 1, awaiting := none }
  | none =>
    resolveQuietly c
    refuse { message := unexpected arg, usage := some c.usage }

/-- Take one argument of a subcommand. After `--` every argument is positional; `--` itself
leaves a value still awaited to be read with the next positional argument. -/
def takeArgument (c : Subcommand) (arg : String) : ScanM Unit := do
  let s ← get
  if s.trailing then positionalArgument c arg
  else if arg = "--" then set { s with trailing := true }
  else if arg.startsWith "--" then longArgument c (String.ofList (arg.toList.drop 2))
  else match arg.toList with
    | '-' :: flag :: _ => shortArgument c flag
    | _ =>
      match s.awaiting with
      | some p => set { s with pending := some (p, [arg]), awaiting := none }
      | none => positionalArgument c arg

/-- Finish reading: read what waits, then refuse an option left without a value and missing
positional arguments. -/
def finish (c : Subcommand) : ScanM Unit := do
  resolve c
  let s ← get
  if let some p := s.awaiting then
    if ((s.valuesOf p).getD []).isEmpty then refuse (valueRefusal p "" .missing)
  let missing := c.positionals.drop s.position
  if !missing.isEmpty then
    refuse {
      message := "the following required arguments were not provided:" ++
        String.join (missing.map fun p => "\n  " ++ p.display),
      usage := some (c.usageWith s.givenOptions) }

/-! ## Invocations -/

/-- The one value of a parameter: the value given, else its default. A parameter given without
a value has none. -/
def single (s : Scan) (p : Parameter) : Except Refusal Value :=
  let absent : Refusal :=
    { message := "The following required argument was not provided: " ++ p.id, usage := some programUsage }
  match s.valuesOf p with
  | some (v :: _) => .ok v
  | some [] => .error absent
  | none =>
    match p.default.map p.reader.read with
    | some (.ok v) => .ok v
    | _ => .error absent

/-- The text of a value. -/
def Value.text? : Value → Option String
  | .text s => some s
  | _ => none

/-- The number of a value. -/
def Value.number? : Value → Option Nat
  | .number n => some n
  | _ => none

/-- The file and line of a value. -/
def Value.location? : Value → Option (String × UInt32)
  | .location file line => some (file, line)
  | _ => none

/-- The text of a parameter. -/
def textOf (s : Scan) (p : Parameter) : Except Refusal String :=
  return ((← single s p).text?).getD ""

/-- The number of a parameter. -/
def numberOf (s : Scan) (p : Parameter) : Except Refusal Nat :=
  return ((← single s p).number?).getD 0

/-- The parameter at a position of a list, or a placeholder that is never given. -/
def nth (ps : List Parameter) (i : Nat) : Parameter :=
  ps.getD i { id := "", valueName := "", reader := .text }

/-- The invocation a subcommand's arguments make, its fields taken in declaration order. -/
def Command.invocation (cmd : Command) (s : Scan) : Except Refusal Invocation :=
  let g := cmd.grammar
  let pos := nth g.positionals
  let opt := nth g.options
  match cmd with
  | .symbols => return .symbols (← textOf s (pos 0)) (← numberOf s (opt 0)).toUInt64
  | .lookup =>
    return .lookup (← textOf s (pos 0)) (← numberOf s (pos 1)).toUInt64 (← numberOf s (opt 0)).toUInt64
  | .breakpoint =>
    return .breakpoint (← textOf s (pos 0)) (← textOf s (pos 1)) (← numberOf s (pos 2)).toUInt32
  | .attach => do
    let address ← textOf s (pos 0)
    let module := ((s.valuesOf (opt 0)).bind List.head?).bind Value.text?
    let breakpoints := ((s.valuesOf (opt 1)).getD []).filterMap Value.location?
    let seconds ← numberOf s (opt 2)
    return .attach address module breakpoints seconds.toUInt64

/-- Read a subcommand's arguments. -/
def Command.read (cmd : Command) (args : List String) : Reading :=
  let c := cmd.grammar
  match (args.forM (takeArgument c) *> finish c).run {} with
  | .error r _ => r
  | .ok () s =>
    match cmd.invocation s with
    | .ok i => .run i
    | .error r => .refuse r.render

/-! ## The program's arguments -/

/-- `help` followed by subcommand names: the help page of the subcommand they name. -/
def readHelp : List String → Reading
  | [] => .inform programHelp
  | name :: more =>
    if name = "help" then
      match more with
      | [] => .inform helpCommandHelp
      | x :: _ => .refuse (Refusal.render
          { message := unrecognized x, usage := some helpCommandUsage, helpHint := none })
    else
      match Command.named name with
      | none => .refuse (Refusal.render { message := unrecognized name, usage := some programUsage })
      | some cmd =>
        match more with
        | [] => .inform cmd.grammar.help
        | x :: _ => .refuse (Refusal.render { message := unrecognized x, usage := some cmd.grammar.usage })

/-- The usage line naming a flag of the program. -/
def programUsageWith (flag : String) : String := programName ++ " " ++ flag ++ " <COMMAND>"

/-- An argument of the program starting with `--`, without the dashes; `rest` are the
arguments after it. -/
def readProgramLong (body : String) (rest : List String) : Reading :=
  let (name, attached) := splitFirst body '='
  let flag := "--" ++ name
  if name = "help" ∨ name = "version" then
    match attached with
    | some v => .refuse (Refusal.render { message := unneeded v flag, usage := some (programUsageWith flag) })
    | none => .inform (if name = "help" then programHelp else versionText)
  else
    match closest name ["help", "version"] with
    | some similar =>
      .refuse (Refusal.render {
        message := unexpected flag,
        tips := [similarTip "argument" ["--" ++ similar]],
        usage := some (programUsageWith ("--" ++ similar)) })
    | none =>
      -- a subcommand named later on the line whose option is similar
      let inSubcommands := Command.all.filterMap fun cmd =>
        let longs := cmd.grammar.options.filterMap (·.long) ++ ["help"]
        match closest name longs, rest.idxOf? cmd.grammar.name with
        | some similar, some k => some (k, cmd.grammar.name ++ " --" ++ similar)
        | _, _ => none
      let best := inSubcommands.foldl (fun acc x => match acc with
        | some y => if x.1 < y.1 then some x else some y
        | none => some x) none
      .refuse (Refusal.render {
        message := unexpected flag,
        tips := best.toList.map fun (_, s) => "'" ++ s ++ "' exists", usage := some programUsage })

/-- An argument of the program that is no flag. -/
def readProgramWord (arg : String) (trailing : Bool) : Reading :=
  if trailing ∧ subcommandNames.contains arg then
    .refuse (Refusal.render {
      message := unexpected arg,
      tips := ["subcommand '" ++ arg ++ "' exists; to use it, remove the '--' before it"],
      usage := some programUsage })
  else
    match Similarity.suggestions arg subcommandNames with
    | [] => .refuse (Refusal.render { message := unrecognized arg, usage := some programUsage })
    | similar => .refuse (Refusal.render {
        message := unrecognized arg,
        tips := [similarTip "subcommand" similar], usage := some programUsage })

/-- Read the program's arguments, `trailing` once `--` has been passed. Without a subcommand
the help page is shown as a refusal. -/
def readProgram (trailing : Bool) : List String → Reading
  | [] => .refuse programHelp
  | arg :: rest =>
    if trailing then readProgramWord arg trailing
    else
      match Command.named arg with
      | some cmd => cmd.read rest
      | none =>
        if arg = "help" then readHelp rest
        else if arg = "--" then readProgram true rest
        else if arg.startsWith "--" then readProgramLong (String.ofList (arg.toList.drop 2)) rest
        else match arg.toList with
          | '-' :: 'h' :: _ => .inform programHelp
          | '-' :: 'V' :: _ => .inform versionText
          | '-' :: flag :: _ =>
            .refuse (Refusal.render {
              message := unexpected (String.ofList ['-', flag]),
              usage := some programUsage })
          | _ => readProgramWord arg trailing

/-- Read a command line, the program's name left out. -/
def readArguments (args : List String) : Reading := readProgram false args

end RemoteDebugger.Cli
