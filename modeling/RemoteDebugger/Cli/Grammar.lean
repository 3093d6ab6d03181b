import RemoteDebugger.Text.Blank
import RemoteDebugger.Text.Integer

/-!
# The command-line grammar

Every subcommand's arguments and options as data, with value names, help texts, defaults and
readers, and the help pages and usage lines made from them.
-/

namespace RemoteDebugger.Cli

/-- How the text of an argument's value is read. -/
inductive Reader where
  /-- A path: any text but the empty one. -/
  | path
  /-- Any text. -/
  | text
  /-- An address: hexadecimal after `0x` or `0X`, else decimal; blanks around are ignored. -/
  | address
  /-- A line number: a 64-bit signed number that must fit in 32 unsigned bits. -/
  | line
  /-- A 64-bit count. -/
  | count
  /-- A source line, `FILE:LINE`, with lines counted from one. -/
  | location
  deriving DecidableEq, Repr

/-- A value read from the command line. -/
inductive Value where
  | text (s : String)
  | number (n : Nat)
  | location (file : String) (line : UInt32)
  deriving DecidableEq, Repr

/-- Why the text of a value was refused. -/
inductive ValueError where
  /-- The text is empty where a value is required. -/
  | missing
  /-- The text does not read, for the reason given. -/
  | invalid (reason : String)
  deriving DecidableEq, Repr

/-- The bound of line numbers, written as a range. -/
def lineRange : String := "0..=4294967295"

/-- Split a text at its last colon. -/
def splitLast (s : String) (sep : Char) : Option (String × String) :=
  let cs := s.toList
  match cs.reverse.findIdx? (· = sep) with
  | none => none
  | some i =>
    let k := cs.length - 1 - i
    some (String.ofList (cs.take k), String.ofList (cs.drop (k + 1)))

/-- An address as written on the command line. -/
def readAddress (raw : String) : Except String Nat :=
  let t := Blank.trim raw
  let parsed := match t.toList with
    | '0' :: 'x' :: rest | '0' :: 'X' :: rest => Integer.parseUnsigned 16 64 (String.ofList rest)
    | _ => Integer.parseUnsigned 10 64 t
  match parsed with
  | .ok n => .ok n
  | .error e => .error ("invalid address " ++ t ++ ": " ++ e.message)

/-- A source line as written on the command line. -/
def readLocation (raw : String) : Except String (String × UInt32) :=
  match splitLast raw ':' with
  | none => .error ("expected FILE:LINE, got " ++ raw)
  | some (file, lineText) =>
    match Integer.parseU32 lineText with
    | .error e => .error ("invalid line in " ++ raw ++ ": " ++ e.message)
    | .ok 0 => .error "line numbers start at 1"
    | .ok line => .ok (file, line)

/-- Read the text of a value. -/
def Reader.read : Reader → String → Except ValueError Value
  | .path, raw => if raw.isEmpty then .error .missing else .ok (.text raw)
  | .text, raw => .ok (.text raw)
  | .address, raw =>
    match readAddress raw with
    | .ok n => .ok (.number n)
    | .error reason => .error (.invalid reason)
  | .line, raw =>
    match Integer.parseSigned 10 64 raw with
    | .error e => .error (.invalid e.message)
    | .ok v =>
      if 0 ≤ v ∧ v < UInt32.size then .ok (.number v.toNat)
      else .error (.invalid (toString v ++ " is not in " ++ lineRange))
  | .count, raw =>
    match Integer.parseUnsigned 10 64 raw with
    | .error e => .error (.invalid e.message)
    | .ok n => .ok (.number n)
  | .location, raw =>
    match readLocation raw with
    | .error reason => .error (.invalid reason)
    | .ok (file, n) => .ok (.location file n)

/-- An argument of a subcommand: positional, or an option with a long name taking one value. -/
structure Parameter where
  /-- The name the program knows the argument by. -/
  id : String
  /-- The name of the value in help pages and messages. -/
  valueName : String
  /-- The long name of an option; positional arguments have none. -/
  long : Option String := none
  help : String := ""
  /-- The text read when the argument is absent. -/
  default : Option String := none
  reader : Reader
  /-- Whether an option may be given again, each time adding a value. -/
  repeatable : Bool := false
  deriving DecidableEq, Repr

namespace Parameter

/-- Whether the argument is positional. -/
def isPositional (p : Parameter) : Bool := p.long.isNone

/-- How the argument is shown: `<NAME>` for a positional one, `--long <NAME>` for an option. -/
def display (p : Parameter) : String :=
  match p.long with
  | none => "<" ++ p.valueName ++ ">"
  | some l => "--" ++ l ++ " <" ++ p.valueName ++ ">"

/-- The help text with the default appended. -/
def helpText (p : Parameter) : String :=
  match p.default with
  | none => p.help
  | some d => if p.help.isEmpty then "[default: " ++ d ++ "]" else p.help ++ " [default: " ++ d ++ "]"

end Parameter

/-- A subcommand: its name, what it does and its arguments. -/
structure Subcommand where
  name : String
  about : String
  positionals : List Parameter
  options : List Parameter
  deriving DecidableEq, Repr

/-- The name the program is invoked by. -/
def programName : String := "nacldbg"

/-- The version the program reports. -/
def programVersion : String := "0.0.0"

/-- What the program does, in one line. -/
def programAbout : String := "Symbolic debugger for Native Client modules behind a GDB remote stub"

/-- The help text of the help flag. -/
def helpFlagText : String := "Print help"

/-- What the `help` subcommand does. -/
def helpCommandAbout : String := "Print this message or the help of the given subcommand(s)"

/-- The module positional argument, with or without a help text. -/
def moduleArgument (help : String) : Parameter :=
  { id := "module", valueName := "MODULE", help, reader := .path }

/-- The load base option, with or without a help text. -/
def baseOption (help : String) : Parameter :=
  { id := "base", valueName := "BASE", long := some "base", help, default := some "0",
    reader := .address }

/-- `symbols MODULE [--base BASE]`. -/
def symbolsCommand : Subcommand where
  name := "symbols"
  about := "Load a module's debug information and print what it contains"
  positionals := [moduleArgument "Module (ELF) with DWARF debug information"]
  options := [baseOption "Load base added to module-relative addresses"]

/-- `lookup MODULE ADDRESS [--base BASE]`. -/
def lookupCommand : Subcommand where
  name := "lookup"
  about := "Show the source position and function of an address"
  positionals := [moduleArgument "",
    { id := "address", valueName := "ADDRESS", help := "Process address (hex with 0x, or decimal)",
      reader := .address }]
  options := [baseOption ""]

/-- `breakpoint MODULE FILE LINE`. -/
def breakpointCommand : Subcommand where
  name := "breakpoint"
  about := "Show where a breakpoint on a source line would be placed"
  positionals := [moduleArgument "",
    { id := "file", valueName := "FILE", help := "Source file as the editor knows it", reader := .path },
    { id := "line", valueName := "LINE", help := "1-based line number", reader := .line }]
  options := []

/-- `attach ADDRESS [--module MODULE] [--break FILE:LINE]... [--seconds SECONDS]`. -/
def attachCommand : Subcommand where
  name := "attach"
  about := "Connect to a stub, set breakpoints, run and print session events"
  positionals := [
    { id := "address", valueName := "ADDRESS", help := "Stub address (host:port)", reader := .text }]
  options := [
    { id := "module", valueName := "MODULE", long := some "module",
      help := "Load symbols from this module instead of the one the stub reports", reader := .path },
    { id := "breakpoints", valueName := "FILE:LINE", long := some "break",
      help := "Breakpoint as file:line (1-based); may be repeated", reader := .location,
      repeatable := true },
    { id := "seconds", valueName := "SECONDS", long := some "seconds",
      help := "Stop printing events and close the session after this many seconds",
      default := some "30", reader := .count }]

/-- The program's subcommands. -/
inductive Command where
  | symbols
  | lookup
  | breakpoint
  | attach
  deriving DecidableEq, Repr

namespace Command

/-- Every subcommand, in the order help lists them. -/
def all : List Command := [.symbols, .lookup, .breakpoint, .attach]

/-- The arguments a subcommand takes. -/
def grammar : Command → Subcommand
  | .symbols => symbolsCommand
  | .lookup => lookupCommand
  | .breakpoint => breakpointCommand
  | .attach => attachCommand

/-- The subcommand of a name. -/
def named (name : String) : Option Command := all.find? (·.grammar.name = name)

end Command

/-- Every subcommand name, `help` included, in the order help lists them. -/
def subcommandNames : List String := Command.all.map (·.grammar.name) ++ ["help"]

/-! ## Help pages -/

/-- A text padded with spaces to a width. -/
def padRight (s : String) (width : Nat) : String := s ++ String.ofList (List.replicate (width - s.length) ' ')

/-- A section of a help page: its heading, then one row per entry, the help texts aligned two
spaces after the widest left column. -/
def helpSection (heading : String) (rows : List (String × String)) : String :=
  let width := rows.foldl (fun w r => max w r.1.length) 2
  heading ++ ":\n" ++ "\n".intercalate (rows.map fun (left, help) => "  " ++ padRight left width ++ "  " ++ help)

/-- A help page: the description, the usage line and the sections. -/
def page (about usage : String) (sections : List String) : String :=
  about ++ "\n\nUsage: " ++ usage ++ "\n\n" ++ "\n\n".intercalate sections ++ "\n"

/-- The left column of an option's row, indented past the short flag column. -/
def optionColumn (p : Parameter) : String := "    " ++ p.display

namespace Subcommand

/-- The name the subcommand is invoked by, program name first. -/
def invokedAs (c : Subcommand) : String := programName ++ " " ++ c.name

/-- The full usage line: `[OPTIONS]` when there are options, then every positional argument. -/
def usage (c : Subcommand) : String :=
  c.invokedAs ++ (if c.options.isEmpty then "" else " [OPTIONS]") ++
    String.join (c.positionals.map fun p => " " ++ p.display)

/-- The usage line naming the options given so far, then every positional argument. -/
def usageWith (c : Subcommand) (used : List String) : String :=
  c.invokedAs ++ String.join (used.map (" " ++ ·)) ++
    String.join (c.positionals.map fun p => " " ++ p.display)

/-- The subcommand's help page. -/
def help (c : Subcommand) : String :=
  let arguments := if c.positionals.isEmpty then [] else
    [helpSection "Arguments" (c.positionals.map fun p => (p.display, p.helpText))]
  let options := helpSection "Options"
    (c.options.map (fun p => (optionColumn p, p.helpText)) ++ [("-h, --help", helpFlagText)])
  page c.about c.usage (arguments ++ [options])

end Subcommand

/-- The program's usage line. -/
def programUsage : String := programName ++ " <COMMAND>"

/-- The program's help page. -/
def programHelp : String :=
  page programAbout programUsage [
    helpSection "Commands" (Command.all.map (fun c => (c.grammar.name, c.grammar.about)) ++ [("help", helpCommandAbout)]),
    helpSection "Options" [("-h, --help", helpFlagText), ("-V, --version", "Print version")]]

/-- The usage line of the `help` subcommand. -/
def helpCommandUsage : String := programName ++ " help [COMMAND]..."

/-- The help page of the `help` subcommand. -/
def helpCommandHelp : String :=
  page helpCommandAbout helpCommandUsage
    [helpSection "Arguments" [("[COMMAND]...", "Print help for the subcommand(s)")]]

/-- What the version flag prints. -/
def versionText : String := programName ++ " " ++ programVersion ++ "\n"

end RemoteDebugger.Cli
