import RemoteDebugger.Cli.Outcome

/-!
# The command line

Reads the program's environment variables and the module files its command
line names, runs the program on them and writes what it printed. This build
has no network transport, so a stub can never be reached.
-/

open RemoteDebugger

/-- The error number of a failed file operation, when the system gave one; some operations
report it negated. -/
def errorCode (e : IO.Error) : Option Nat :=
  (rawErrorCode e).map fun c => if c.toNat ≥ 2147483648 then 4294967296 - c.toNat else c.toNat
where
  rawErrorCode : IO.Error → Option UInt32
    | .alreadyExists _ c _ | .otherError c _ | .resourceBusy c _ | .resourceVanished c _
    | .unsupportedOperation c _ | .hardwareFault c _ | .unsatisfiedConstraints c _
    | .illegalOperation c _ | .protocolError c _ | .timeExpired c _ | .interrupted _ c _
    | .noFileOrDirectory _ c _ | .invalidArgument _ c _ | .permissionDenied _ c _
    | .resourceExhausted _ c _ | .inappropriateType _ c _ | .noSuchThing _ c _ => some c
    | _ => none

/-- The contents of a file, or the system's description of why it cannot be read. -/
def fileContents (path : String) : IO (Except String ByteArray) := do
  try
    return .ok (← IO.FS.readBinFile path)
  catch e =>
    return .error (match errorCode e with
      | some c => systemErrorText c
      | none => toString e)

/-- Run the program and exit with its code. -/
def main (args : List String) : IO UInt32 := do
  let mut env : List (String × String) := []
  for name in Cli.programVariables do
    if let some value ← IO.getEnv name then env := env ++ [(name, value)]
  let named := match Cli.readArguments args with
    | .run i => i.moduleFiles
    | _ => []
  let mut files : List (String × Except String ByteArray) := []
  for path in named ++ (env.lookup "NACLDBG_MODULE_PATH").toList do
    files := files ++ [(path, ← fileContents path)]
  let machine : Machine ByteStream :=
    ⟨Network.offline, fun p => (files.lookup p).getD (.error (systemErrorText 2))⟩
  let o := Cli.runProgram machine (fun name => env.lookup name) args
  IO.print o.stdout
  IO.eprint o.stderr
  return o.code.toUInt32
