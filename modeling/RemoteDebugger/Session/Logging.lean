import RemoteDebugger.Text.Blank

/-!
# Logging settings

The names accepted for a log format and a log level. Names are compared after
trimming blanks and lowering ASCII letters; an unknown name is refused with a
message that repeats it as given.
-/

namespace RemoteDebugger

/-- How log lines are written. -/
inductive LogFormat where
  | pretty
  | json
  deriving DecidableEq, Repr

/-- How much is logged. -/
inductive LogLevel where
  | error
  | warn
  | info
  | debug
  | trace
  deriving DecidableEq, Repr

/-- A name compared without blanks around it and without ASCII case. -/
def normalName (s : String) : String := (Blank.trim s).map Char.toLower

/-- The log format a name denotes, or the message refusing it. -/
def LogFormat.ofName (s : String) : Except String LogFormat :=
  let n := normalName s
  if n = "pretty" ∨ n = "dev" ∨ n = "text" then .ok .pretty
  else if n = "json" ∨ n = "prod" then .ok .json
  else .error ("Invalid log format: " ++ s ++ " (use 'pretty' or 'json')")

/-- The log level a name denotes, or the message refusing it. -/
def LogLevel.ofName (s : String) : Except String LogLevel :=
  let n := normalName s
  if n = "error" ∨ n = "err" then .ok .error
  else if n = "warn" ∨ n = "warning" then .ok .warn
  else if n = "info" then .ok .info
  else if n = "debug" ∨ n = "dbg" then .ok .debug
  else if n = "trace" then .ok .trace
  else .error ("Invalid log level: " ++ s ++ " (use 'error', 'warn', 'info', 'debug' or 'trace')")

end RemoteDebugger
