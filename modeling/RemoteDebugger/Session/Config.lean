import RemoteDebugger.Text.Blank
import RemoteDebugger.Text.Integer

/-!
# Session configuration

The tunables of a debugging session, each with a default that suits the stub,
and the environment variables that override them. Durations are in
milliseconds. A variable whose value does not read as a number (after
trimming blanks) is ignored; an empty module path is no module path.
-/

namespace RemoteDebugger

/-- Tunables of a debugging session. -/
structure SessionConfig where
  /-- How long each exchange made while opening may take. -/
  handshakeTimeoutMs : Nat := 10000
  /-- How long an idle poller sleeps; a continue wakes it early. -/
  pollIntervalMs : Nat := 1000
  /-- How long each poll waits for a packet. -/
  replyTimeoutMs : Nat := 50
  /-- How long closing waits for the poller before leaving it behind. -/
  joinTimeoutMs : Nat := 8000
  /-- The signal number of a single-step or breakpoint trap. -/
  trapSignal : UInt8 := 5
  /-- The most instructions one source-level step executes; none for no limit. -/
  maxStepInstructions : Option UInt64 := none
  /-- The module to load symbols from instead of the one the stub reports. -/
  modulePath : Option String := none
  /-- The most frames a call stack lists. -/
  maxFrames : Nat := 64
  deriving DecidableEq, Repr

namespace SessionConfig

/-- Replace the poll interval; the join timeout is eight intervals. -/
def withPollInterval (c : SessionConfig) (ms : Nat) : SessionConfig :=
  { c with pollIntervalMs := ms, joinTimeoutMs := 8 * ms }

/-- Load symbols from a given module. -/
def withModulePath (c : SessionConfig) (path : String) : SessionConfig :=
  { c with modulePath := some path }

/-- The number a variable holds, if it is set and reads as a 64-bit number. -/
def number (env : String → Option String) (name : String) : Option UInt64 :=
  (env name).bind fun raw => (Integer.parseU64 (Blank.trim raw)).toOption

/-- The environment variables a configuration reads. -/
def environmentNames : List String :=
  ["NACLDBG_HANDSHAKE_TIMEOUT_MS", "NACLDBG_POLL_INTERVAL_MS", "NACLDBG_REPLY_TIMEOUT_MS",
    "NACLDBG_JOIN_TIMEOUT_MS", "NACLDBG_MAX_STEP_INSTRUCTIONS", "NACLDBG_MAX_FRAMES",
    "NACLDBG_MODULE_PATH"]

/-- The defaults, overridden by the variables of an environment:
`NACLDBG_HANDSHAKE_TIMEOUT_MS`, `NACLDBG_POLL_INTERVAL_MS` (which also sets the join timeout
to eight intervals), `NACLDBG_REPLY_TIMEOUT_MS`, `NACLDBG_JOIN_TIMEOUT_MS`,
`NACLDBG_MAX_STEP_INSTRUCTIONS`, `NACLDBG_MAX_FRAMES` and `NACLDBG_MODULE_PATH`. -/
def fromEnv (env : String → Option String) : SessionConfig :=
  let c : SessionConfig := {}
  let c := match number env "NACLDBG_HANDSHAKE_TIMEOUT_MS" with
    | some ms => { c with handshakeTimeoutMs := ms.toNat }
    | none => c
  let c := match number env "NACLDBG_POLL_INTERVAL_MS" with
    | some ms => c.withPollInterval ms.toNat
    | none => c
  let c := match number env "NACLDBG_REPLY_TIMEOUT_MS" with
    | some ms => { c with replyTimeoutMs := ms.toNat }
    | none => c
  let c := match number env "NACLDBG_JOIN_TIMEOUT_MS" with
    | some ms => { c with joinTimeoutMs := ms.toNat }
    | none => c
  let c := match number env "NACLDBG_MAX_STEP_INSTRUCTIONS" with
    | some n => { c with maxStepInstructions := some n }
    | none => c
  let c := match number env "NACLDBG_MAX_FRAMES" with
    | some n => { c with maxFrames := n.toNat }
    | none => c
  match env "NACLDBG_MODULE_PATH" with
  | some path => if path.isEmpty then c else c.withModulePath path
  | none => c

end SessionConfig

end RemoteDebugger
