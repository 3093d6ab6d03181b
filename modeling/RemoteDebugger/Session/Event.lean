import RemoteDebugger.Target.Stop
import RemoteDebugger.Target.Architecture
import RemoteDebugger.Symbols.Module

/-!
# Session events

What a debugging session announces as it goes: it opened, a module's symbols
were (or failed to be) loaded, the target stopped or resumed, a step finished,
the program wrote output, the session closed. Each event has a one-line
description for people.
-/

namespace RemoteDebugger

/-- An event announced by a debugging session. -/
inductive SessionEvent where
  | opened (arch : Architecture) (module : Option String)
  | moduleLoaded (path : String) (status : LoadStatus)
  /-- The target stopped; `pc` is already rewound past a breakpoint trap. -/
  | stopped (reason : StopReason) (thread : Option ThreadId) (pc : Option Address)
      (breakpoint : Option UInt64)
  | continuing
  | stepFinished (thread : Option ThreadId)
  | output (text : String)
  | closed
  deriving DecidableEq, Repr

/-- A one-line description of an event. -/
def SessionEvent.describe : SessionEvent → String
  | .opened arch module =>
    match module with
    | some m => "Session opened (" ++ arch.render ++ ", " ++ m ++ ")"
    | none => "Session opened (" ++ arch.render ++ ")"
  | .moduleLoaded _ status => status.message
  | .stopped reason thread pc breakpoint =>
    "Target " ++ reason.describe ++
      (match pc with | some a => " at " ++ a.render | none => "") ++
      (match breakpoint with | some b => " (breakpoint " ++ toString b.toNat ++ ")" | none => "") ++
      (match thread with | some t => " [thread " ++ Hex.natDigits t.toNat ++ "]" | none => "")
  | .continuing => "Target resumed execution"
  | .stepFinished _ => "Step finished"
  | .output text => text
  | .closed => "Session closed"

end RemoteDebugger
