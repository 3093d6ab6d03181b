import RemoteDebugger.Text.Escaped

/-!
# Quoted text

Text between double quotes in diagnostics, with short escapes and `\u{h}` for characters that do
not show as themselves.
-/

namespace RemoteDebugger.Quoted

/-- Lowercase hex digits of a number, at least one. -/
def hexDigits (n : Nat) : List Char :=
  if n < 16 then [Char.ofNat (if n < 10 then 48 + n else 87 + n)]
  else hexDigits (n / 16) ++ hexDigits (n % 16)
termination_by n
decreasing_by all_goals omega

/-- The characters one character is written as. -/
def escapeChar (c : Char) : List Char :=
  if c = '"' then ['\\', '"']
  else if c = '\\' then ['\\', '\\']
  else if c = '\t' then ['\\', 't']
  else if c = '\r' then ['\\', 'r']
  else if c = '\n' then ['\\', 'n']
  else if c = '\x00' then ['\\', '0']
  else if Escaped.isEscaped c then ['\\', 'u', '\x7b'] ++ hexDigits c.toNat ++ ['\x7d']
  else [c]

/-- A text between double quotes, escaped as above. -/
def quote (s : String) : String :=
  String.ofList ('"' :: s.toList.flatMap escapeChar ++ ['"'])

end RemoteDebugger.Quoted
