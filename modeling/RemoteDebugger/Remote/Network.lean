import RemoteDebugger.Text.Integer

/-!
# Reaching a stub

An address text names a socket address or a host and a port; each address it stands for is tried
in turn. A `Network` says how names resolve and what connecting gives.
-/

namespace RemoteDebugger

/-- An IP address. -/
inductive IpAddress where
  | v4 (a b c d : UInt8)
  | v6 (groups : List UInt16)
  deriving DecidableEq, Repr

/-- An IP address and a service number. -/
structure SocketAddress where
  ip : IpAddress
  service : UInt16
  deriving DecidableEq, Repr

namespace SocketAddress

/-- A partial reader of characters: the value read and the characters left. -/
abbrev Scan (α : Type) := List Char → Option (α × List Char)

/-- Read one given character. -/
def char (c : Char) : Scan Unit
  | d :: rest => if c = d then some ((), rest) else none
  | [] => none

/-- Read every digit in `radix` that follows, at least one and, when a limit is given, at most
`maxDigits`. The value must stay below `bound`. Without `zeroPrefix`, a number of two or more
digits may not start with zero. -/
def number (radix bound : Nat) (maxDigits : Option Nat) (zeroPrefix : Bool) : Scan Nat := fun cs =>
  let digits := cs.takeWhile fun c => (Integer.digitValue radix c).isSome
  let count := digits.length
  let v := digits.foldl (fun acc c => acc * radix + (Integer.digitValue radix c).getD 0) 0
  if count = 0 ∨ maxDigits.any (count > ·) then none
  else if !zeroPrefix ∧ count > 1 ∧ digits.head? = some '0' then none
  else if v < bound then some (v, cs.drop count)
  else none

/-- Four decimal octets separated by dots, without leading zeros. -/
def ipv4 : Scan IpAddress := fun cs => do
  let (a, cs) ← number 10 256 (some 3) false cs
  let ((), cs) ← char '.' cs
  let (b, cs) ← number 10 256 (some 3) false cs
  let ((), cs) ← char '.' cs
  let (c, cs) ← number 10 256 (some 3) false cs
  let ((), cs) ← char '.' cs
  let (d, cs) ← number 10 256 (some 3) false cs
  pure (.v4 a.toUInt8 b.toUInt8 c.toUInt8 d.toUInt8, cs)

/-- Read `sep` unless this is the first item, then the item; nothing is consumed on failure. -/
def separated {α : Type} (sep : Char) (first : Bool) (item : Scan α) : Scan α := fun cs =>
  if first then item cs else do
    let ((), cs) ← char sep cs
    item cs

/-- Colon-separated groups, at most `limit` of them, where the last two may be written as an
IPv4 address. Returns the groups and whether an IPv4 address ended them. -/
def groups (limit : Nat) (cs : List Char) : List UInt16 × Bool × List Char :=
  go limit 0 [] cs
where
  go : Nat → Nat → List UInt16 → List Char → List UInt16 × Bool × List Char
    | 0, _, acc, cs => (acc, false, cs)
    | k + 1, i, acc, cs =>
      let v4 := if k ≥ 1 then separated ':' (i = 0) ipv4 cs else none
      match v4 with
      | some (.v4 a b c d, rest) =>
        (acc ++ [(a.toUInt16 <<< 8) ||| b.toUInt16, (c.toUInt16 <<< 8) ||| d.toUInt16], true, rest)
      | _ =>
        match separated ':' (i = 0) (number 16 0x10000 (some 4) true) cs with
        | some (g, rest) => go k (i + 1) (acc ++ [g.toUInt16]) rest
        | none => (acc, false, cs)

/-- An IPv6 address: eight groups, or fewer around one `::` that stands for zeros. -/
def ipv6 : Scan (List UInt16) := fun cs =>
  let (head, headV4, cs) := groups 8 cs
  if head.length = 8 then some (head, cs)
  else if headV4 then none
  else do
    let ((), cs) ← char ':' cs
    let ((), cs) ← char ':' cs
    let (tail, _, cs) := groups (8 - (head.length + 1)) cs
    pure (head ++ List.replicate (8 - head.length - tail.length) 0 ++ tail, cs)

/-- A service number: decimal digits below 2^16, leading zeros allowed. -/
def serviceSuffix : Scan UInt16 := fun cs => do
  let ((), cs) ← char ':' cs
  let (p, cs) ← number 10 0x10000 none true cs
  pure (p.toUInt16, cs)

/-- A numeric socket address making up the whole text. -/
def parse (s : String) : Option SocketAddress :=
  let whole {α : Type} (r : Option (α × List Char)) : Option α :=
    match r with
    | some (a, []) => some a
    | _ => none
  let v4 : Option SocketAddress := whole (do
    let (ip, cs) ← ipv4 s.toList
    let (p, cs) ← serviceSuffix cs
    pure (⟨ip, p⟩, cs))
  let v6 : Option SocketAddress := whole (do
    let ((), cs) ← char '[' s.toList
    let (ip, cs) ← ipv6 cs
    let cs := match char '%' cs with
      | some ((), rest) => ((number 10 (UInt32.size) none true rest).map (·.2)).getD cs
      | none => cs
    let ((), cs) ← char ']' cs
    let (p, cs) ← serviceSuffix cs
    pure (⟨.v6 ip, p⟩, cs))
  v4 <|> v6

end SocketAddress

/-- The host and service number of an address text, split at its last colon. -/
def splitHostService (s : String) : Option (String × String) :=
  let cs := s.toList
  match cs.reverse.findIdx? (· = ':') with
  | none => none
  | some i =>
    let k := cs.length - 1 - i
    some (String.ofList (cs.take k), String.ofList (cs.drop (k + 1)))

/-- Why no connection to a stub was made. -/
inductive DialError where
  /-- A connection attempt ran out of time. -/
  | timedOut
  /-- Anything else, in the system's words. -/
  | failed (detail : String)
  deriving DecidableEq, Repr

/-- The system's words for a failed connection. -/
def DialError.message : DialError → String
  | .timedOut => "connection timed out"
  | .failed detail => detail

/-- What the machine offers for reaching stubs over a transport `τ`. -/
structure Network (τ : Type) where
  /-- The addresses a host stands for, or the system's description of why the lookup failed. -/
  lookup : String → Except String (List IpAddress)
  /-- A stream to a socket address, or why connecting failed. -/
  connect : SocketAddress → Except DialError τ

namespace Network

variable {τ : Type}

/-- Try socket addresses in turn; the first connection made wins, else the last failure. -/
def firstConnection (n : Network τ) (last : DialError) : List SocketAddress → Except DialError τ
  | [] => .error last
  | a :: rest =>
    match n.connect a with
    | .ok t => .ok t
    | .error e => firstConnection n e rest

/-- Connect to the stub an address text names, or say why that failed. -/
def dial (n : Network τ) (address : String) : Except DialError τ :=
  match SocketAddress.parse address with
  | some a => n.firstConnection (.failed "") [a]
  | none =>
    match splitHostService address with
    | none => .error (.failed "invalid socket address")
    | some (host, serviceText) =>
      match Integer.parseU16 serviceText with
      | .error _ => .error (.failed "invalid port value")
      | .ok p =>
        match n.lookup host with
        | .error detail => .error (.failed detail)
        | .ok ips =>
          n.firstConnection (.failed (address ++ " did not resolve to any socket address"))
            (ips.map fun ip => ⟨ip, p⟩)

/-- A C-style number: `0x` hex, a leading `0` octal, else decimal. -/
def cNumber (s : String) : Option Nat :=
  let cs := s.toList
  let (radix, digits) := match cs with
    | '0' :: 'x' :: rest | '0' :: 'X' :: rest => (16, rest)
    | '0' :: rest@(_ :: _) => (8, rest)
    | _ => (10, cs)
  if digits.isEmpty ∧ radix ≠ 16 then none
  else digits.foldlM (fun acc c => (acc * radix + ·) <$> Integer.digitValue radix c) 0

/-- A host written as numbers and dots: one to four numbers, the last filling the bytes the
others leave. -/
def numericV4 (host : String) : Option IpAddress := do
  let parts ← (host.splitOn ".").mapM cNumber
  let (lead, last) ← match parts.reverse with
    | l :: rest => some (rest.reverse, l)
    | [] => none
  if parts.length > 4 ∨ lead.any (· > 255) then none
  let width := 4 - lead.length
  if last ≥ Nat.pow 256 width then none
  let bytes := lead ++ (List.range width).reverse.map fun i => (last / Nat.pow 256 i) % 256
  match bytes with
  | [a, b, c, d] => pure (.v4 a.toUInt8 b.toUInt8 c.toUInt8 d.toUInt8)
  | _ => none

/-- A host written as an IPv6 address, with an optional `%scope`. -/
def numericV6 (host : String) : Option IpAddress :=
  let addr := (host.splitOn "%").headD host
  match SocketAddress.ipv6 addr.toList with
  | some (g, []) => some (.v6 g)
  | _ => none

/-- The loopback addresses a machine's host table gives `localhost`. -/
def localhost : List IpAddress := [.v6 [0, 0, 0, 0, 0, 0, 0, 1], .v4 127 0 0 1]

/-- A machine with no network interface up: numeric hosts and `localhost` resolve, other
names cannot be looked up, and every connection attempt fails as unreachable. -/
def offline : Network τ where
  lookup host :=
    if host.toList.contains (Char.ofNat 0) then .error "file name contained an unexpected NUL byte"
    else match numericV4 host <|> numericV6 host with
      | some ip => .ok [ip]
      | none =>
        if host.map Char.toLower = "localhost" then .ok localhost
        else if host.isEmpty then
          .error "failed to lookup address information: Name or service not known"
        else .error "failed to lookup address information: Temporary failure in name resolution"
  connect _ := .error (.failed "Network is unreachable (os error 101)")

end Network

end RemoteDebugger
