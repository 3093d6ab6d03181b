import RemoteDebugger.Overflow
import RemoteDebugger.Symbols.Position
import RemoteDebugger.Symbols.Demangle
import RemoteDebugger.Unwind.Frames

/-!
# Resolving addresses, positions, scopes and types

A `Resolver` answers position, function, variable and type questions for one module loaded at a
base address, in process addresses.
-/

namespace RemoteDebugger

/-- Symbol queries for one module loaded at a fixed base. -/
structure Resolver where
  db : SymbolDatabase := .empty
  base : Address := 0
  /-- The module file the symbols came from. -/
  module : Option String := none

namespace Resolver

/-- The longest chains of type links, of name links, and of nested type resolutions. -/
def maxTypeDepth : Nat := 32

/-- A resolver over an indexed database. -/
def ofDatabase (db : SymbolDatabase) (base : Address) : Resolver := { db, base }

/-- Whether any symbols are loaded. -/
def isLoaded (r : Resolver) : Bool := !r.db.isEmpty

/-- The module-relative form of a process address at or above the base. -/
def relative (r : Resolver) (a : Address) : Option UInt64 := Address.relativeTo a r.base

/-- The process address of a module-relative one. -/
def absolute (r : Resolver) (rel : UInt64) : Address := r.base + rel

/-- The source position of the line row covering an address. -/
def position (r : Resolver) (a : Address) : Option SourcePosition := do
  let rel ← r.relative a
  let row ← r.db.locationForAddress rel
  if !row.contains rel then none
  let f ← r.db.file row.file
  pure ⟨f.current, row.line, row.column⟩

/-- How many trailing name components two paths share. -/
def sharedSuffix (declared requested : String) : Nat :=
  ((Path.names declared).reverse.zip (Path.names requested).reverse).takeWhile
    (fun (a, b) => a == b) |>.length

/-- The first candidate with the strictly greatest score. -/
def best (score : SourceFile → Nat) : List SourceFile → Option (SourceFile × Nat)
  | [] => none
  | f :: fs =>
    match best score fs with
    | some (g, s) => if s > score f then some (g, s) else some (f, score f)
    | none => some (f, score f)

/-- The files a request path refers to, and the resolver with their current path set to it. -/
def matchingFiles (r : Resolver) (path : String) : Resolver × List SourceFile :=
  match Path.fileName path with
  | none => (r, [])
  | some name =>
    let candidates := r.db.filesNamed name
    match best (fun f => sharedSuffix f.declared path) candidates with
    | none => (r, [])
    | some (chosen, _) =>
      let files := candidates.filter fun f => Path.same f.declared chosen.declared
      let db := files.foldl (fun db f => db.setCurrentPath f.key path) r.db
      ({ r with db }, files.filterMap fun f => db.file f.key)

/-- Insert into a sorted list of distinct addresses. -/
def insertSorted (a : Address) : List Address → List Address
  | [] => [a]
  | b :: bs => if a < b then a :: b :: bs else if a = b then b :: bs else b :: insertSorted a bs

/-- The addresses, ascending and without repeats, of the rows of a file line. -/
def addresses (r : Resolver) (path : String) (line : UInt32) : Resolver × List Address :=
  let (r, files) := r.matchingFiles path
  let found := files.flatMap fun f =>
    ((r.db.locationsForFile f.key).filter (·.line = line)).map fun row => r.absolute row.start
  (r, found.foldr insertSorted [])

/-- The subprogram owning an address. -/
def subprogram (r : Resolver) (a : Address) : Option Entry := do
  let rel ← r.relative a
  let scope ← r.db.scopeForAddress rel
  r.db.nearestScopeWithTag scope.key Dwarf.tagSubprogram

/-- A function's name: its own, else its demangled linkage name, looking through the
declaration it specifies or the abstract instance it comes from. -/
def functionName (r : Resolver) : Nat → Entry → Option String
  | 0, _ => none
  | n + 1, e =>
    match e.name with
    | some name => some name
    | none =>
      let linkage := ((e.attr Dwarf.atLinkageName).orElse fun _ => e.attr Dwarf.atMipsLinkageName).bind
        (·.asString)
      match linkage with
      | some l => some (Demangle.demangle l)
      | none =>
        let next := ((e.attr Dwarf.atSpecification).orElse fun _ => e.attr Dwarf.atAbstractOrigin).bind
          (·.asReference)
        match next.bind r.db.entry with
        | some e' => r.functionName n e'
        | none => none

/-- The smallest and greatest of some values. -/
def bounds : List UInt64 → Option (UInt64 × UInt64)
  | [] => none
  | x :: xs => some (xs.foldl min x, xs.foldl max x)

/-- A subprogram as a function: its code range is `[low_pc, high_pc)` when that is not empty,
else the span of its range list. Summing a range's base and bounds may overflow. -/
def function (r : Resolver) (e : Entry) : Checked Function := do
  let range ← match e.lowPc, e.highPc with
    | some low, some high =>
      if high > low then pure (some (r.absolute low, r.absolute high)) else spanOfRanges
    | _, _ => spanOfRanges
  pure ⟨some e.key, (r.functionName maxTypeDepth e).getD Function.unknownName, range⟩
where
  spanOfRanges : Checked (Option (Address × Address)) := do
    let ranges := r.db.rangeList e.key
    let lows ← ranges.mapM fun x => Checked.add .rangeLow x.base x.low
    let highs ← ranges.mapM fun x => Checked.add .rangeHigh x.base x.high
    pure (match bounds lows, bounds highs with
      | some (low, _), some (_, high) => some (r.absolute low, r.absolute high)
      | _, _ => none)

/-- The function containing an address, or the unknown function. -/
def functionAt (r : Resolver) (a : Address) : Checked Function :=
  match r.subprogram a with
  | some e => r.function e
  | none => pure Function.unknown

/-- Walk the rows from `cursor` up to `high`, collecting the start of each row met; gaps are
skipped to the next row. -/
def rowStarts (r : Resolver) (high cursor : UInt64) : List Address :=
  if _h : cursor < high then
    match (r.db.locationForAddress cursor).filter (·.contains cursor) with
    | some row =>
      if _hc : cursor < row.stop then r.absolute row.start :: r.rowStarts high row.stop else []
    | none =>
      match r.db.locationAfter cursor with
      | some next => if _hn : cursor < next.start then r.rowStarts high next.start else []
      | none => []
  else []
termination_by high.toNat - cursor.toNat
decreasing_by
  all_goals simp only [UInt64.lt_iff_toNat_lt] at *; omega

/-- The start of every row inside the function containing an address, in address order. -/
def addressesInScope (r : Resolver) (a : Address) : Checked (List Address) := do
  let f ← r.functionAt a
  pure (match f.range with
    | some (low, high) =>
      match r.relative low, r.relative high with
      | some low, some high => r.rowStarts high low
      | _, _ => []
    | none => [])

/-- The end of the row covering an address. -/
def nextLocation (r : Resolver) (a : Address) : Option Address := do
  let rel ← r.relative a
  let row ← r.db.locationForAddress rel
  if row.contains rel then pure (r.absolute row.stop) else none

/-! ## Types -/

/-- The kind of a base type by its encoding. -/
def baseKind (e : Entry) : TypeKind :=
  match (e.attr Dwarf.atEncoding).bind (·.asUnsigned) with
  | some v =>
    if v = Dwarf.ateBoolean.toUInt64 then .bool
    else if v = Dwarf.ateSignedChar.toUInt64 ∨ v = Dwarf.ateUnsignedChar.toUInt64 ∨
      v = Dwarf.ateUtf.toUInt64 then .char
    else if v = Dwarf.ateSigned.toUInt64 then .int
    else if v = Dwarf.ateUnsigned.toUInt64 ∨ v = Dwarf.ateAddress.toUInt64 then .uint
    else if v = Dwarf.ateFloat.toUInt64 then .float
    else .unknown
  | none => .unknown

/-- Put a token in front of a name, separated by a blank. -/
def prepend (token name : String) : String := if name.isEmpty then token else token ++ " " ++ name

/-- An array's element count: the count of its first subrange, else its upper bound plus one,
which may overflow. -/
def arrayLength (r : Resolver) (array : Entry) : Checked (Option UInt64) :=
  match (r.db.childrenOf array.key).find? (·.tag = Dwarf.tagSubrangeType) with
  | none => pure none
  | some sub =>
    match (sub.attr Dwarf.atCount).bind (·.asUnsigned) with
    | some n => pure (some n)
    | none =>
      match (sub.attr Dwarf.atUpperBound).bind (·.asUnsigned) with
      | some u => some <$> Checked.add .arrayBound u 1
      | none => pure none

/-- What a chain walk has gathered: the name so far, whether naming goes on, and the kind and
size of the outermost link that has them. -/
structure Chain where
  name : String := ""
  naming : Bool := true
  kind : Option TypeKind := none
  size : Option UInt64 := none

/-- Tags that end the naming of a chain: the link names the whole type. -/
def isNamingTag (tag : Nat) : Bool :=
  [Dwarf.tagTypedef, Dwarf.tagBaseType, Dwarf.tagStructureType, Dwarf.tagClassType,
    Dwarf.tagUnionType, Dwarf.tagEnumerationType].contains tag

/-- Walk a type chain from a link, at most `fuel` more links, resolving nested types (array
elements, parameters) with `inner`. `none` for a dangling link, an unsupported tag or a chain
longer than the limit. -/
def walkChain (r : Resolver) (inner : EntryKey → Checked (Option SymbolType)) :
    Nat → Chain → Option EntryKey → Checked (Option Chain)
  | _, c, none => pure (some c)
  | 0, _, some _ => pure none
  | fuel + 1, c, some k => do
    let some e := r.db.entry k | pure none
    let tag := e.tag
    let some (token, c, next) ← step e c | pure none
    let c :=
      if c.naming then
        let name := prepend token c.name
        if isNamingTag tag then { c with name, naming := false }
        else if next.isNone then { c with name := prepend "void" name }
        else { c with name }
      else c
    r.walkChain inner fuel c next
where
  /-- The token of one link, the chain updated with its kind and size, and the next link. -/
  step (e : Entry) (c : Chain) : Checked (Option (String × Chain × Option EntryKey)) := do
    let next := e.typeRef
    let kindOr (k : TypeKind) := c.kind.getD k
    let sized (s : Option UInt64) := c.size.orElse fun _ => s
    let t := e.tag
    if t = Dwarf.tagConstType then pure (some ("const", c, next))
    else if t = Dwarf.tagVolatileType then pure (some ("volatile", c, next))
    else if t = Dwarf.tagRestrictType then pure (some ("restrict", c, next))
    else if t = Dwarf.tagPointerType then
      pure (some ("*", { c with kind := kindOr .pointer, size := sized (e.byteSize.getD 8) }, next))
    else if t = Dwarf.tagReferenceType ∨ t = Dwarf.tagRvalueReferenceType then
      pure (some ("&", { c with kind := kindOr .pointer, size := sized (e.byteSize.getD 8) }, next))
    else if t = Dwarf.tagBaseType then
      pure (some ((e.name.getD "<base>"), { c with kind := kindOr (baseKind e), size := sized e.byteSize },
        none))
    else if t = Dwarf.tagStructureType ∨ t = Dwarf.tagClassType ∨ t = Dwarf.tagUnionType then
      let keyword := if t = Dwarf.tagUnionType then "union" else "struct"
      pure (some (keyword ++ " " ++ e.name.getD "<anonymous>",
        { c with kind := kindOr .struct, size := sized e.byteSize }, none))
    else if t = Dwarf.tagEnumerationType then
      pure (some ("enum " ++ e.name.getD "<anonymous>",
        { c with kind := kindOr .int, size := sized (e.byteSize.getD 4) }, none))
    else if t = Dwarf.tagTypedef then pure (some (e.name.getD "<typedef>", c, next))
    else if t = Dwarf.tagArrayType then
      let count ← r.arrayLength e
      let size ← match c.size with
        | some s => pure (some s)
        | none =>
          match e.byteSize with
          | some b => pure (some b)
          | none =>
            match next with
            | none => pure none
            | some el =>
              match ← inner el with
              | none => pure none
              | some element =>
                match count with
                | some n => some <$> Checked.mul .arraySize n element.size
                | none => pure none
      let token := match count with
        | some n => "[" ++ toString n ++ "]"
        | none => "[]"
      pure (some (token, { c with kind := kindOr .struct, size }, next))
    else if t = Dwarf.tagSubroutineType then
      let params ← (r.db.childrenOf e.key).filterMapM fun child => do
        if child.tag = Dwarf.tagFormalParameter then
          match child.typeRef with
          | some k =>
            match ← inner k with
            | some ty => pure (some ty.name)
            | none => pure (some SymbolType.unknown.name)
          | none => pure (some SymbolType.unknown.name)
        else if child.tag = Dwarf.tagUnspecifiedParameters then pure (some "...")
        else pure none
      pure (some ("(" ++ ", ".intercalate params ++ ")", c, next))
    else pure none

/-- Resolve the type chain from a key with `levels` levels of nesting left. -/
def resolveType (r : Resolver) : Nat → EntryKey → Checked (Option SymbolType)
  | 0, _ => pure none
  | n + 1, k => do
    let some c ← r.walkChain (r.resolveType n) maxTypeDepth {} (some k) | pure none
    pure (some ⟨some k, c.name, c.size.getD 0, c.kind.getD .unknown⟩)

/-- The flattened type chain from a key, or the unknown type. -/
def symbolType (r : Resolver) (k : EntryKey) : Checked SymbolType := do
  pure ((← r.resolveType (maxTypeDepth + 1) k).getD SymbolType.unknown)

/-! ## Variables -/

/-- The expression of a location attribute that applies at an address. -/
def expressionAt (r : Resolver) (v : AttributeValue) (pc : UInt64) : Option (List UInt8) :=
  match v with
  | .bytes code => some code
  | .locationList offset => do
    let list ← r.db.locList offset
    let e ← list.find? (·.contains pc)
    pure e.expression
  | _ => none

/-- The frame base of a subprogram at an address, when its expression evaluates. -/
def frameBase {m : Type → Type} [Monad m] (r : Resolver) (read : ReadBytes m) (sub : Entry)
    (pc : UInt64) (regs : Registers) (cfa : Option Address) : m (Option UInt64) := do
  let some attr := sub.attr Dwarf.atFrameBase | pure none
  let some code := r.expressionAt attr pc | pure none
  match ← (Expression.evaluate code (Unwinder.frameContext read r.base regs none cfa)).run with
  | .ok (.address v) | .ok (.value v) => pure (some v)
  | .ok (.register n) => pure (regs.get n)
  | .error _ => pure none

/-- Where a variable is, by its location attribute. -/
def symbolLocation {m : Type → Type} [Monad m] (r : Resolver) (attr : AttributeValue)
    (pc : UInt64) (ctx : Expression.Context m) : m SymbolLocation := do
  match r.expressionAt attr pc with
  | none => pure (.unavailable "not live at this address")
  | some code =>
    match ← (Expression.evaluate code ctx).run with
    | .ok (.address a) => pure (.memory a)
    | .ok (.value v) => pure (.value v)
    | .ok (.register n) => pure (.register n)
    | .error e => pure (.unavailable e.message)

/-- The variables of the scopes from `scope` out to the subprogram, inner ones first. -/
def scopeSymbols {m : Type → Type} [Monad m] (r : Resolver) (sub : Entry) (pc : UInt64)
    (ctx : Expression.Context m) : Nat → Option Entry → ExceptT Overflow m (List Symbol)
  | 0, _ => pure []
  | _, none => pure []
  | n + 1, some scope => do
    let here ← (r.db.childrenOf scope.key).filterMapM fun child => do
      match child.name, child.attr Dwarf.atLocation with
      | some name, some loc =>
        let location ← (r.symbolLocation loc pc ctx : m SymbolLocation)
        let ty ← match child.typeRef with
          | some k => r.symbolType k
          | none => pure SymbolType.unknown
        pure (some ⟨child.key, name, location, ty⟩)
      | _, _ => pure none
    if scope.key = sub.key then pure here
    else
      let rest ← r.scopeSymbols sub pc ctx n (scope.outerScope.bind r.db.entry)
      pure (here ++ rest)

/-- The variables and parameters visible in the frame the registers describe; the failure is
an arithmetic fault. -/
def symbols {m : Type → Type} [Monad m] (r : Resolver) (read : ReadBytes m) (regs : Registers) :
    ExceptT Overflow m (List Symbol) :=
  match r.relative regs.pc with
  | none => pure []
  | some pc =>
    match r.db.scopeForAddress pc with
    | none => pure []
    | some scope =>
      match r.db.nearestScopeWithTag scope.key Dwarf.tagSubprogram with
      | none => pure []
      | some sub => do
        let cfa := match (Unwinder.mk r.db r.base read).cfa regs with
          | .ok c => c
          | .error _ => none
        let fb ← (r.frameBase read sub pc regs cfa : m (Option UInt64))
        let ctx := Unwinder.frameContext read r.base regs fb cfa
        r.scopeSymbols sub pc ctx (r.db.entries.size + 1) (some scope)

end Resolver

end RemoteDebugger
