import RemoteDebugger.Dwarf.Unit

/-!
# Range lists and location lists

The DWARF 4 pairs of `.debug_ranges` and `.debug_loc` and the DWARF 5 entries of
`.debug_rnglists` and `.debug_loclists`, relative to a base address, with tombstoned, empty and
reversed entries skipped.
-/

namespace RemoteDebugger.Dwarf

/-- Which of the two kinds of list is read. -/
inductive ListKind where
  | ranges
  | locations
  deriving DecidableEq

/-- A list entry as stored; `data` is the location expression, empty in range lists. -/
inductive RawEntry where
  | base (a : Nat)
  | baseIndex (i : Nat)
  | indexPair (b e : Nat) (data : ByteArray)
  | indexLength (b len : Nat) (data : ByteArray)
  | offsetPair (b e : Nat) (data : ByteArray)
  | startEnd (b e : Nat) (data : ByteArray)
  | startLength (b len : Nat) (data : ByteArray)
  | everywhere (data : ByteArray)

/-- A converted entry: the addresses `[start, stop)` and the expression. -/
structure ListEntry where
  start : Nat
  stop : Nat
  data : ByteArray

/-- A location expression: a two-byte length before DWARF 5, an LEB128 length after. -/
def expressionBlock (enc : Encoding) : Read ByteArray := do
  let n ← if enc.version ≥ 5 then uleb128 else u16
  return (← split n).bytes

/-- Read one entry of a list; `none` at its end. -/
def rawEntry (enc : Encoding) (kind : ListKind) : Read (Option RawEntry) := do
  let size := enc.addressSize
  let data : Read ByteArray :=
    if kind = .locations then expressionBlock enc else pure ByteArray.empty
  if enc.version ≤ 4 then
    let b ← address size
    let e ← address size
    if b = 0 ∧ e = 0 then return none
    if b = onesSized size then return some (.base e)
    return some (.offsetPair b e (← data))
  let tag ← u8
  match kind, tag with
  | _, 0 => pure none
  | _, 1 => (some ∘ .baseIndex) <$> uleb128
  | _, 2 => do
    let b ← uleb128
    let e ← uleb128
    return some (.indexPair b e (← data))
  | _, 3 => do
    let b ← uleb128
    let len ← uleb128
    return some (.indexLength b len (← data))
  | _, 4 => do
    let b ← uleb128
    let e ← uleb128
    return some (.offsetPair b e (← data))
  | .ranges, 5 | .locations, 6 => (some ∘ .base) <$> address size
  | .ranges, 6 | .locations, 7 => do
    let b ← address size
    let e ← address size
    return some (.startEnd b e (← data))
  | .ranges, 7 | .locations, 8 => do
    let b ← address size
    let len ← uleb128
    return some (.startLength b len (← data))
  | .locations, 5 => do return some (.everywhere (← data))
  | .ranges, _ => fault .unknownRangeListsEntry
  | .locations, _ => fault .unknownLocListsEntry

/-- The least address that marks dropped code: all ones less one, below all ones. -/
def tombstone (enc : Encoding) : Nat := onesSized enc.addressSize - 1

/-- Convert the entries of a list read from a cursor, carrying the base address. -/
def convertEntries (s : Sections) (u : CompUnit) (kind : ListKind) :
    Nat → Cursor → Nat → Array ListEntry → Except Fault (Array ListEntry)
  | 0, _, _, acc => .ok acc
  | fuel + 1, c, base, acc =>
    if c.isEmpty then .ok acc
    else do
      let enc := u.header.enc
      let size := enc.addressSize
      let (raw, c) ← (rawEntry enc kind).run c
      let keep (b e : Nat) (d : ByteArray) : Array ListEntry :=
        if b ≥ tombstone enc ∨ b ≥ e then acc else acc.push ⟨b, e, d⟩
      match raw with
      | none => .ok acc
      | some (.base a) => convertEntries s u kind fuel c a acc
      | some (.baseIndex i) => convertEntries s u kind fuel c (← s.addressAt u i) acc
      | some (.indexPair b e d) => do
        let b ← s.addressAt u b
        let e ← s.addressAt u e
        convertEntries s u kind fuel c base (keep b e d)
      | some (.indexLength b len d) => do
        let b ← s.addressAt u b
        convertEntries s u kind fuel c base (keep b (wrapSized b len size) d)
      | some (.offsetPair b e d) =>
        if base ≥ tombstone enc then convertEntries s u kind fuel c base acc
        else convertEntries s u kind fuel c base (keep (wrapSized base b size) (wrapSized base e size) d)
      | some (.startEnd b e d) => convertEntries s u kind fuel c base (keep b e d)
      | some (.startLength b len d) =>
        convertEntries s u kind fuel c base (keep b (wrapSized b len size) d)
      | some (.everywhere d) => convertEntries s u kind fuel c base (keep 0 (UInt64.size - 1) d)

/-- A cursor on the list at an offset of the unit's list section: `.debug_ranges` and
`.debug_loc` before DWARF 5, `.debug_rnglists` and `.debug_loclists` from DWARF 5 on. -/
def Sections.listAt (s : Sections) (u : CompUnit) (kind : ListKind) (o : Nat) :
    Except Fault Cursor :=
  let v5 := decide (u.header.enc.version ≥ 5)
  let data := match kind, v5 with
    | .ranges, false => s.ranges
    | .ranges, true => s.rnglists
    | .locations, false => s.loc
    | .locations, true => s.loclists
  Cursor.at data s.big o

/-- The entries of the list a cursor starts, from the unit's base address. -/
def Sections.listEntries (s : Sections) (u : CompUnit) (kind : ListKind) (c : Cursor) :
    Except Fault (Array ListEntry) :=
  convertEntries s u kind (c.remaining + 1) c u.lowPc #[]

/-- The offset a list index stands for: the table at the unit's base holds offsets relative
to that base. -/
def Sections.listOffset (s : Sections) (u : CompUnit) (kind : ListKind) (i : Nat) :
    Except Fault Nat := do
  let (data, base) := match kind with
    | .ranges => (s.rnglists, u.rnglistsBase)
    | .locations => (s.loclists, u.loclistsBase)
  let enc := u.header.enc
  let c ← Cursor.at data s.big base
  let x ← c.run (do skip (i * enc.wordSize); offset enc.is64)
  pure (base + x)

end RemoteDebugger.Dwarf
