import RemoteDebugger.Dwarf.Reader

/-!
# Attribute forms and values

`readValue` reads an attribute's value in its form, and `interpret` gives it the class its
attribute expects: sizes and lines as numbers, section offsets as references, enumerated
constants as `typed`.
-/

namespace RemoteDebugger.Dwarf

/-- The shape of a unit's data: offset size, version and address size. -/
structure Encoding where
  is64 : Bool
  version : Nat
  addressSize : Nat
  deriving Repr

/-- The size of a section offset in bytes. -/
def Encoding.wordSize (e : Encoding) : Nat := if e.is64 then 8 else 4

/-- An attribute value. -/
inductive Value where
  | addr (a : Nat)
  | block (bytes : ByteArray)
  | data (width : Nat) (v : Nat)
  | sdata (v : Int)
  | udata (v : Nat)
  | exprloc (bytes : ByteArray)
  | flag (b : Bool)
  | secOffset (o : Nat)
  | addrIndex (i : Nat)
  | unitRef (o : Nat)
  | infoRef (o : Nat)
  | infoRefSup (o : Nat)
  | typesRef (signature : Nat)
  | strRef (o : Nat)
  | strRefSup (o : Nat)
  | lineStrRef (o : Nat)
  | strIndex (i : Nat)
  | locListsIndex (i : Nat)
  | rngListsIndex (i : Nat)
  | string (bytes : ByteArray)
  | lineRef (o : Nat)
  | locListsRef (o : Nat)
  | rangeListsRef (o : Nat)
  | addrBase (o : Nat)
  | strOffsetsBase (o : Nat)
  | locListsBase (o : Nat)
  | rngListsBase (o : Nat)
  /-- A constant of an enumerated kind. -/
  | typed

/-- The value as an unsigned constant: sized data, unsigned data, or non-negative signed data. -/
def Value.udata? : Value → Option Nat
  | .data _ v => some v
  | .udata v => some v
  | .sdata v => if v < 0 then none else some v.toNat
  | _ => none

/-- The value as a section offset. -/
def Value.offset? : Value → Option Nat
  | .secOffset o => some o
  | _ => none

/-- Attributes whose data forms may hold section offsets in DWARF 2 and 3. -/
def holdsSectionOffset (name version : Nat) : Bool :=
  [0x02, 0x10, 0x19, 0x2a, 0x2c, 0x40, 0x43, 0x79, 0x46, 0x48, 0x4a, 0x4d, 0x55].contains name ||
    (name == 0x38 && (version == 2 || version == 3))

/-- Read a value of a form. `DW_FORM_indirect` reads the form from the data first; each
indirection consumes a byte, so `fuel` one more than the bytes left always suffices. -/
def readForm (enc : Encoding) (name : Nat) (implicit : Option Int) : Nat → Nat → Read Value
  | 0, _ => fault .eof
  | fuel + 1, form =>
    match form with
    | 0x16 => do readForm enc name implicit fuel (← uleb16)
    | 0x01 => .addr <$> address enc.addressSize
    | 0x0a => do return .block (← split (← u8)).bytes
    | 0x03 => do return .block (← split (← u16)).bytes
    | 0x04 => do return .block (← split (← u32)).bytes
    | 0x09 => do return .block (← split (← uleb128)).bytes
    | 0x0b => .data 1 <$> u8
    | 0x05 => .data 2 <$> u16
    | 0x06 =>
      if !enc.is64 && holdsSectionOffset name enc.version then .secOffset <$> u32
      else .data 4 <$> u32
    | 0x07 =>
      if enc.is64 && holdsSectionOffset name enc.version then .secOffset <$> u64
      else .data 8 <$> u64
    | 0x1e => do return .block (← split 16).bytes
    | 0x0f => .udata <$> uleb128
    | 0x0d => .sdata <$> sleb128
    | 0x18 => do return .exprloc (← split (← uleb128)).bytes
    | 0x0c => do return .flag ((← u8) ≠ 0)
    | 0x19 => pure (.flag true)
    | 0x17 => .secOffset <$> offset enc.is64
    | 0x11 => .unitRef <$> u8
    | 0x12 => .unitRef <$> u16
    | 0x13 => .unitRef <$> u32
    | 0x14 => .unitRef <$> u64
    | 0x15 => .unitRef <$> uleb128
    | 0x10 => .infoRef <$> (if enc.version = 2 then uint enc.addressSize else offset enc.is64)
    | 0x20 => .typesRef <$> u64
    | 0x1c => .infoRefSup <$> u32
    | 0x24 => .infoRefSup <$> u64
    | 0x1f20 => .infoRefSup <$> offset enc.is64
    | 0x08 => .string <$> cstring
    | 0x0e => .strRef <$> offset enc.is64
    | 0x1d | 0x1f21 => .strRefSup <$> offset enc.is64
    | 0x1f => .lineStrRef <$> offset enc.is64
    | 0x21 =>
      match implicit with
      | some v => pure (.sdata v)
      | none => fault .invalidImplicitConst
    | 0x1a | 0x1f02 => .strIndex <$> uleb128
    | 0x25 => .strIndex <$> u8
    | 0x26 => .strIndex <$> u16
    | 0x27 => .strIndex <$> uint 3
    | 0x28 => .strIndex <$> u32
    | 0x1b | 0x1f01 => .addrIndex <$> uleb128
    | 0x29 => .addrIndex <$> u8
    | 0x2a => .addrIndex <$> u16
    | 0x2b => .addrIndex <$> uint 3
    | 0x2c => .addrIndex <$> u32
    | 0x22 => .locListsIndex <$> uleb128
    | 0x23 => .rngListsIndex <$> uleb128
    | _ => fault .unknownForm

/-- Read the value of an attribute stored in a form. -/
def readValue (enc : Encoding) (name form : Nat) (implicit : Option Int) : Read Value := do
  readForm enc name implicit ((← get).remaining + 1) form

/-- Attributes whose constants are sizes, lines, columns or offsets. -/
def unsignedNames : List Nat := [0x0b, 0x0c, 0x0d, 0x12, 0x2e, 0x38, 0x39, 0x3b, 0x51, 0x57, 0x59]

/-- Attributes whose section offsets point into a location list section. -/
def locationListNames : List Nat := [0x02, 0x19, 0x2a, 0x38, 0x40, 0x46, 0x48, 0x4a, 0x4d]

/-- Attributes whose one-byte constants are enumerations. -/
def byteEnumNames : List Nat := [0x09, 0x17, 0x20, 0x32, 0x36, 0x3e, 0x42, 0x4c, 0x5e, 0x65]

/-- Attributes whose constants are file indices, address classes or unit ids. -/
def indexNames : List Nat := [0x33, 0x3a, 0x58, 0x2131]

/-- Give a value the class its attribute expects; a value that fits no class of the attribute
is kept as read. -/
def interpret (name : Nat) (v : Value) : Value :=
  let enumIf (fits : Nat → Bool) : Option Value :=
    v.udata?.bind fun n => if fits n then some .typed else none
  let pointer (mk : Nat → Value) : Option Value := v.offset?.map mk
  let converted : Option Value :=
    if unsignedNames.contains name then
      (v.udata?.map .udata).orElse fun _ =>
        if locationListNames.contains name then pointer .locListsRef else none
    else if byteEnumNames.contains name then enumIf (· ≤ 255)
    else if name = 0x13 then enumIf (· ≤ 65535)
    else if indexNames.contains name then enumIf fun _ => true
    else if locationListNames.contains name then pointer .locListsRef
    else if name = 0x10 then pointer .lineRef
    else if name = 0x2c ∨ name = 0x55 then pointer .rangeListsRef
    else if name = 0x72 then pointer .strOffsetsBase
    else if name = 0x73 ∨ name = 0x2133 then pointer .addrBase
    else if name = 0x74 ∨ name = 0x2132 then pointer .rngListsBase
    else if name = 0x8c then pointer .locListsBase
    else if name = 0x43 ∨ name = 0x79 then pointer fun _ => .typed
    else none
  converted.getD v

end RemoteDebugger.Dwarf
