/-!
# DWARF constants

The tag, attribute and operation numbers of DWARF 5 (with the GNU extensions
that compilers emit) that the symbol database and the expression machine use,
and the names of the location operations.
-/

namespace RemoteDebugger.Dwarf

/-! ## Tags -/

def tagArrayType : Nat := 0x01
def tagClassType : Nat := 0x02
def tagEnumerationType : Nat := 0x04
def tagFormalParameter : Nat := 0x05
def tagLexicalBlock : Nat := 0x0b
def tagMember : Nat := 0x0d
def tagPointerType : Nat := 0x0f
def tagReferenceType : Nat := 0x10
def tagCompileUnit : Nat := 0x11
def tagStructureType : Nat := 0x13
def tagSubroutineType : Nat := 0x15
def tagTypedef : Nat := 0x16
def tagUnionType : Nat := 0x17
def tagUnspecifiedParameters : Nat := 0x18
def tagInlinedSubroutine : Nat := 0x1d
def tagSubrangeType : Nat := 0x21
def tagBaseType : Nat := 0x24
def tagCatchBlock : Nat := 0x25
def tagConstType : Nat := 0x26
def tagSubprogram : Nat := 0x2e
def tagTryBlock : Nat := 0x32
def tagVariable : Nat := 0x34
def tagVolatileType : Nat := 0x35
def tagRestrictType : Nat := 0x37
def tagRvalueReferenceType : Nat := 0x42
def tagAtomicType : Nat := 0x47

/-! ## Attributes -/

def atLocation : Nat := 0x02
def atName : Nat := 0x03
def atByteSize : Nat := 0x0b
def atLowPc : Nat := 0x11
def atHighPc : Nat := 0x12
def atLanguage : Nat := 0x13
def atCompDir : Nat := 0x1b
def atUpperBound : Nat := 0x2f
def atAbstractOrigin : Nat := 0x31
def atCount : Nat := 0x37
def atDeclFile : Nat := 0x3a
def atDeclLine : Nat := 0x3b
def atEncoding : Nat := 0x3e
def atExternal : Nat := 0x3f
def atFrameBase : Nat := 0x40
def atSpecification : Nat := 0x47
def atType : Nat := 0x49
def atRanges : Nat := 0x55
def atLinkageName : Nat := 0x6e
def atMipsLinkageName : Nat := 0x2007

/-! ## Base type encodings -/

def ateAddress : Nat := 0x01
def ateBoolean : Nat := 0x02
def ateFloat : Nat := 0x04
def ateSigned : Nat := 0x05
def ateSignedChar : Nat := 0x06
def ateUnsigned : Nat := 0x07
def ateUnsignedChar : Nat := 0x08
def ateUtf : Nat := 0x10

/-! ## Location operations -/

/-- Names of the operations other than the literal and register families. -/
def opNames : List (Nat × String) :=
  [(0x03, "addr"), (0x06, "deref"), (0x08, "const1u"), (0x09, "const1s"), (0x0a, "const2u"),
   (0x0b, "const2s"), (0x0c, "const4u"), (0x0d, "const4s"), (0x0e, "const8u"),
   (0x0f, "const8s"), (0x10, "constu"), (0x11, "consts"), (0x12, "dup"), (0x13, "drop"),
   (0x14, "over"), (0x15, "pick"), (0x16, "swap"), (0x17, "rot"), (0x18, "xderef"),
   (0x19, "abs"), (0x1a, "and"), (0x1b, "div"), (0x1c, "minus"), (0x1d, "mod"), (0x1e, "mul"),
   (0x1f, "neg"), (0x20, "not"), (0x21, "or"), (0x22, "plus"), (0x23, "plus_uconst"),
   (0x24, "shl"), (0x25, "shr"), (0x26, "shra"), (0x27, "xor"), (0x28, "bra"), (0x29, "eq"),
   (0x2a, "ge"), (0x2b, "gt"), (0x2c, "le"), (0x2d, "lt"), (0x2e, "ne"), (0x2f, "skip"),
   (0x90, "regx"), (0x91, "fbreg"), (0x92, "bregx"), (0x93, "piece"), (0x94, "deref_size"),
   (0x95, "xderef_size"), (0x96, "nop"), (0x97, "push_object_address"), (0x98, "call2"),
   (0x99, "call4"), (0x9a, "call_ref"), (0x9b, "form_tls_address"), (0x9c, "call_frame_cfa"),
   (0x9d, "bit_piece"), (0x9e, "implicit_value"), (0x9f, "stack_value"),
   (0xa0, "implicit_pointer"), (0xa1, "addrx"), (0xa2, "constx"), (0xa3, "entry_value"),
   (0xa4, "const_type"), (0xa5, "regval_type"), (0xa6, "deref_type"), (0xa7, "xderef_type"),
   (0xa8, "convert"), (0xa9, "reinterpret"), (0xe0, "GNU_push_tls_address"),
   (0xed, "WASM_location"),
   (0xf2, "GNU_implicit_pointer"), (0xf3, "GNU_entry_value"), (0xf4, "GNU_const_type"),
   (0xf5, "GNU_regval_type"), (0xf6, "GNU_deref_type"), (0xf7, "GNU_convert"),
   (0xf9, "GNU_reinterpret"), (0xfa, "GNU_parameter_ref"), (0xfb, "GNU_addr_index"),
   (0xfc, "GNU_const_index")]

/-- The name of an operation code, `DW_OP_...`; codes without one show as `Unknown DwOp: n`. -/
def opName (code : UInt8) : String :=
  let n := code.toNat
  if 0x30 ≤ n ∧ n ≤ 0x4f then "DW_OP_lit" ++ toString (n - 0x30)
  else if 0x50 ≤ n ∧ n ≤ 0x6f then "DW_OP_reg" ++ toString (n - 0x50)
  else if 0x70 ≤ n ∧ n ≤ 0x8f then "DW_OP_breg" ++ toString (n - 0x70)
  else match opNames.lookup n with
    | some s => "DW_OP_" ++ s
    | none => "Unknown DwOp: " ++ toString n

end RemoteDebugger.Dwarf
