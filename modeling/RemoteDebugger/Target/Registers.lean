import RemoteDebugger.Error

/-!
# Register file

An x86-64 register file indexed by DWARF register numbers, and its translation to and from the
stub's register layout.
-/

namespace RemoteDebugger

/-- DWARF number of `rbp`. -/
def dwarfRbp : Nat := 6
/-- DWARF number of `rsp`. -/
def dwarfRsp : Nat := 7
/-- DWARF number of `r15`, which holds the sandbox base. -/
def dwarfR15 : Nat := 15
/-- DWARF number of the return address column, `rip`. -/
def dwarfRip : Nat := 16
/-- DWARF number of `eflags`. -/
def dwarfEflags : Nat := 49

/-- A snapshot of a thread's registers. -/
structure Registers where
  /-- General registers by DWARF number 0 to 16. -/
  general : Vector UInt64 17 := Vector.replicate 17 0
  eflags : UInt32 := 0
  /-- Segment registers by DWARF number 50 to 55. -/
  segments : Vector UInt32 6 := Vector.replicate 6 0
  deriving DecidableEq, Repr

namespace Registers

/-- The stub's order of the general registers, as DWARF numbers. -/
def gdbOrder : List (Fin 17) := [0, 3, 2, 1, 4, 5, 6, 7, 8, 9, 10, 11, 12, 13, 14, 15, 16]

/-- The stub's order of the segment registers, as offsets from DWARF 50. -/
def gdbSegmentOrder : List (Fin 6) := [1, 2, 3, 0, 4, 5]

/-- Bytes of the general part of the stub's layout: seventeen words and `eflags`. -/
def gdbMinBytes : Nat := 17 * 8 + 4

/-- Bytes of the stub's full layout, segments included. -/
def gdbBytes : Nat := gdbMinBytes + 6 * 4

/-- The value of a register, or `none` for one outside the integer file. -/
def get (r : Registers) (n : Nat) : Option UInt64 :=
  if h : n < 17 then some r.general[n]
  else if n = dwarfEflags then some r.eflags.toUInt64
  else if h2 : 50 ≤ n ∧ n < 56 then
    have : n - 50 < 6 := by omega
    some r.segments[n - 50].toUInt64
  else none

/-- Write a register, keeping the low half for the 32-bit ones; `none` when untracked. -/
def set? (r : Registers) (n : Nat) (v : UInt64) : Option Registers :=
  if h : n < 17 then some { r with general := r.general.set n v }
  else if n = dwarfEflags then some { r with eflags := v.toUInt32 }
  else if h2 : 50 ≤ n ∧ n < 56 then some { r with segments := r.segments.set (n - 50) v.toUInt32 }
  else none

/-- Write a register; untracked numbers change nothing. -/
def set (r : Registers) (n : Nat) (v : UInt64) : Registers := (r.set? n v).getD r

/-- The instruction pointer. -/
def pc (r : Registers) : Address := r.general[16]

/-- The stack pointer. -/
def sp (r : Registers) : Address := r.general[7]

/-- The frame pointer. -/
def fp (r : Registers) : Address := r.general[6]

/-- Replace the instruction pointer. -/
def setPc (r : Registers) (a : Address) : Registers := { r with general := r.general.set 16 a }

/-- Every tracked register with its value, by ascending DWARF number. -/
def toList (r : Registers) : List (Nat × UInt64) :=
  (List.range 17).filterMap (fun n => (r.get n).map (n, ·)) ++
  (dwarfEflags, r.eflags.toUInt64) :: (List.range 6).map fun i => (50 + i, (r.get (50 + i)).getD 0)

/-- The little-endian bytes of a number, `width` of them. -/
def leBytes (width : Nat) (v : Nat) : List UInt8 :=
  (List.range width).map fun i => (v / Nat.pow 256 i % 256).toUInt8

/-- The number whose little-endian bytes are given. -/
def leValue (bytes : List UInt8) : Nat := bytes.foldr (fun b acc => b.toNat + 256 * acc) 0

/-- The stub's byte layout of a register file. -/
def toGdbBytes (r : Registers) : List UInt8 :=
  gdbOrder.flatMap (fun i => leBytes 8 r.general[i].toNat) ++ leBytes 4 r.eflags.toNat ++
    gdbSegmentOrder.flatMap (fun i => leBytes 4 r.segments[i].toNat)

/-- Consecutive pieces of `n` bytes; a short tail is dropped. -/
def chunks (n : Nat) (bytes : List UInt8) : List (List UInt8) :=
  if n = 0 then [] else
  if bytes.length < n then [] else bytes.take n :: chunks n (bytes.drop n)
termination_by bytes.length
decreasing_by simp only [List.length_drop]; omega

/-- Read the stub's layout. Fewer than `gdbMinBytes` bytes are refused; the segment
registers may be missing, and then read as zero. -/
def ofGdbBytes (bytes : List UInt8) : Except DebugError Registers :=
  if bytes.length < gdbMinBytes then
    .error (.registerAccess ("register reply has " ++ toString bytes.length ++
      " bytes, expected at least " ++ toString gdbMinBytes))
  else
    let words := (chunks 8 bytes).take 17
    let general := (gdbOrder.zip words).foldl
      (fun (g : Vector UInt64 17) (i, w) => g.set i (leValue w).toUInt64) (Vector.replicate 17 0)
    let small := chunks 4 (bytes.drop (17 * 8))
    let eflags := (small.head?.map fun w => (leValue w).toUInt32).getD 0
    let segments := (gdbSegmentOrder.zip (small.drop 1)).foldl
      (fun (s : Vector UInt32 6) (i, w) => s.set i (leValue w).toUInt32) (Vector.replicate 6 0)
    .ok { general, eflags, segments }

/-- The name of a DWARF register number, or `none` when untracked. -/
def name (n : Nat) : Option String :=
  let names := ["rax", "rdx", "rcx", "rbx", "rsi", "rdi", "rbp", "rsp", "r8", "r9", "r10",
    "r11", "r12", "r13", "r14", "r15", "rip"]
  let segmentNames := ["es", "cs", "ss", "ds", "fs", "gs"]
  if n < 17 then names[n]?
  else if n = dwarfEflags then some "eflags"
  else if 50 ≤ n ∧ n < 56 then segmentNames[n - 50]?
  else none

/-- Names and values in the stub's order, segments included. -/
def gdbListing (r : Registers) : List (String × UInt64) :=
  gdbOrder.map (fun i => ((name i.val).getD "", r.general[i])) ++
  ("eflags", r.eflags.toUInt64) ::
  gdbSegmentOrder.map (fun i => ((name (50 + i.val)).getD "", r.segments[i].toUInt64))

/-- One line per register: the name right-aligned in six columns, then the value as
`0x` and sixteen hex digits. -/
def render (r : Registers) : String :=
  String.join <| (gdbListing r).map fun (n, v) =>
    String.ofList (List.replicate (6 - n.length) ' ') ++ n ++ " " ++ Address.render v ++ "\n"

end Registers

end RemoteDebugger
