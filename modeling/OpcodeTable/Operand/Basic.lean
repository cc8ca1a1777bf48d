/-!
# Operand types

Every operand of a table row has one of 58 types. A type is a register that the instruction fixes, a
class of registers, an immediate of some width, a memory form, a vector register that may carry a
mask, a branch distance or an absolute offset.

The types have one fixed order, which lays out the rows of one instruction name: general registers
by width, immediates, segment and system registers, memory forms, vector and mask registers, and
last the distances and offsets.
-/

namespace OpcodeTable

/-- The four widths of general registers, immediates and offsets. -/
inductive Width where
  | byte | word | dword | qword
deriving DecidableEq, Hashable, Repr

def Width.ascending : List Width :=
  [.byte, .word, .dword, .qword]

def Width.bits : Width → Nat
  | .byte => 8
  | .word => 16
  | .dword => 32
  | .qword => 64

/-- The three lengths of vector registers with mask support. -/
inductive VectorLength where
  | xmm | ymm | zmm
deriving DecidableEq, Hashable, Repr

def VectorLength.ascending : List VectorLength :=
  [.xmm, .ymm, .zmm]

def VectorLength.bits : VectorLength → Nat
  | .xmm => 128
  | .ymm => 256
  | .zmm => 512

/-- How lanes that the mask switches off are treated: kept, or set to zero. -/
inductive Masking where
  | merge | zero
deriving DecidableEq, Hashable, Repr

/-- Registers that an instruction can name outright. -/
inductive FixedRegister where
  | al | cl | ax | dx | eax | rax | st0 | fs | gs
deriving DecidableEq, Hashable, Repr

/-- The general registers of a width that an instruction can name outright. -/
def Width.fixedRegisters : Width → List FixedRegister
  | .byte => [.al, .cl]
  | .word => [.ax, .dx]
  | .dword => [.eax]
  | .qword => [.rax]

/-- The size of a plain memory operand, which an instruction may leave open. -/
inductive MemorySize where
  | m8 | m16 | m32 | m64 | m80 | m128 | m256 | m512
  | unsized
deriving DecidableEq, Hashable, Repr

/-- Size in bits, where there is one. -/
def MemorySize.bits? : MemorySize → Option Nat
  | .m8 => some 8
  | .m16 => some 16
  | .m32 => some 32
  | .m64 => some 64
  | .m80 => some 80
  | .m128 => some 128
  | .m256 => some 256
  | .m512 => some 512
  | .unsized => none

/-- The width of the one element that a broadcast reads. -/
inductive ElementWidth where
  | e16 | e32 | e64
deriving DecidableEq, Hashable, Repr

def ElementWidth.bits : ElementWidth → Nat
  | .e16 => 16
  | .e32 => 32
  | .e64 => 64

/-- The width of one index of a vector-indexed memory operand. -/
inductive IndexWidth where
  | i32 | i64
deriving DecidableEq, Hashable, Repr

/-- How far a relative branch can reach. -/
inductive Reach where
  | near | far
deriving DecidableEq, Hashable, Repr

/-- A type of operands. A vector register comes with the mask it carries, and a masked mask register is
itself written under a mask. -/
inductive OperandType where
  | fixed (register : FixedRegister)
  | general (width : Width)
  | stack
  | one
  | immediate (width : Width)
  | segment
  | control
  | debug
  | memory (size : MemorySize)
  | broadcast (element : ElementWidth)
  | vectorIndexed (index : IndexWidth) (length : VectorLength)
  | mmx
  | vector (length : VectorLength) (masking : Option Masking)
  | mask
  | maskedMask
  | relative (reach : Reach)
  | offset (width : Width)
deriving DecidableEq, Hashable, Repr

namespace OperandType

/-- Every operand type, each once, in the fixed order. -/
def all : List OperandType :=
  [.fixed .al, .fixed .cl, .general .byte, .fixed .ax, .fixed .dx, .general .word,
    .fixed .eax, .general .dword, .fixed .rax, .general .qword, .fixed .st0, .stack,
    .one, .immediate .byte, .immediate .word, .immediate .dword, .immediate .qword,
    .segment, .fixed .fs, .fixed .gs, .control, .debug,
    .memory .m8, .memory .m16, .memory .m32, .memory .m64, .memory .m80, .memory .m128,
    .memory .m256, .memory .m512, .memory .unsized,
    .broadcast .e16, .broadcast .e32, .broadcast .e64,
    .vectorIndexed .i32 .xmm, .vectorIndexed .i32 .ymm, .vectorIndexed .i32 .zmm,
    .vectorIndexed .i64 .xmm, .vectorIndexed .i64 .ymm, .vectorIndexed .i64 .zmm,
    .mmx, .vector .xmm none, .vector .xmm (some .merge), .vector .xmm (some .zero),
    .vector .ymm none, .vector .ymm (some .merge), .vector .ymm (some .zero),
    .vector .zmm none, .vector .zmm (some .merge), .vector .zmm (some .zero),
    .mask, .maskedMask, .relative .near, .relative .far,
    .offset .byte, .offset .word, .offset .dword, .offset .qword]

/-- The families of types in the order that lays out table rows. Inside a family the width ascends, and
fixed registers come before the class of their width. -/
def families : List (List OperandType) :=
  [Width.ascending.flatMap fun width => width.fixedRegisters.map fixed ++ [general width],
    [fixed .st0, stack],
    one :: Width.ascending.map immediate,
    [segment, fixed .fs, fixed .gs, control, debug],
    [.m8, .m16, .m32, .m64, .m80, .m128, .m256, .m512, .unsized].map memory,
    [.e16, .e32, .e64].map broadcast,
    [.i32, .i64].flatMap fun index => VectorLength.ascending.map (vectorIndexed index),
    mmx :: VectorLength.ascending.flatMap fun length =>
      [none, some .merge, some .zero].map (vector length),
    [mask, maskedMask],
    [.near, .far].map relative,
    Width.ascending.map offset]

/-- The order that lays out table rows. -/
def rankOrder : List OperandType :=
  families.flatten

/-- Position of a type in the row order, if it has one. -/
def rank? (type : OperandType) : Option Nat :=
  rankOrder.idxOf? type

/-- Position of a type among all types. -/
def index (type : OperandType) : Nat :=
  all.idxOf type

/-- The operand is read from or written to memory through an address. -/
def isMemory : OperandType → Bool
  | .memory _ => true
  | .broadcast _ => true
  | .vectorIndexed _ _ => true
  | _ => false

/-- Width of an immediate; the constant one counts as a byte. -/
def immediateBits? : OperandType → Option Nat
  | .one => some 8
  | .immediate width => some width.bits
  | _ => none

/-- The operand is part of the instruction's own bytes. -/
def isImmediate (type : OperandType) : Bool :=
  type.immediateBits?.isSome

/-- Number of bits that a memory form or an offset gives access to. -/
def memoryBits? : OperandType → Option Nat
  | .memory size => size.bits?
  | .broadcast element => some element.bits
  | .offset width => some width.bits
  | _ => none

/-- Width of the element that a broadcast repeats. -/
def broadcastBits? : OperandType → Option Nat
  | .broadcast element => some element.bits
  | _ => none

/-- Width of a vector register, masked or not. -/
def vectorBits? : OperandType → Option Nat
  | .mmx => some 64
  | .vector length _ => some length.bits
  | _ => none

/-- The type that a mask suffix makes of a type. A memory form takes every suffix and stays what it
is; an unmasked vector register takes either; a mask register only merges. -/
def withMask? (type : OperandType) (masking : Masking) : Option OperandType :=
  if type.isMemory then
    some type
  else
    match type, masking with
    | .vector length none, masking => some (.vector length (some masking))
    | .mask, .merge => some .maskedMask
    | _, _ => none

end OperandType

end OpcodeTable
