import OpcodeTable.Options.Name
import OpcodeTable.Text.Words
import OpcodeTable.Variant.Basic

/-!
# Catalogues of operand values

Each operand type has a short list of values to test it with. A class of registers is tested with one
low register and one that needs an extension bit; an immediate with zero, one and the bounds of every
width up to its own; a memory form with every shape of address.
-/

namespace OpcodeTable

/-- The word that gives the size of a memory operand in a dialect, where there is one. -/
def Dialect.sizeWord? : Dialect → Nat → Option String
  | .nasm, 8 => some "byte"
  | .nasm, 16 => some "word"
  | .nasm, 32 => some "dword"
  | .nasm, 64 => some "qword"
  | .nasm, 80 => some "tword"
  | .nasm, 128 => some "oword"
  | .nasm, 256 => some "yword"
  | .nasm, 512 => some "zword"
  | .gas, 8 => some "BYTE PTR"
  | .gas, 16 => some "WORD PTR"
  | .gas, 32 => some "DWORD PTR"
  | .gas, 64 => some "QWORD PTR"
  | .gas, 80 => some "TBYTE PTR"
  | .gas, 128 => some "XMMWORD PTR"
  | .gas, 256 => some "YMMWORD PTR"
  | .gas, 512 => some "ZMMWORD PTR"
  | _, _ => none

namespace Catalogue

/-- An address with the word for its size in front, where there is one. -/
def sized (dialect : Dialect) (bits : Option Nat) (address : String) : String :=
  match bits.bind dialect.sizeWord? with
  | none => address
  | some word => word ++ " " ++ address

/-- The values of a general register. -/
def general : Width → List String
  | .byte => ["bl", "r10b"]
  | .word => ["cx", "r11w"]
  | .dword => ["ecx", "r11d"]
  | .qword => ["rdx", "r12"]

/-- The values of a vector register without mask. -/
def vector : VectorLength → List String
  | .xmm => ["xmm2", "xmm13"]
  | .ymm => ["ymm3", "ymm12"]
  | .zmm => ["zmm1", "zmm29"]

/-- The mask that a register carries, as text. -/
def maskSuffix (mask : String) : Masking → String
  | .merge => Text.braced mask
  | .zero => Text.braced mask ++ Text.braced "z"

/-- The values of a vector register that carries a mask. -/
def maskedVector (length : VectorLength) (masking : Masking) : List String :=
  (vector length).zipWith (fun register mask => register ++ maskSuffix mask masking) ["k1", "k7"]

/-- The largest and the smallest signed number of a width. -/
def bounds : Width → List Int
  | .byte => [127, -128]
  | .word => [32767, -32768]
  | .dword => [2147483647, -2147483648]
  | .qword => [9223372036854775807, -9223372036854775808]

/-- The values of an immediate: zero, one, and the bounds of its width and of each narrower one. -/
def immediate (width : Width) : List String :=
  let widths := [Width.qword, .dword, .word, .byte].filter fun other => other.bits ≤ width.bits
  ([0, 1] ++ widths.flatMap bounds).map fun (value : Int) => toString value

/-- Addresses through one set of registers. -/
def registerAddresses (indirect base indexBase index : String) : List String :=
  ["[" ++ indirect ++ "]", "[" ++ base ++ "+0x40]", "[" ++ indexBase ++ "+" ++ index ++ "+0x10]"] ++
    ["2", "4", "8"].map fun scale => "[" ++ base ++ "+" ++ index ++ "*" ++ scale ++ "+0x80]"

/-- Every shape of address, with low registers and then with extended ones. -/
def addresses (dialect : Dialect) : List String :=
  let relative :=
    match dialect with
    | .nasm => "[rel 0x10]"
    | .gas => "[rip+0x10]"
  ["[0x1000]", relative] ++ registerAddresses "rax" "rbx" "rsi" "rdi" ++
    registerAddresses "r9" "r13" "r10" "r14"

/-- The length that a broadcast fills: that of the vector group, else of the widest vector operand. -/
def broadcastLength (variant : Variant) : Nat :=
  match variant.encoding.vector.bind fun group => group.length.bits? with
  | some bits => bits
  | none => ((variant.operands.filterMap OperandType.vectorBits?).max?).getD 128

/-- The values of a broadcast: an address and how often its element is repeated. -/
def broadcast (dialect : Dialect) (variant : Variant) (element : ElementWidth) : List String :=
  let count := max (broadcastLength variant / element.bits) 1
  ["[rax]", "[r9+0x40]"].map fun address =>
    sized dialect (some element.bits) (address ++ Text.braced ("1to" ++ toString count))

/-- The name of vector registers of a length, without number. -/
def vectorStem : VectorLength → String
  | .xmm => "xmm"
  | .ymm => "ymm"
  | .zmm => "zmm"

def indexBits : IndexWidth → Nat
  | .i32 => 32
  | .i64 => 64

/-- The values of a memory operand with a vector of indices. -/
def vectorIndexed (dialect : Dialect) (index : IndexWidth) (length : VectorLength) : List String :=
  let scale := toString (indexBits index / 8)
  let shapes :=
    ["[rax+" ++ vectorStem length ++ "1*" ++ scale ++ "+0x10]",
      "[r9+" ++ vectorStem length ++ "14*" ++ scale ++ "]"]
  match dialect with
  | .nasm => shapes
  | .gas => shapes.map (sized dialect (some (indexBits index)))

/-- The values of an absolute offset. -/
def offset (dialect : Dialect) (width : Width) : List String :=
  ["0x1122334455667788", "0x10"].map fun address =>
    let text :=
      match dialect with
      | .nasm => "[qword " ++ address ++ "]"
      | .gas => "ds:" ++ address
    sized dialect (some width.bits) text

/-- The values of a register that the instruction fixes. -/
def fixed (dialect : Dialect) : FixedRegister → List String
  | .al => ["al"]
  | .cl => ["cl"]
  | .ax => ["ax"]
  | .dx => ["dx"]
  | .eax => ["eax"]
  | .rax => ["rax"]
  | .st0 =>
      match dialect with
      | .nasm => ["st0"]
      | .gas => ["st(0)"]
  | .fs => ["fs"]
  | .gs => ["gs"]

/-- The values of a branch distance. -/
def relative : Dialect → Reach → List String
  | .nasm, .near => ["short $+0x10", "short $-0x10"]
  | .gas, .near => [".+0x10", ".-0x10"]
  | .nasm, .far => ["near $+0x1000", "near $-0x1000"]
  | .gas, .far => [".+0x1000", ".-0x1000"]

/-- The values to test an operand of a variant with. -/
def values (dialect : Dialect) (variant : Variant) : OperandType → List String
  | .fixed register => fixed dialect register
  | .general width => general width
  | .stack =>
      match dialect with
      | .nasm => ["st1", "st7"]
      | .gas => ["st(1)", "st(7)"]
  | .one => ["1"]
  | .immediate width => immediate width
  | .segment => ["ds", "es"]
  | .control => ["cr0", "cr8"]
  | .debug => ["dr0", "dr7"]
  | .memory size => (addresses dialect).map (sized dialect size.bits?)
  | .broadcast element => broadcast dialect variant element
  | .vectorIndexed index length => vectorIndexed dialect index length
  | .mmx => ["mm1", "mm6"]
  | .vector length none => vector length
  | .vector length (some masking) => maskedVector length masking
  | .mask => ["k1", "k6"]
  | .maskedMask => ["k2" ++ maskSuffix "k1" .merge, "k5" ++ maskSuffix "k7" .merge]
  | .relative reach => relative dialect reach
  | .offset width => offset dialect width

end Catalogue

end OpcodeTable
