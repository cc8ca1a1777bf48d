import OpcodeTable.Operand.Basic

/-!
# Names of operand types

Each type has one canonical name, and a constant name made from it for table rows. Operand texts may
also use other spellings in either letter case.
-/

namespace OpcodeTable.OperandType

/-- The canonical name of a type. -/
def name : OperandType → String
  | .fixed .al => "al"
  | .fixed .cl => "cl"
  | .fixed .ax => "ax"
  | .fixed .dx => "dx"
  | .fixed .eax => "eax"
  | .fixed .rax => "rax"
  | .fixed .st0 => "st0"
  | .fixed .fs => "fs"
  | .fixed .gs => "gs"
  | .general .byte => "r8"
  | .general .word => "r16"
  | .general .dword => "r32"
  | .general .qword => "r64"
  | .stack => "st"
  | .one => "1"
  | .immediate .byte => "i8"
  | .immediate .word => "i16"
  | .immediate .dword => "i32"
  | .immediate .qword => "i64"
  | .segment => "sreg"
  | .control => "creg"
  | .debug => "dreg"
  | .memory .m8 => "m8"
  | .memory .m16 => "m16"
  | .memory .m32 => "m32"
  | .memory .m64 => "m64"
  | .memory .m80 => "m80"
  | .memory .m128 => "m128"
  | .memory .m256 => "m256"
  | .memory .m512 => "m512"
  | .memory .unsized => "mem"
  | .broadcast .e16 => "m16bcst"
  | .broadcast .e32 => "m32bcst"
  | .broadcast .e64 => "m64bcst"
  | .vectorIndexed .i32 .xmm => "vm32x"
  | .vectorIndexed .i32 .ymm => "vm32y"
  | .vectorIndexed .i32 .zmm => "vm32z"
  | .vectorIndexed .i64 .xmm => "vm64x"
  | .vectorIndexed .i64 .ymm => "vm64y"
  | .vectorIndexed .i64 .zmm => "vm64z"
  | .mmx => "mmx"
  | .vector .xmm none => "xmm"
  | .vector .xmm (some .merge) => "xmm_k"
  | .vector .xmm (some .zero) => "xmm_kz"
  | .vector .ymm none => "ymm"
  | .vector .ymm (some .merge) => "ymm_k"
  | .vector .ymm (some .zero) => "ymm_kz"
  | .vector .zmm none => "zmm"
  | .vector .zmm (some .merge) => "zmm_k"
  | .vector .zmm (some .zero) => "zmm_kz"
  | .mask => "k"
  | .maskedMask => "k_k"
  | .relative .near => "rel8"
  | .relative .far => "rel32"
  | .offset .byte => "moff8"
  | .offset .word => "moff16"
  | .offset .dword => "moff32"
  | .offset .qword => "moff64"

/-- The constant that stands for a type in a table row: its name in upper case behind `OP_`. The
name of the constant one is not a word, so it is spelled out. -/
def constantName : OperandType → String
  | .one => "OP_ONE"
  | type => "OP_" ++ type.name.toUpper

/-- The type with this canonical name. -/
def ofName? (name : String) : Option OperandType :=
  all.find? fun type => type.name == name

/-- The canonical name behind a lower-case spelling. -/
def canonicalName (spelling : String) : String :=
  match spelling with
  | "ib" | "ub" | "u8" | "imm8" => "i8"
  | "iw" | "uw" | "u16" | "imm16" => "i16"
  | "id" | "ud" | "u32" | "imm32" => "i32"
  | "iq" | "uq" | "u64" | "imm64" => "i64"
  | "mm" => "mmx"
  | "st(0)" => "st0"
  | "st(i)" => "st"
  | "m16int" => "m16"
  | "m32fp" | "m32int" => "m32"
  | "m64fp" | "m64int" => "m64"
  | "m80fp" | "m80bcd" | "m80dec" => "m80"
  | "b16" => "m16bcst"
  | "b32" => "m32bcst"
  | "b64" => "m64bcst"
  | "moffs8" => "moff8"
  | "moffs16" => "moff16"
  | "moffs32" => "moff32"
  | "moffs64" => "moff64"
  | other => other

/-- The type that a word of an operand text names, in any spelling and letter case. -/
def ofSpelling? (word : String) : Option OperandType :=
  ofName? (canonicalName word.toLower)

end OpcodeTable.OperandType
