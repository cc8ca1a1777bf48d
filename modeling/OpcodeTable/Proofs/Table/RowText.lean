import Mathlib.Data.List.Nodup
import OpcodeTable.Proofs.Encoding.Grammar
import OpcodeTable.Proofs.Encoding.Packed
import OpcodeTable.Proofs.Order.Keys
import OpcodeTable.Proofs.Record
import OpcodeTable.Proofs.Table.LinkTarget
import OpcodeTable.Table.Printer

/-!
# What the line of a row tells

The fields of a line have no characters but those of names, so a line can be taken apart again, and it is
one line. Each field tells what was written into it.
-/

namespace OpcodeTable

namespace OperandType

/-- The constant of a type behind the mark that all constants have in front. -/
private def constantChars : OperandType → List Char
  | .one => "ONE".toList
  | type => type.name.toList.map Char.toUpper

private theorem toList_constantName (type : OperandType) :
    type.constantName.toList = "OP_".toList ++ type.constantChars := by
  unfold constantName constantChars
  split
  · rfl
  · simp [String.toUpper]

theorem constantName_injective : Function.Injective constantName := by
  have nodup : (all.map constantChars).Nodup := by decide +kernel
  intro first second same
  have sameChars := congrArg String.toList same
  rw [toList_constantName, toList_constantName, List.append_right_inj] at sameChars
  exact List.inj_on_of_nodup_map nodup (mem_all first) (mem_all second) sameChars

theorem all_isNameChar_constantName (type : OperandType) :
    type.constantName.toList.all Text.isNameChar = true := by
  have named : (all.all fun type => type.constantChars.all Text.isNameChar) = true := by decide +kernel
  rw [toList_constantName, List.all_append, List.all_eq_true.mp named type (mem_all type)]
  rfl

end OperandType

namespace Encoding

theorem all_isNameChar_scheme {text : String} {encoding : Encoding}
    (parsed : parse text = .ok encoding) : encoding.scheme.toList.all Text.isNameChar = true := by
  obtain ⟨tokens, accepted, described⟩ := parse_eq_ok_iff.mp parsed
  rw [described.scheme]
  cases given : lastGiven? Token.scheme? tokens with
  | some name =>
      obtain ⟨token, tokenMem, named⟩ := List.mem_filterMap.mp (List.mem_of_getLast? given)
      obtain ⟨word, spelled⟩ := exists_spelling accepted.spelled tokenMem
      cases spelled with
      | @scheme chars isName =>
          obtain rfl := Option.some.inj named
          simp only [Text.isName, Bool.and_eq_true] at isName
          apply Text.all_isNameChar_toUpper
          rw [String.toList_ofList]
          exact isName.2
      | _ => cases named
  | none =>
      cases lastGiven? Token.group? tokens with
      | none => decide
      | some group =>
          have familyChars : ∀ family : VectorFamily,
              family.name.toList.all Text.isNameChar = true := by
            intro family
            cases family <;> decide
          exact familyChars group.family

end Encoding

namespace TableRow

/-- The fields of the line of a row. -/
def fields (row : TableRow) : List String :=
  [row.variant.name, "ENC_" ++ row.variant.encoding.scheme,
    hexConstant 2 row.variant.encoding.prefixBits, "0x" ++ row.variant.encoding.opcodeHex,
    hexConstant 2 row.variant.encoding.flagBits, hexConstant 4 row.packedLink,
    "OPS_" ++ toString row.variant.operands.length] ++ row.variant.operands.map OperandType.constantName

theorem line_eq (row : TableRow) : row.line = "inst(" ++ ", ".intercalate row.fields ++ ")" :=
  rfl

/-- The name of the row is the name of an instruction text, its encoding was read from a text, and its
link fits into the row field of packed links. -/
structure IsWritable (row : TableRow) : Prop where
  named : ∃ text operands, InstructionRecord.splitText? text = some (row.variant.name, operands)
  encoded : ∃ text, Encoding.parse text = .ok row.variant.encoding
  linked : ∀ link, row.link = some link → link.row < 16384

theorem eq_name_or_all_isNameChar {row : TableRow}
    (schemeChars : row.variant.encoding.scheme.toList.all Text.isNameChar = true) :
    ∀ field ∈ row.fields, field = row.variant.name ∨ field.toList.all Text.isNameChar = true := by
  have marked {mark text : String} (markChars : mark.toList.all Text.isNameChar = true)
      (textChars : text.toList.all Text.isNameChar = true) :
      (mark ++ text).toList.all Text.isNameChar = true := by
    rw [String.toList_append, List.all_append, markChars, textChars]
    rfl
  have hexChars (width value : Nat) : (hexConstant width value).toList.all Text.isNameChar = true := by
    apply marked (by decide)
    rw [String.toList_ofList]
    exact Text.all_isNameChar_hexFixed width value
  have opcodeChars : row.variant.encoding.opcodeHex.toList.all Text.isNameChar = true := by
    rw [Encoding.opcodeHex, String.toList_ofList]
    exact Text.all_isNameChar_hexBytes _
  intro field fieldMem
  simp only [fields, List.cons_append, List.nil_append, List.mem_cons, List.mem_map] at fieldMem
  apply fieldMem.imp_right
  rintro (rfl | rfl | rfl | rfl | rfl | rfl | ⟨type, _, rfl⟩)
  · exact marked (by decide) schemeChars
  · exact hexChars _ _
  · exact marked (by decide) opcodeChars
  · exact hexChars _ _
  · exact hexChars _ _
  · exact marked (by decide) (Text.all_isNameChar_toString _)
  · exact type.all_isNameChar_constantName

theorem mem_line {row : TableRow} {c : Char} (charMem : c ∈ row.line.toList) :
    c ∈ "inst(, )".toList ∨ ∃ field ∈ row.fields, c ∈ field.toList := by
  rw [line_eq, String.toList_append, String.toList_append, String.toList_intercalate, List.mem_append,
    List.mem_append] at charMem
  rcases charMem with (opening | inside) | closing
  · exact .inl (List.mem_append_left _ opening)
  · rcases Text.mem_intercalate inside with between | ⟨chars, charsMem, inField⟩
    · exact .inl (List.mem_append_right "inst(".toList (List.mem_append_left _ between))
    · obtain ⟨field, fieldMem, rfl⟩ := List.mem_map.mp charsMem
      exact .inr ⟨field, fieldMem, inField⟩
  · exact .inl (List.mem_append_right "inst(, ".toList closing)

/-- The rows agree in all that a line is meant to tell. -/
structure Agree (first second : TableRow) : Prop where
  name_eq : first.variant.name = second.variant.name
  scheme_eq : first.variant.encoding.scheme = second.variant.encoding.scheme
  prefixBits_eq : first.variant.encoding.prefixBits = second.variant.encoding.prefixBits
  fullOpcode_eq : first.variant.encoding.fullOpcode = second.variant.encoding.fullOpcode
  rexW_eq : first.variant.encoding.rexW = second.variant.encoding.rexW
  modRM_eq : first.variant.encoding.modRM = second.variant.encoding.modRM
  fold_eq : first.variant.encoding.fold = second.variant.encoding.fold
  isWide_eq : first.variant.encoding.isWide = second.variant.encoding.isWide
  link_eq : first.link = second.link
  operands_eq : first.variant.operands = second.variant.operands

private theorem hexConstant_inj {width value other : Nat} (bounded : value < 16 ^ width)
    (otherBounded : other < 16 ^ width) (same : hexConstant width value = hexConstant width other) :
    value = other := by
  have digitsEq := congrArg String.toList ((String.append_right_inj _).mp same)
  rw [String.toList_ofList, String.toList_ofList] at digitsEq
  exact Text.hexFixed_inj bounded otherBounded digitsEq

theorem packedLink_lt (row : TableRow) : row.packedLink < 16 ^ 4 := by
  rw [packedLink, Link.packOption]
  cases row.link with
  | none => decide
  | some link => exact link.pack_lt_absent.trans (by decide)

theorem agree_of_fields_eq {first second : TableRow}
    (firstFits : ∀ link, first.link = some link → link.row < Link.rowSpan)
    (secondFits : ∀ link, second.link = some link → link.row < Link.rowSpan)
    (same : first.fields = second.fields) : first.Agree second := by
  simp only [fields, List.cons_append, List.nil_append, List.cons.injEq] at same
  obtain ⟨nameEq, schemeEq, prefixEq, opcodeEq, flagEq, linkEq, _, operandsEq⟩ := same
  have opcodeDigits := congrArg String.toList ((String.append_right_inj _).mp opcodeEq)
  rw [Encoding.opcodeHex, Encoding.opcodeHex, String.toList_ofList, String.toList_ofList] at opcodeDigits
  have flagsEq : first.variant.encoding.flagBits = second.variant.encoding.flagBits :=
    hexConstant_inj (Encoding.flagBits_lt _) (Encoding.flagBits_lt _) flagEq
  obtain ⟨rexWEq, modRMEq, foldEq, isWideEq⟩ := Encoding.flagBits_inj flagsEq
  have packedEq : first.packedLink = second.packedLink :=
    hexConstant_inj first.packedLink_lt second.packedLink_lt linkEq
  exact
    { name_eq := nameEq
      scheme_eq := (String.append_right_inj _).mp schemeEq
      prefixBits_eq := hexConstant_inj (packPrefixes_lt _) (packPrefixes_lt _) prefixEq
      fullOpcode_eq := Text.hexBytes_injective opcodeDigits
      rexW_eq := rexWEq
      modRM_eq := modRMEq
      fold_eq := foldEq
      isWide_eq := isWideEq
      link_eq := by
        have unpackedEq := congrArg Link.unpack? packedEq
        rwa [packedLink, packedLink, Link.unpack?_packOption firstFits,
          Link.unpack?_packOption secondFits] at unpackedEq
      operands_eq := List.map_injective_iff.mpr OperandType.constantName_injective operandsEq }

theorem IsWritable.all_isNameChar {row : TableRow} (writable : row.IsWritable) :
    ∀ field ∈ row.fields, field.toList.all Text.isNameChar = true := by
  obtain ⟨_, _, split⟩ := writable.named
  obtain ⟨_, parsed⟩ := writable.encoded
  intro field fieldMem
  rcases eq_name_or_all_isNameChar (Encoding.all_isNameChar_scheme parsed) field fieldMem with rfl | named
  · exact InstructionRecord.all_isNameChar_name split
  · exact named

theorem fields_eq_of_line_eq {first second : TableRow} (firstWritable : first.IsWritable)
    (secondWritable : second.IsWritable) (same : first.line = second.line) :
    first.fields = second.fields := by
  rw [line_eq, line_eq, String.append_left_inj, String.append_right_inj] at same
  apply Text.join_comma_inj (List.cons_ne_nil _ _) (List.cons_ne_nil _ _) _ _ same
  · exact fun field fieldMem =>
      Text.comma_not_mem_of_all_isNameChar (firstWritable.all_isNameChar field fieldMem)
  · exact fun field fieldMem =>
      Text.comma_not_mem_of_all_isNameChar (secondWritable.all_isNameChar field fieldMem)

theorem printable_of_mem_line {row : TableRow} (writable : row.IsWritable) {c : Char}
    (charMem : c ∈ row.line.toList) : ' ' ≤ c ∧ c ≤ '~' := by
  rcases mem_line charMem with isMark | ⟨field, fieldMem, inField⟩
  · have marksPrintable : ("inst(, )".toList.all fun c => ' ' ≤ c ∧ c ≤ '~') = true := by decide
    exact of_decide_eq_true (List.all_eq_true.mp marksPrintable c isMark)
  · have named := List.all_eq_true.mp (writable.all_isNameChar field fieldMem) c inField
    obtain ⟨lower, upper⟩ := Text.isNameChar_bounds named
    exact ⟨Nat.le_trans (by decide) lower, Nat.le_trans upper (by decide)⟩

end TableRow

/-- No two segment overrides are among the prefixes of the encoding, and no two lock or repeat prefixes;
the prefix that a vector group stands in for counts. -/
structure Encoding.HasSinglePrefixes (encoding : Encoding) : Prop where
  segment : SingleCode PrefixByte.segmentCode? encoding.allPrefixes
  repetition : SingleCode PrefixByte.repeatCode? encoding.allPrefixes

/-- The line of a row tells its name, scheme, prefix byte, opcode, use of the REX and ModRM bytes, fold, W
bit, link and operand types. It also tells which prefixes there are, if no two of them claim the same
bits. All its characters are printable, so it is one line. -/
theorem TableRow.line_tells {first second : TableRow} (firstWritable : first.IsWritable)
    (secondWritable : second.IsWritable) :
    (first.line = second.line →
      first.Agree second ∧
        (first.variant.encoding.HasSinglePrefixes → second.variant.encoding.HasSinglePrefixes →
          ∀ byte, byte ∈ first.variant.encoding.allPrefixes ↔
            byte ∈ second.variant.encoding.allPrefixes)) ∧
    ∀ c ∈ first.line.toList, ' ' ≤ c ∧ c ≤ '~' := by
  refine ⟨?_, fun c charMem => printable_of_mem_line firstWritable charMem⟩
  intro same
  have fieldsEq := fields_eq_of_line_eq firstWritable secondWritable same
  have agree := agree_of_fields_eq firstWritable.linked secondWritable.linked fieldsEq
  refine ⟨agree, ?_⟩
  intro firstSingle secondSingle byte
  exact mem_iff_of_packPrefixes_eq firstSingle.segment secondSingle.segment firstSingle.repetition
    secondSingle.repetition agree.prefixBits_eq byte

/-- A row with a vector group of the given length, which its line does not tell. -/
def lengthTwin (length : GroupLength) : TableRow where
  variant :=
    { name := "vmovss"
      operands := [.vector .xmm none, .memory .m32]
      encoding :=
        { scheme := "VEX", prefixes := .empty, opcode := [0x10], rexW := false
          vector := some ⟨.vex, length, .map0F, some .rep, .one⟩
          modRM := some .register, fold := none, immediates := [] } }
  link := some ⟨.narrowImmediate, 16383⟩

theorem TableRow.line_tells_lengthTwin :
    lengthTwin .bits128 ≠ lengthTwin .bits256 ∧
      (lengthTwin .bits128).Agree (lengthTwin .bits256) ∧
      PrefixByte.rep ∈ (lengthTwin .bits256).variant.encoding.allPrefixes ∧
      '\n' ∉ (lengthTwin .bits128).line.toList := by
  have split : InstructionRecord.splitText? "VMOVSS" = some ("vmovss", "") := by decide +kernel
  have twinWritable (length : GroupLength) (text : String)
      (parsed : Encoding.parse text = .ok (lengthTwin length).variant.encoding) :
      (lengthTwin length).IsWritable :=
    { named := ⟨_, _, split⟩
      encoded := ⟨text, parsed⟩
      linked := by
        rintro link ⟨⟩
        decide }
  have twinSingle (length : GroupLength) : (lengthTwin length).variant.encoding.HasSinglePrefixes :=
    ⟨by simp [SingleCode, lengthTwin, Encoding.allPrefixes, PrefixSet.empty],
      by simp [SingleCode, lengthTwin, Encoding.allPrefixes, PrefixSet.empty]⟩
  have first := twinWritable .bits128 "VEX.128.F3.0F.W1 10 /r" (by decide +kernel)
  have second := twinWritable .bits256 "VEX.256.F3.0F.W1 10 /r" (by decide +kernel)
  obtain ⟨tells, printable⟩ := TableRow.line_tells first second
  obtain ⟨agree, samePrefixes⟩ := tells rfl
  refine ⟨by decide, agree, ?_, fun lineFeed => absurd (printable _ lineFeed) (by decide)⟩
  exact (samePrefixes (twinSingle _) (twinSingle _) .rep).mp (by decide)

end OpcodeTable
