import Mathlib.Data.List.Forall2
import OpcodeTable.Proofs.Table.Record
import OpcodeTable.Proofs.Table.RowText

/-!
# Records and lines

The lines of a table and its records are written from the same rows on two ways: a line packs what a record
spells out. Packing the texts of a record by tables of their own gives the fields of the line again, up to
the W bit of the vector group and the link, which records leave out.
-/

namespace OpcodeTable

namespace RowRecord

def segmentCodes : List (String × Nat) :=
  [("26", 1), ("2E", 2), ("36", 3), ("3E", 4), ("64", 5), ("65", 6)]

def repeatCodes : List (String × Nat) :=
  [("F0", 1), ("F2", 2), ("F3", 3)]

def modRMCodes : List (String × Nat) :=
  [("0", 1), ("1", 2), ("2", 3), ("3", 4), ("4", 5), ("5", 6), ("6", 7), ("7", 8), ("r", 9), ("is4", 10)]

def foldCodes : List (String × Nat) :=
  [("r", 0x20), ("i", 0xA0)]

/-- The prefix byte that the listed prefixes pack to, where the first of several numbers counts. -/
def prefixBits (record : RowRecord) : Nat :=
  (if "67" ∈ record.prefixes then 0x80 else 0) + (if "66" ∈ record.prefixes then 0x40 else 0) +
    (record.prefixes.findSome? fun text => segmentCodes.lookup text).getD 0 * 4 +
    (record.prefixes.findSome? fun text => repeatCodes.lookup text).getD 0

/-- The flag byte that the texts pack to, without the W bit of the vector group. -/
def flagBits (record : RowRecord) : Nat :=
  (if record.rexW then 0x01 else 0) + (modRMCodes.lookup record.modRM).getD 0 * 2 +
    (foldCodes.lookup record.fold).getD 0

/-- The constant for the name of an operand type. -/
def operandConstant (name : String) : String :=
  if name = "1" then "OP_ONE" else "OP_" ++ name.toUpper

/-- The fields of a line that has this record, for a flag byte and a packed link. -/
def lineFields (record : RowRecord) (flags link : Nat) : List String :=
  [record.name, "ENC_" ++ record.scheme, hexConstant 2 record.prefixBits, "0x" ++ record.opcode,
    hexConstant 2 flags, hexConstant 4 link, "OPS_" ++ toString record.operands.length] ++
    record.operands.map operandConstant

/-- The line has the fields of the record. Its flag byte is that of the record once bit 6, the W bit of the
vector group, is cleared. -/
def Describes (record : RowRecord) (line : String) : Prop :=
  ∃ flags link, flags < 256 ∧ link < 65536 ∧ flags &&& 0xBF = record.flagBits ∧
    line = "inst(" ++ ", ".intercalate (record.lineFields flags link) ++ ")"

section Prefixes

private def prefixText (byte : PrefixByte) : String :=
  String.ofList (Text.hexByte byte.byte)

private theorem lookup_segmentCodes (byte : PrefixByte) :
    segmentCodes.lookup (prefixText byte) = byte.segmentCode? := by
  cases byte <;> decide

private theorem lookup_repeatCodes (byte : PrefixByte) :
    repeatCodes.lookup (prefixText byte) = byte.repeatCode? := by
  cases byte <;> decide

private theorem mem_prefixTexts (prefixes : List PrefixByte) (byte : PrefixByte) :
    prefixText byte ∈ prefixes.map prefixText ↔ prefixes.contains byte = true := by
  have injective : Function.Injective prefixText := by
    intro first second same
    have sameByte := Text.hexByte_injective (String.ofList_injective same)
    cases first <;> cases second <;> first | rfl | exact absurd sameByte (by decide)
  rw [List.contains_iff_mem]
  exact List.mem_map_of_injective injective

theorem prefixBits_ofVariant (variant : Variant) :
    (ofVariant variant).prefixBits = variant.encoding.prefixBits := by
  have textsEq : (ofVariant variant).prefixes = variant.encoding.allPrefixes.map prefixText := rfl
  have addressText : "67" = prefixText .addressSize := by decide
  have operandText : "66" = prefixText .operandSize := by decide
  have segmentsEq : (fun text => segmentCodes.lookup text) ∘ prefixText = PrefixByte.segmentCode? :=
    funext lookup_segmentCodes
  have repeatsEq : (fun text => repeatCodes.lookup text) ∘ prefixText = PrefixByte.repeatCode? :=
    funext lookup_repeatCodes
  rw [prefixBits, textsEq, List.findSome?_map, List.findSome?_map, segmentsEq, repeatsEq, addressText,
    operandText]
  simp only [mem_prefixTexts]
  rfl

end Prefixes

section Flags

theorem lookup_modRMCodes (use : Option ModRM) :
    (modRMCodes.lookup ((use.map ModRM.name).getD "")).getD 0 = (use.map ModRM.code).getD 0 := by
  rcases use with _ | value | _ | _
  · rfl
  · revert value
    decide +kernel
  · rfl
  · rfl

theorem lookup_foldCodes (fold : Option Fold) :
    (foldCodes.lookup ((fold.map Fold.name).getD "")).getD 0 =
      (if fold.isSome then 0x20 else 0) + if fold == some .stack then 0x80 else 0 := by
  rcases fold with _ | _ | _ <;> rfl

/-- Clearing bit 6 drops the W bit and nothing else. -/
private theorem clear_wide : ∀ low < 64, ∀ wide stack : Bool,
    (low + (if wide then 0x40 else 0) + if stack then 0x80 else 0) &&& 0xBF =
      low + if stack then 0x80 else 0 := by
  decide

theorem flagBits_ofVariant (variant : Variant) :
    variant.encoding.flagBits &&& 0xBF = (ofVariant variant).flagBits := by
  have codeLt := ModRM.getD_code_lt variant.encoding.modRM
  rw [Encoding.flagBits_eq, clear_wide, flagBits, ofVariant, lookup_modRMCodes, lookup_foldCodes,
    Nat.add_assoc]
  split_ifs <;> omega

end Flags

theorem operandConstant_name (type : OperandType) : operandConstant type.name = type.constantName := by
  have onlyOne : ∀ type ∈ OperandType.all, type.name = "1" → type = .one := by decide +kernel
  unfold OperandType.constantName
  split
  · rfl
  · rename_i notOne
    exact if_neg fun nameEq => notOne (onlyOne type (OperandType.mem_all type) nameEq)

theorem lineFields_ofVariant (row : TableRow) :
    (ofVariant row.variant).lineFields row.variant.encoding.flagBits row.packedLink = row.fields := by
  have constantsEq : (ofVariant row.variant).operands.map operandConstant =
      row.variant.operands.map OperandType.constantName := by
    rw [ofVariant, List.map_map]
    exact List.map_congr_left fun type _ => operandConstant_name type
  have countEq : (ofVariant row.variant).operands.length = row.variant.operands.length :=
    List.length_map _
  rw [lineFields, constantsEq, countEq, prefixBits_ofVariant]
  rfl

theorem describes_line (row : TableRow) : (ofVariant row.variant).Describes row.line := by
  refine ⟨row.variant.encoding.flagBits, row.packedLink, Encoding.flagBits_lt _, row.packedLink_lt,
    flagBits_ofVariant row.variant, ?_⟩
  rw [lineFields_ofVariant, TableRow.line_eq]

end RowRecord

section Lines

private theorem toList_linesText (lines : List String) :
    (linesText lines).toList = ['\n'].intercalate (lines.map String.toList ++ [[]]) := by
  induction lines with
  | nil => rfl
  | cons line rest ih =>
      have split : linesText (line :: rest) = line ++ "\n" ++ linesText rest := String.join_cons
      rw [split, String.toList_append, String.toList_append, ih, List.map_cons, List.cons_append,
        List.intercalate_cons_of_ne_nil (List.append_ne_nil_of_right_ne_nil _ (List.cons_ne_nil _ _))]
      rfl

/-- Lines without line feed can be cut out of their text again. -/
theorem pieces_linesText {lines : List String} (unbroken : ∀ line ∈ lines, '\n' ∉ line.toList) :
    Text.pieces (· == '\n') (linesText lines).toList = lines.map String.toList ++ [[]] := by
  rw [toList_linesText]
  apply Text.pieces_intercalate (List.append_ne_nil_of_right_ne_nil _ (List.cons_ne_nil _ _))
  intro part partMem
  rcases List.mem_append.mp partMem with isLine | isLast
  · obtain ⟨line, lineMem, rfl⟩ := List.mem_map.mp isLine
    exact unbroken line lineMem
  · rw [List.mem_singleton.mp isLast]
    exact List.not_mem_nil

theorem TableRow.lineFeed_not_mem_line {row : TableRow} {text : String}
    (parsed : Encoding.parse text = .ok row.variant.encoding)
    (unbroken : '\n' ∉ row.variant.name.toList) : '\n' ∉ row.line.toList := by
  intro charMem
  rcases mem_line charMem with isMark | ⟨field, fieldMem, inField⟩
  · exact absurd isMark (by decide)
  · have schemeChars := Encoding.all_isNameChar_scheme parsed
    rcases eq_name_or_all_isNameChar schemeChars field fieldMem with rfl | named
    · exact unbroken inField
    · exact absurd (List.all_eq_true.mp named _ inField) (by decide)

end Lines

/-- A table has a record and a line for each row, and the record of a row describes its line. Unless a name
has a line feed, the lines are those that the text of the table has. -/
theorem Table.records_describe_lines (table : Table) :
    ∃ records, RowRecord.parseList? table.recordsText = some records ∧
      List.Forall₂ RowRecord.Describes records (table.rows.map TableRow.line) ∧
      ((∀ row ∈ table.rows, ∃ text, Encoding.parse text = .ok row.variant.encoding) →
        (∀ row ∈ table.rows, '\n' ∉ row.variant.name.toList) →
          Text.pieces (· == '\n') table.text.toList =
            (table.rows.map TableRow.line).map String.toList ++ [[]]) := by
  refine ⟨_, RowRecord.parseList?_recordsText table, ?_, ?_⟩
  · rw [Table.variants, List.map_map, List.forall₂_map_left_iff, List.forall₂_map_right_iff,
      List.forall₂_same]
    exact fun row _ => RowRecord.describes_line row
  · intro parsed named
    apply pieces_linesText
    intro line lineMem
    obtain ⟨row, rowMem, rfl⟩ := List.mem_map.mp lineMem
    obtain ⟨text, parsedRow⟩ := parsed row rowMem
    exact TableRow.lineFeed_not_mem_line parsedRow (named row rowMem)

def twinTable : Table where
  rows := [lengthTwin .bits128, lengthTwin .bits256]

theorem Table.records_describe_lines_twinTable :
    ∃ record other : RowRecord,
      RowRecord.parseList? twinTable.recordsText = some [record, other] ∧
      record.Describes (lengthTwin .bits128).line ∧ other.Describes (lengthTwin .bits256).line ∧
      Text.pieces (· == '\n') twinTable.text.toList =
        [(lengthTwin .bits128).line.toList, (lengthTwin .bits256).line.toList, []] := by
  obtain ⟨records, read, described, cut⟩ := Table.records_describe_lines twinTable
  have parsed : ∀ row ∈ twinTable.rows, ∃ text, Encoding.parse text = .ok row.variant.encoding := by
    simp only [twinTable, List.forall_mem_cons]
    exact ⟨⟨"VEX.128.F3.0F.W1 10 /r", by decide +kernel⟩, ⟨"VEX.256.F3.0F.W1 10 /r", by decide +kernel⟩,
      List.forall_mem_nil _⟩
  have named : ∀ row ∈ twinTable.rows, '\n' ∉ row.variant.name.toList := by decide +kernel
  have lines := cut parsed named
  rcases described with _ | ⟨first, _ | ⟨second, ⟨⟩⟩⟩
  exact ⟨_, _, read, first, second, lines⟩

end OpcodeTable
