import OpcodeTable.Corpus
import OpcodeTable.Proofs.Record
import OpcodeTable.Proofs.TestCase.Cases
import OpcodeTable.Proofs.Text.Hex

/-!
# What a line of the corpus tells

A line of the corpus holds the instruction and its bytes. The bytes are hexadecimal digits, so they end at
the first quotation mark or start behind the last semicolon, whatever the operands are. The name of the
instruction ends at the first space or the first parenthesis, since neither stands in a name. So both forms
of a line tell the name, the text of the operands and the bytes, and nothing else.
-/

namespace OpcodeTable

namespace TestCase

/-- The case is one of a table whose names are those of instruction texts. -/
def IsGenerated (test : TestCase) : Prop :=
  ∃ (table : Table) (dialect : Dialect) (limit : Option Nat),
    (∀ variant ∈ table.variants, ∃ text operands,
      InstructionRecord.splitText? text = some (variant.name, operands)) ∧
    test ∈ table.cases dialect limit

/-- The name has name characters only, and no value is empty. -/
structure IsLegible (test : TestCase) : Prop where
  named : test.variant.name.toList.all Text.isNameChar = true
  written : "" ∉ test.values

theorem IsGenerated.isLegible {test : TestCase} (generated : test.IsGenerated) : test.IsLegible := by
  obtain ⟨table, dialect, limit, named, member⟩ := generated
  obtain ⟨⟨variant, row⟩, numbered, member⟩ := List.mem_flatMap.mp member
  dsimp only at member
  rw [Variant.cases_eq] at member
  obtain ⟨values, chosen, rfl⟩ := List.mem_map.mp member
  obtain ⟨text, operands, split⟩ := named variant (List.fst_mem_of_mem_zipIdx numbered)
  refine ⟨InstructionRecord.all_isNameChar_name split, ?_⟩
  intro emptyMem
  obtain ⟨catalogue, catalogueMem, inCatalogue⟩ :=
    exists_list_of_mem_choices ((upTo_sublist limit _).subset chosen) emptyMem
  obtain ⟨type, -, rfl⟩ := List.mem_map.mp catalogueMem
  exact Catalogue.empty_not_mem_values dialect variant type inCatalogue

/-- The values as they stand in a line. -/
def operandText (test : TestCase) : String :=
  ", ".intercalate test.values

end TestCase

namespace Text

/-- A text behind a space, unless it is empty. -/
def spaced (text : String) : List Char :=
  if text = "" then [] else ' ' :: text.toList

theorem spaced_injective {text other : String} (same : spaced text = spaced other) : text = other := by
  unfold spaced at same
  split_ifs at same with empty otherEmpty otherEmpty
  · rw [empty, otherEmpty]
  · exact String.toList_inj.mp (List.cons.inj same).2

theorem append_spaced_inj {front otherFront : List Char} {text other : String} (unmarked : ' ' ∉ front)
    (otherUnmarked : ' ' ∉ otherFront) (same : front ++ spaced text = otherFront ++ spaced other) :
    front = otherFront ∧ text = other := by
  -- With one more space at the end, the front is what stands before the first space.
  have ends (text : String) : ∃ back, spaced text ++ [' '] = ' ' :: back := by
    unfold spaced
    split_ifs
    · exact ⟨[], rfl⟩
    · exact ⟨text.toList ++ [' '], rfl⟩
  obtain ⟨back, backEq⟩ := ends text
  obtain ⟨otherBack, otherBackEq⟩ := ends other
  have longer := congrArg (· ++ [' ']) same
  simp only [List.append_assoc, backEq, otherBackEq] at longer
  obtain ⟨rfl, -⟩ := append_mark_inj unmarked otherUnmarked longer
  exact ⟨rfl, spaced_injective (List.append_cancel_left same)⟩

end Text

namespace TestCase.IsLegible

variable {test other : TestCase}

theorem operandText_eq_empty_iff (legible : test.IsLegible) : test.operandText = "" ↔ test.values = [] := by
  obtain ⟨variant, row, values⟩ := test
  have written : "" ∉ values := legible.written
  change ", ".intercalate values = "" ↔ values = []
  cases values with
  | nil => simp
  | cons value rest =>
      have valueWritten : value ≠ "" := by
        rintro rfl
        exact written List.mem_cons_self
      cases rest with
      | nil => simp [valueWritten]
      | cons next rest =>
          rw [← String.toList_inj, String.toList_intercalate, List.map_cons, List.map_cons,
            List.intercalate_cons_cons]
          simp

theorem toList_text (legible : test.IsLegible) :
    test.text.toList = test.variant.name.toList ++ Text.spaced test.operandText := by
  unfold text Text.spaced
  simp only [legible.operandText_eq_empty_iff, List.isEmpty_iff]
  split_ifs
  · rw [List.append_nil]
  · simp [operandText]

theorem text_eq_iff (legible : test.IsLegible) (otherLegible : other.IsLegible) :
    test.text = other.text ↔
      test.variant.name = other.variant.name ∧ test.operandText = other.operandText := by
  rw [← String.toList_inj, legible.toList_text, otherLegible.toList_text, ← String.toList_inj]
  constructor
  · exact Text.append_spaced_inj (Text.not_mem_of_all_isNameChar (by decide) legible.named)
      (Text.not_mem_of_all_isNameChar (by decide) otherLegible.named)
  · rintro ⟨nameEq, operandsEq⟩
    rw [nameEq, operandsEq]

end TestCase.IsLegible

namespace TestResult

variable {result other : TestResult} {bytes otherBytes : List UInt8}
  (verified : result.bytes? = some bytes) (otherVerified : other.bytes? = some otherBytes)
include verified otherVerified

theorem line_eq_iff :
    result.corpusLine? .line = other.corpusLine? .line ↔
      result.test.text = other.test.text ∧ bytes = otherBytes := by
  have unmarked (bytes : List UInt8) : ';' ∉ Text.hexBytes bytes :=
    Text.not_mem_of_all_isNameChar (by decide) (Text.all_isNameChar_hexBytes bytes)
  have chars (text : String) (bytes : List UInt8) :
      (text ++ " ;" ++ String.ofList (Text.hexBytes bytes)).toList =
        text.toList ++ [' '] ++ ';' :: Text.hexBytes bytes := by
    simp
  rw [corpusLine?, corpusLine?, verified, otherVerified, Option.map_some, Option.map_some, Option.some_inj]
  constructor
  · intro same
    rw [← String.toList_inj, chars, chars] at same
    obtain ⟨frontEq, hexEq⟩ := Text.append_last_mark_inj (unmarked _) (unmarked _) same
    exact ⟨String.toList_inj.mp (List.append_cancel_right frontEq), Text.hexBytes_injective hexEq⟩
  · rintro ⟨textEq, rfl⟩
    rw [textEq]

theorem call_eq_iff (legible : result.test.IsLegible) (otherLegible : other.test.IsLegible) :
    result.corpusLine? .call = other.corpusLine? .call ↔
      (result.test.variant.name = other.test.variant.name ∧
        result.test.operandText = other.test.operandText) ∧ bytes = otherBytes := by
  have unmarked (bytes : List UInt8) : '"' ∉ Text.hexBytes bytes :=
    Text.not_mem_of_all_isNameChar (by decide) (Text.all_isNameChar_hexBytes bytes)
  have chars (test : TestCase) (bytes : List UInt8) :
      ("TEST_INST(\"" ++ String.ofList (Text.hexBytes bytes) ++ "\", " ++ test.variant.name ++ "(" ++
          ", ".intercalate test.values ++ "));").toList =
        "TEST_INST(\"".toList ++ (Text.hexBytes bytes ++ '"' :: (", ".toList ++
          (test.variant.name.toList ++ '(' :: (test.operandText.toList ++ "));".toList)))) := by
    simp [TestCase.operandText]
  rw [corpusLine?, corpusLine?, verified, otherVerified, Option.map_some, Option.map_some, Option.some_inj]
  constructor
  · intro same
    rw [← String.toList_inj, chars, chars] at same
    obtain ⟨hexEq, callEq⟩ :=
      Text.append_mark_inj (unmarked _) (unmarked _) (List.append_cancel_left same)
    obtain ⟨nameEq, operandsEq⟩ := Text.append_mark_inj
      (Text.not_mem_of_all_isNameChar (by decide) legible.named)
      (Text.not_mem_of_all_isNameChar (by decide) otherLegible.named) (List.append_cancel_left callEq)
    exact ⟨⟨String.toList_inj.mp nameEq, String.toList_inj.mp (List.append_cancel_right operandsEq)⟩,
      Text.hexBytes_injective hexEq⟩
  · rintro ⟨⟨nameEq, operandsEq⟩, rfl⟩
    rw [← String.toList_inj, chars, chars, nameEq, operandsEq]

/-- Either form of a line of the corpus tells the text of the instruction and the bytes: the lines of two
results are the same exactly if both agree. So the two forms tell the same results apart. -/
theorem corpusLine?_tells (generated : result.test.IsGenerated) (otherGenerated : other.test.IsGenerated) :
    (∀ format, result.corpusLine? format = other.corpusLine? format ↔
      result.test.text = other.test.text ∧ bytes = otherBytes) ∧
    (result.corpusLine? .line = other.corpusLine? .line ↔
      result.corpusLine? .call = other.corpusLine? .call) := by
  have legible := generated.isLegible
  have otherLegible := otherGenerated.isLegible
  have lineIff := line_eq_iff verified otherVerified
  have callIff : result.corpusLine? .call = other.corpusLine? .call ↔
      result.test.text = other.test.text ∧ bytes = otherBytes := by
    rw [call_eq_iff verified otherVerified legible otherLegible, legible.text_eq_iff otherLegible]
  refine ⟨?_, lineIff.trans callIff.symm⟩
  intro format
  cases format with
  | line => exact lineIff
  | call => exact callIff

omit verified otherVerified

/-- An addition of stack registers, which are written with parentheses. -/
def stackTest : TestCase :=
  ⟨⟨"fadd", [.stack, .fixed .st0],
    ⟨"NORMAL", .empty, [0xDC, 0xC0], false, none, none, some .stack, []⟩⟩, 0, ["st(1)", "st(0)"]⟩

private theorem isGenerated_stackTest : stackTest.IsGenerated := by
  let table : Table := { rows := [⟨stackTest.variant, none⟩] }
  have split : InstructionRecord.splitText? "FADD st, st0" = some ("fadd", "st, st0") := by decide +kernel
  refine ⟨table, .gas, none, ?_, ?_⟩
  · intro variant variantMem
    obtain rfl := List.mem_singleton.mp variantMem
    exact ⟨_, _, split⟩
  · simp only [Table.cases, Variant.cases_eq]
    decide +kernel

/-- The lines of a result without bytes and of one with bytes differ in both forms. -/
theorem corpusLine?_tells_stack :
    stackTest.IsGenerated ∧
      (TestResult.mk stackTest (.encoded [])).corpusLine? .call =
        some "TEST_INST(\"\", fadd(st(1), st(0)));" ∧
      ∀ format, (TestResult.mk stackTest (.encoded [])).corpusLine? format ≠
        (TestResult.mk stackTest (.encoded [0xDC, 0xC1])).corpusLine? format := by
  have generated := isGenerated_stackTest
  have tells := (@corpusLine?_tells ⟨stackTest, .encoded []⟩ ⟨stackTest, .encoded [0xDC, 0xC1]⟩ _ _ rfl rfl
    generated generated).1
  refine ⟨generated, by decide +kernel, ?_⟩
  intro format same
  cases ((tells format).mp same).2

end TestResult

end OpcodeTable
