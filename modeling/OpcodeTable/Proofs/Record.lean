import Mathlib.Tactic.SplitIfs
import OpcodeTable.Proofs.Text.Blank
import OpcodeTable.Proofs.Text.Name
import OpcodeTable.Record

/-!
# Records in normal form

A record has its name in lower case and no blank characters around its parts. A form that is written from a
record is split into the same record again. A form gives no record exactly if its text is blank or its first
word is no name.
-/

namespace OpcodeTable

namespace InstructionRecord

/-- The name is in lower case, and no part has blank characters around it. -/
structure IsNormal (record : InstructionRecord) : Prop where
  name_ne_empty : record.name ≠ ""
  name_chars : ∀ c ∈ record.name.toList, Text.isLowerNameChar c = true
  operands_trimmed : Text.Trimmed record.operands.toList
  encoding_trimmed : Text.Trimmed record.encoding.toList

theorem splitText?_eq_none_iff {text : String} :
    splitText? text = none ↔
      Text.trim text = "" ∨
        ∃ word, (Text.words text.toList).head? = some word ∧ ∃ c ∈ word, ¬Text.isNameChar c = true := by
  have blankIff : Text.trim text = "" ↔ Text.trimBlanks text.toList = [] := by
    rw [Text.trim, ← String.toList_inj, String.toList_ofList]
    rfl
  have splitIff : splitText? text = none ↔
      ¬Text.isName ((Text.trimBlanks text.toList).takeWhile fun c => !Text.isBlank c) = true := by
    unfold splitText?
    dsimp only
    split_ifs with isName <;> simp [isName]
  rw [splitIff, blankIff, Text.head?_words, Text.isName_iff]
  by_cases blank : Text.trimBlanks text.toList = []
  · simp [blank]
  · obtain ⟨first, rest, trimmedEq⟩ := List.exists_cons_of_ne_nil blank
    have firstUnblank : Text.isBlank first = false :=
      (Text.trimBlanks_trimmed text.toList).first first (by rw [trimmedEq]; rfl)
    have wordNonempty : (Text.trimBlanks text.toList).takeWhile (fun c => !Text.isBlank c) ≠ [] := by
      simp [trimmedEq, firstUnblank]
    simp [blank, wordNonempty]

theorem normal_of_splitText? {text name operands : String}
    (split : splitText? text = some (name, operands)) :
    name ≠ "" ∧ (∀ c ∈ name.toList, Text.isLowerNameChar c = true) ∧ Text.Trimmed operands.toList := by
  unfold splitText? at split
  dsimp only at split
  split_ifs at split with isName
  obtain ⟨rfl, rfl⟩ := Prod.mk.inj (Option.some.inj split)
  obtain ⟨nonempty, named⟩ := Text.isName_iff.mp isName
  have charsEq (word : List Char) : (String.ofList word).toLower.toList = word.map Char.toLower :=
    String.toList_map.trans (congrArg _ String.toList_ofList)
  refine ⟨?_, ?_, ?_⟩
  · rw [Ne, ← String.toList_inj, charsEq]
    simpa using nonempty
  · rw [charsEq]
    intro c charMem
    obtain ⟨original, originalMem, rfl⟩ := List.mem_map.mp charMem
    exact Text.isLowerNameChar_toLower (named original originalMem)
  · rw [String.toList_ofList]
    exact Text.trimBlanks_trimmed _

theorem all_isNameChar_name {text name operands : String}
    (split : splitText? text = some (name, operands)) : name.toList.all Text.isNameChar = true := by
  obtain ⟨-, lower, -⟩ := normal_of_splitText? split
  rw [List.all_eq_true]
  intro c charMem
  exact Text.isNameChar_of_isLowerNameChar (lower c charMem)

section Normal

variable {record : InstructionRecord} (normal : record.IsNormal)
include normal

theorem IsNormal.isName_name : Text.isName record.name.toList = true := by
  rw [Text.isName_iff]
  refine ⟨?_, ?_⟩
  · simpa using normal.name_ne_empty
  · intro c charMem
    exact Text.isNameChar_of_isLowerNameChar (normal.name_chars c charMem)

theorem IsNormal.isBlank_of_mem_name :
    ∀ c ∈ record.name.toList, Text.isBlank c = false := by
  intro c charMem
  exact Text.isBlank_of_isNameChar ((Text.isName_iff.mp normal.isName_name).2 c charMem)

theorem IsNormal.toLower_name : record.name.toLower = record.name := by
  have charsEq : record.name.toLower.toList = record.name.toList.map Char.toLower := String.toList_map
  rw [← String.toList_inj, charsEq]
  conv_rhs => rw [← List.map_id record.name.toList]
  apply List.map_congr_left
  intro c charMem
  exact Text.toLower_eq_self (normal.name_chars c charMem)

/-- The name ends at the space behind it, and this space vanishes in front of the operand text. -/
theorem IsNormal.splitText?_text : splitText? record.text = some (record.name, record.operands) := by
  have nameUnblank : ∀ c ∈ record.name.toList, (!Text.isBlank c) = true := by
    simpa using normal.isBlank_of_mem_name
  have nameTrimmed := Text.trimmed_of_unblank normal.isBlank_of_mem_name
  by_cases bare : record.operands = ""
  · have textEq : record.text = record.name := by simp [text, bare]
    rw [splitText?, textEq, nameTrimmed.trimBlanks_eq, List.takeWhile_eq_self_iff.mpr nameUnblank,
      List.dropWhile_eq_nil_iff.mpr nameUnblank, if_pos normal.isName_name, String.ofList_toList,
      normal.toLower_name, bare]
    rfl
  · have textEq : record.text.toList = record.name.toList ++ ([' '] ++ record.operands.toList) := by
      simp [text, bare]
    have textTrimmed := nameTrimmed.append (Text.isName_iff.mp normal.isName_name).1
      normal.operands_trimmed (by simpa using bare) [' ']
    have spaceBlank : Text.isBlank ' ' = true := by decide
    rw [splitText?, textEq, textTrimmed.trimBlanks_eq, List.takeWhile_append_of_pos nameUnblank,
      List.dropWhile_append_of_pos nameUnblank, List.singleton_append,
      List.takeWhile_cons_of_neg (by simp [spaceBlank]), List.dropWhile_cons_of_neg (by simp [spaceBlank]),
      Text.trimBlanks_cons_of_isBlank spaceBlank, normal.operands_trimmed.trimBlanks_eq, List.append_nil,
      if_pos normal.isName_name, String.ofList_toList, String.ofList_toList, normal.toLower_name]

end Normal

variable {group : Group} {form : Form} {record : InstructionRecord}

theorem ofForm_eq_ok_iff :
    ofForm group form = .ok record ↔
      splitText? form.text = some (record.name, record.operands) ∧
        record.encoding = Text.trim form.encoding ∧ record.category = group.category ∧
        record.extension = form.extension.or group.extension ∧
        record.architecture = form.architecture.or group.architecture ∧
        record.deprecated = group.deprecated := by
  obtain ⟨name, operands, encoding, category, extension, architecture, deprecated⟩ := record
  unfold ofForm
  cases splitText? form.text with
  | none => simp
  | some parts => simp [Prod.ext_iff, and_assoc, eq_comm]

theorem ofForm_eq_error_iff {skipped : SkippedRecord} :
    ofForm group form = .error skipped ↔
      skipped = ⟨form.text, form.encoding, .malformedInstruction form.text⟩ ∧
        splitText? form.text = none := by
  unfold ofForm
  cases splitText? form.text with
  | none => simp [eq_comm]
  | some parts => simp

theorem isNormal_of_ofForm (given : ofForm group form = .ok record) : record.IsNormal := by
  obtain ⟨split, encodingEq, -⟩ := ofForm_eq_ok_iff.mp given
  obtain ⟨nonempty, lower, trimmed⟩ := normal_of_splitText? split
  refine ⟨nonempty, lower, trimmed, ?_⟩
  rw [encodingEq, Text.trim, String.toList_ofList]
  exact Text.trimBlanks_trimmed _

/-- The record of a form is in normal form, and the form that is written from it has the same record. A form
is skipped exactly if its text is blank or its first word has a character that no name has. -/
theorem ofForm_normalizes (group : Group) (form : Form) :
    (∀ record, ofForm group form = .ok record →
      ofForm group { form with text := record.text, encoding := record.encoding } = .ok record ∧
      record.name ≠ "" ∧
      (∀ c ∈ record.name.toList, (c.isLower || c.isDigit || c == '_') = true) ∧
      Text.Trimmed record.operands.toList ∧ Text.Trimmed record.encoding.toList) ∧
    ∀ skipped, ofForm group form = .error skipped ↔
      skipped = ⟨form.text, form.encoding, .malformedInstruction form.text⟩ ∧
        (Text.trim form.text = "" ∨
          ∃ word, (Text.words form.text.toList).head? = some word ∧
            ∃ c ∈ word, ¬(c.isAlphanum || c == '_') = true) := by
  constructor
  · intro record given
    have normal := isNormal_of_ofForm given
    refine ⟨?_, normal.name_ne_empty, normal.name_chars, normal.operands_trimmed,
      normal.encoding_trimmed⟩
    rw [ofForm_eq_ok_iff] at given ⊢
    exact ⟨normal.splitText?_text, normal.encoding_trimmed.trim_eq.symm, given.2.2⟩
  · intro skipped
    rw [ofForm_eq_error_iff, splitText?_eq_none_iff]
    rfl

/-- A form with blank characters of several kinds around its parts, and capital letters. -/
theorem ofForm_normalizes_spaced :
    ∃ record : InstructionRecord,
      ofForm ⟨"move", some "BASE", none, false, []⟩
        ⟨"\u3000MOV_1\u00a0\t R32,  i32\u2028", "\n B8+r  id\u2003", none, some "X64"⟩ = .ok record ∧
      record.text = "mov_1 R32,  i32" ∧ record.encoding = "B8+r  id" ∧
      ofForm ⟨"move", some "BASE", none, false, []⟩
        ⟨"mov_1 R32,  i32", "B8+r  id", none, some "X64"⟩ = .ok record := by
  let record : InstructionRecord :=
    ⟨"mov_1", "R32,  i32", "B8+r  id", "move", some "BASE", some "X64", false⟩
  have given : ofForm ⟨"move", some "BASE", none, false, []⟩
      ⟨"\u3000MOV_1\u00a0\t R32,  i32\u2028", "\n B8+r  id\u2003", none, some "X64"⟩ = .ok record := by
    decide +kernel
  exact ⟨record, given, by decide +kernel, rfl, ((ofForm_normalizes _ _).1 record given).1⟩

end InstructionRecord

end OpcodeTable
