import OpcodeTable.Proofs.Operand.Expansion
import OpcodeTable.Proofs.Order.Keys
import OpcodeTable.Proofs.Text.Name
import OpcodeTable.Proofs.Text.Pieces

/-!
# Operand texts that are written out

Whatever alternatives each position is to have, and whatever mask they take, there is an operand text for
it: the names of the alternatives between slashes, perhaps behind a letter for the access, perhaps in front
of the mask, and commas between the positions. Such a text expands without fault to all choices from the
masked alternatives.

The argument follows the text through the three stages of its expansion. Each stage is described by what it
makes of one position, whatever came before.
-/

namespace OpcodeTable

namespace OperandType

theorem all_isNameChar_name (type : OperandType) : type.name.toList.all Text.isNameChar = true := by
  have named : (all.all fun type => type.name.toList.all Text.isNameChar) = true := by decide +kernel
  exact List.all_eq_true.mp named type (mem_all type)

theorem name_ne_empty (type : OperandType) : type.name.toList ≠ [] := by
  have written : (all.all fun type => !type.name.toList.isEmpty) = true := by decide +kernel
  simpa using List.all_eq_true.mp written type (mem_all type)

/-- A canonical name is read as the type that it belongs to, and not as another spelling of a type. -/
theorem ofSpelling?_name (type : OperandType) : ofSpelling? type.name = some type := by
  have spelled : (all.all fun type => ofSpelling? type.name == some type) = true := by decide +kernel
  exact beq_iff_eq.mp (List.all_eq_true.mp spelled type (mem_all type))

end OperandType

namespace Operand

/-- What can be written for one operand position: alternatives, a mask that all of them take, and a letter
that tells how the operand is accessed. -/
structure WrittenOperand where
  types : List OperandType
  masking : Option Masking
  access : Option Char
  nonempty : types ≠ []
  nodup : types.Nodup
  maskable : ∀ suffix ∈ masking, ∀ type ∈ types, (type.withMask? suffix).isSome = true
  accessLetter : ∀ letter ∈ access, letter ∈ ['r', 'w', 'x', 'R', 'W', 'X']

namespace WrittenOperand

variable (operand : WrittenOperand)

/-- The alternatives under the mask. -/
def alternatives : List OperandType :=
  match operand.masking with
  | none => operand.types
  | some suffix => operand.types.filterMap fun type => type.withMask? suffix

/-- The names of the alternatives with slashes between them. -/
def word : String :=
  "/".intercalate (operand.types.map OperandType.name)

def accessText : String :=
  match operand.access with
  | none => ""
  | some letter => String.ofList [letter, ':']

def suffixText : String :=
  match operand.masking with
  | none => ""
  | some suffix => " " ++ maskText suffix

def text : String :=
  operand.accessText ++ operand.word ++ operand.suffixText

end WrittenOperand

/-- The text of operand positions. -/
def operandsText (operands : List WrittenOperand) : String :=
  ", ".intercalate (operands.map WrittenOperand.text)

namespace WrittenOperand

variable (operand : WrittenOperand)

theorem toList_word :
    operand.word.toList = ['/'].intercalate (operand.types.map fun type => type.name.toList) := by
  rw [word, String.toList_intercalate, List.map_map]
  rfl

theorem mem_word {c : Char} (cMem : c ∈ operand.word.toList) : c = '/' ∨ Text.isNameChar c = true := by
  rw [toList_word] at cMem
  rcases Text.mem_intercalate cMem with isSlash | ⟨name, nameMem, inName⟩
  · exact .inl (List.mem_singleton.mp isSlash)
  · obtain ⟨type, _, rfl⟩ := List.mem_map.mp nameMem
    exact .inr (List.all_eq_true.mp type.all_isNameChar_name c inName)

theorem not_mem_word {c : Char} (notSlash : c ≠ '/') (notNamed : Text.isNameChar c = false) :
    c ∉ operand.word.toList := by
  intro cMem
  rcases operand.mem_word cMem with isSlash | named
  · exact notSlash isSlash
  · rw [notNamed] at named
    cases named

theorem word_ne_nil : operand.word.toList ≠ [] := by
  obtain ⟨type, rest, typesEq⟩ := List.exists_cons_of_ne_nil operand.nonempty
  obtain ⟨c, charsEq⟩ := List.exists_mem_of_ne_nil _ type.name_ne_empty
  apply List.ne_nil_of_mem (a := c)
  rw [toList_word, typesEq, List.map_cons]
  exact (Text.prefix_intercalate '/' _ _).subset charsEq

/-- Each alternative of the word is the name of one of the types. -/
theorem alternativeWords_word :
    alternativeWords operand.word.toList = operand.types.map OperandType.name := by
  have slashOnly : ∀ c ∈ operand.word.toList, (c == '/' || c == '|') = (c == '/') := by
    intro c cMem
    have notBar : c ≠ '|' := by
      rintro rfl
      exact operand.not_mem_word (by decide) (by decide) cMem
    simp [notBar]
  have unmarked : ∀ name ∈ operand.types.map (fun type => type.name.toList), '/' ∉ name := by
    intro name nameMem slashMem
    obtain ⟨type, _, rfl⟩ := List.mem_map.mp nameMem
    exact absurd (List.all_eq_true.mp type.all_isNameChar_name '/' slashMem) (by decide)
  rw [alternativeWords, Text.nonemptyPieces, Text.pieces_congr slashOnly, toList_word,
    Text.pieces_intercalate (by simpa using operand.nonempty) unmarked, List.filter_eq_self.mpr]
  · simp
  · intro name nameMem
    obtain ⟨type, _, rfl⟩ := List.mem_map.mp nameMem
    simpa using type.name_ne_empty

end WrittenOperand

theorem dropAccessMark_of_not_mem {word : List Char} (unmarked : ':' ∉ word) :
    dropAccessMark word = word := by
  unfold dropAccessMark
  split
  · simp at unmarked
  · rfl

theorem dropAccessMark_of_mem {letter : Char} (letterMem : letter ∈ ['r', 'w', 'x', 'R', 'W', 'X'])
    (word : List Char) : dropAccessMark (letter :: ':' :: word) = word := by
  rw [dropAccessMark, if_pos]
  exact List.contains_iff_mem.mpr letterMem

namespace Scan

/-- The character belongs to a word wherever it stands outside of brackets and braces. -/
def isPlain (c : Char) : Bool :=
  !(c == '[' || c == '\x7b' || c == ',' || Text.isBlank c)

theorem step_of_isPlain {c : Char} (plain : isPlain c = true) (found : List Lexeme) (word : List Char) :
    step (.outside found word) c = .outside found (c :: word) := by
  have classes : c ≠ '[' ∧ c ≠ '\x7b' ∧ c ≠ ',' ∧ Text.isBlank c = false := by
    simpa [isPlain, and_assoc] using plain
  simp [step, classes]

theorem foldl_step_of_isPlain {text : List Char} (plain : ∀ c ∈ text, isPlain c = true)
    (found : List Lexeme) (word : List Char) :
    text.foldl step (.outside found word) = .outside found (text.reverse ++ word) := by
  induction text generalizing word with
  | nil => rfl
  | cons c rest ih =>
      obtain ⟨firstPlain, restPlain⟩ := List.forall_mem_cons.mp plain
      rw [List.foldl_cons, step_of_isPlain firstPlain, ih restPlain]
      simp

theorem isPlain_of_isNameChar {c : Char} (named : Text.isNameChar c = true) : isPlain c = true := by
  have allCodes : ∀ code < 123, Text.isNameChar (Char.ofNat code) = true →
      isPlain (Char.ofNat code) = true := by
    decide
  have bounds := Text.isNameChar_bounds named
  have plain := allCodes c.toNat (by omega)
  rw [Char.ofNat_toNat] at plain
  exact plain named

end Scan

namespace WrittenOperand

variable (operand : WrittenOperand)

/-- The lexemes of the text of an operand. -/
def lexemes : List Lexeme :=
  .word operand.word.toList ::
    match operand.masking with
    | none => []
    | some .merge => [.group ['k']]
    | some .zero => [.group ['k', 'z']]

theorem isPlain_of_mem {c : Char} (cMem : c ∈ operand.accessText.toList ++ operand.word.toList) :
    Scan.isPlain c = true := by
  rcases List.mem_append.mp cMem with inAccess | inWord
  · unfold accessText at inAccess
    cases accessEq : operand.access with
    | none => simp [accessEq] at inAccess
    | some letter =>
        have letterMem := operand.accessLetter letter accessEq
        have letterPlain : (['r', 'w', 'x', 'R', 'W', 'X'].all Scan.isPlain) = true := by decide
        simp only [accessEq, String.toList_ofList, List.mem_cons, List.not_mem_nil, or_false] at inAccess
        rcases inAccess with rfl | rfl
        · exact List.all_eq_true.mp letterPlain c letterMem
        · decide
  · rcases operand.mem_word inWord with rfl | named
    · decide
    · exact Scan.isPlain_of_isNameChar named

theorem dropAccessMark_word :
    dropAccessMark (operand.accessText.toList ++ operand.word.toList) = operand.word.toList := by
  unfold accessText
  cases accessEq : operand.access with
  | none => exact dropAccessMark_of_not_mem (operand.not_mem_word (by decide) (by decide))
  | some letter =>
      rw [String.toList_ofList]
      exact dropAccessMark_of_mem (operand.accessLetter letter accessEq) operand.word.toList

theorem wordLexeme_word :
    wordLexeme (operand.accessText.toList ++ operand.word.toList) = some (.word operand.word.toList) := by
  have notHidden : operand.word.toList.head? ≠ some '<' := by
    intro opens
    exact operand.not_mem_word (by decide) (by decide) (List.mem_of_head? opens)
  simp only [wordLexeme, dropAccessMark_word]
  rw [if_neg]
  simpa [notHidden] using operand.word_ne_nil

/-- The end of the text of an operand is also the end of its lexemes. -/
theorem foldl_step_text (found : List Lexeme) :
    ∃ earlier word, operand.text.toList.foldl Scan.step (.outside found []) = .outside earlier word ∧
      Scan.flush earlier word = operand.lexemes.reverse ++ found := by
  have flushed : Scan.flush found (operand.accessText.toList ++ operand.word.toList).reverse =
      .word operand.word.toList :: found := by
    rw [Scan.flush, List.reverse_reverse, wordLexeme_word]
    rfl
  rw [text, String.toList_append, String.toList_append, List.foldl_append,
    Scan.foldl_step_of_isPlain fun c => operand.isPlain_of_mem, List.append_nil]
  unfold suffixText lexemes
  cases operand.masking with
  | none => exact ⟨_, _, rfl, flushed⟩
  | some suffix =>
      cases suffix with
      | merge =>
          refine ⟨.group ['k'] :: .word operand.word.toList :: found, [], ?_, rfl⟩
          rw [← flushed]
          rfl
      | zero =>
          refine ⟨.group ['k', 'z'] :: .word operand.word.toList :: found, [], ?_, rfl⟩
          rw [← flushed]
          rfl

end WrittenOperand

theorem toList_operandsText_cons (operand next : WrittenOperand) (rest : List WrittenOperand) :
    (operandsText (operand :: next :: rest)).toList =
      operand.text.toList ++ ([',', ' '] ++ (operandsText (next :: rest)).toList) := by
  simp [operandsText, String.intercalate_cons_cons]

private theorem finish_foldl_operandsText (operands : List WrittenOperand) (found : List Lexeme) :
    ((operandsText operands).toList.foldl Scan.step (.outside found [])).finish =
      (operands.flatMap WrittenOperand.lexemes).reverse ++ found := by
  induction operands generalizing found with
  | nil => rfl
  | cons operand rest ih =>
      obtain ⟨earlier, word, scanned, flushed⟩ := operand.foldl_step_text found
      cases rest with
      | nil =>
          have onlyText : operandsText [operand] = operand.text := by simp [operandsText]
          rw [onlyText, scanned]
          simpa [Scan.finish] using flushed
      | cons next rest =>
          -- The comma ends the word, and the blank behind it ends an empty one.
          have separated : [',', ' '].foldl Scan.step (.outside earlier word) =
              .outside (Scan.flush earlier word) [] := rfl
          rw [toList_operandsText_cons, List.foldl_append, scanned, List.foldl_append, separated, flushed,
            ih]
          simp

/-- The lexemes of a text are those of its operands. -/
theorem lexemes_operandsText (operands : List WrittenOperand) :
    lexemes (operandsText operands).toList = operands.flatMap WrittenOperand.lexemes := by
  rw [lexemes, finish_foldl_operandsText, List.append_nil, List.reverse_reverse]

namespace WrittenOperand

variable (operand : WrittenOperand)

def items : List Item :=
  .operand operand.word.toList :: operand.masking.toList.map Item.mask

theorem addLexemes_append (items : List Item) (rest : List Lexeme) :
    addLexemes items (operand.lexemes ++ rest) = addLexemes (operand.items.reverse ++ items) rest := by
  unfold lexemes WrittenOperand.items
  cases operand.masking with
  | none => rfl
  | some suffix => cases suffix <;> rfl

theorem wordFaults_word : Progress.wordFaults operand.word.toList = [] := by
  rw [Progress.wordFaults_eq_nil_iff, alternativeWords_word]
  refine ⟨by simpa using operand.nonempty, ?_⟩
  intro name nameMem
  obtain ⟨type, _, rfl⟩ := List.mem_map.mp nameMem
  rw [type.ofSpelling?_name]
  rfl

theorem wordTypes_word : Progress.wordTypes operand.word.toList = operand.types := by
  have named : (operand.types.map OperandType.name).filterMap OperandType.ofSpelling? = operand.types := by
    rw [List.filterMap_map]
    exact (List.filterMap_congr fun type _ => type.ofSpelling?_name).trans List.filterMap_some
  rw [Progress.wordTypes, alternativeWords_word, named, distinct_eq_self operand.nodup]

/-- The items of an operand add its alternatives as one more position and nothing else. -/
theorem expandItems_append (progress : Progress) (rest : List Item) :
    expandItems progress (operand.items ++ rest) =
      expandItems { progress with positions := operand.alternatives :: progress.positions } rest := by
  have wordAdded : progress.add (.operand operand.word.toList) =
      .ok { progress with positions := operand.types :: progress.positions } := by
    rw [Progress.add, wordFaults_word, wordTypes_word, Progress.note_nil]
  unfold items alternatives
  rw [List.cons_append, expandItems, wordAdded]
  cases maskingEq : operand.masking with
  | none => rfl
  | some suffix =>
      have noFaults : Progress.maskFaults suffix operand.types = [] :=
        Progress.maskFaults_eq_nil_iff.mpr (operand.maskable suffix maskingEq)
      simp [expandItems, Progress.add, noFaults, Progress.maskTypes_eq_filterMap noFaults]

end WrittenOperand

private theorem addLexemes_flatMap (operands : List WrittenOperand) (items : List Item) :
    addLexemes items (operands.flatMap WrittenOperand.lexemes) =
      .ok ((operands.flatMap WrittenOperand.items).reverse ++ items) := by
  induction operands generalizing items with
  | nil => rfl
  | cons operand rest ih =>
      rw [List.flatMap_cons, operand.addLexemes_append, ih]
      simp

theorem readItems_operandsText (operands : List WrittenOperand) :
    readItems (operandsText operands).toList = .ok (operands.flatMap WrittenOperand.items) := by
  rw [readItems, lexemes_operandsText, addLexemes_flatMap, List.append_nil]
  exact congrArg Except.ok (List.reverse_reverse _)

private theorem expandItems_flatMap (operands : List WrittenOperand)
    (positions : List (List OperandType)) :
    expandItems { positions := positions } (operands.flatMap WrittenOperand.items) =
      ⟨.ok (choices (positions.reverse ++ operands.map WrittenOperand.alternatives)), []⟩ := by
  induction operands generalizing positions with
  | nil => simp [expandItems]
  | cons operand rest ih =>
      rw [List.flatMap_cons, operand.expandItems_append, ih]
      simp

theorem expand_operandsText (operands : List WrittenOperand) :
    expand (operandsText operands) =
      ⟨.ok (choices (operands.map WrittenOperand.alternatives)), []⟩ := by
  rw [expand, readItems_operandsText]
  exact expandItems_flatMap operands []

/-- Every list of operand positions, each with different alternatives and perhaps a mask that all of them
take, can be written as a text that expands to the lexicographic product of the masked alternatives. The
report does not change. -/
theorem expand_complete (operands : List WrittenOperand) :
    ∃ tuples, (expand (operandsText operands)).result = .ok tuples ∧
      IsLexProduct (operands.map WrittenOperand.alternatives) tuples ∧
      ∀ report : Report, report.addUnknown (expand (operandsText operands)).unknown = report := by
  rw [expand_operandsText]
  exact ⟨_, rfl, choices_isLexProduct _, fun _ => rfl⟩

/-- A vector register or memory that is written under a zeroing mask. -/
def maskedTarget : WrittenOperand where
  types := [.vector .xmm none, .memory .m128]
  masking := some .zero
  access := some 'W'
  nonempty := by decide
  nodup := by decide
  maskable := by simp [OperandType.withMask?, OperandType.isMemory]
  accessLetter := by simp

theorem expand_complete_maskedTarget :
    operandsText [maskedTarget, maskedTarget] = "W:xmm/m128 \x7bkz\x7d, W:xmm/m128 \x7bkz\x7d" ∧
      ∃ tuples, (expand "W:xmm/m128 \x7bkz\x7d, W:xmm/m128 \x7bkz\x7d").result = .ok tuples ∧
        IsLexProduct [[.vector .xmm (some .zero), .memory .m128],
          [.vector .xmm (some .zero), .memory .m128]] tuples := by
  have written : operandsText [maskedTarget, maskedTarget] =
      "W:xmm/m128 \x7bkz\x7d, W:xmm/m128 \x7bkz\x7d" := by decide +kernel
  obtain ⟨tuples, expanded, product, _⟩ := expand_complete [maskedTarget, maskedTarget]
  rw [written] at expanded
  exact ⟨written, tuples, expanded, product⟩

end Operand

end OpcodeTable
