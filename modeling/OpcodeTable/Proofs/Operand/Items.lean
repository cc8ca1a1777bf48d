import OpcodeTable.Operand.Expansion

/-!
# From lexemes to items

Each lexeme of an operand text adds to the items before it: a word adds an operand, and a group in braces adds
a mask, changes the last one or adds nothing. So the operands among the items are the words of the text.
A text has no items if one of its groups cannot be read or makes a mask zeroing that is not there.
-/

namespace OpcodeTable.Operand

variable {items : List Item}

def Lexeme.word? : Lexeme → Option (List Char)
  | .word text => some text
  | .group _ => none

def Item.word? : Item → Option (List Char)
  | .operand word => some word
  | .mask _ => none

theorem Lexeme.word?_eq_some_iff {lexeme : Lexeme} {text : List Char} :
    lexeme.word? = some text ↔ lexeme = .word text := by
  cases lexeme <;> simp [word?]

theorem Item.word?_eq_some_iff {item : Item} {word : List Char} :
    item.word? = some word ↔ item = .operand word := by
  cases item <;> simp [word?]

/-- What a lexeme does to the items before it, if it can be read there. -/
theorem addLexeme_cases {lexeme : Lexeme} {next : List Item}
    (added : addLexeme items lexeme = .ok next) :
    (∃ text, lexeme = .word text ∧ next = .operand text :: items) ∨
      ∃ inner remark, lexeme = .group inner ∧ readRemark inner = .ok remark ∧
        ((∃ masking, next = .mask masking :: items) ∨ next = items ∨
          ∃ masking earlier, items = .mask masking :: earlier ∧ next = .mask .zero :: earlier) := by
  cases lexeme with
  | word text => exact .inl ⟨text, rfl, (Except.ok.inj added).symm⟩
  | group inner =>
      unfold addLexeme at added
      cases read : readRemark inner with
      | error fault => simp [read] at added
      | ok remark =>
          refine .inr ⟨inner, remark, rfl, read, ?_⟩
          cases remark with
          | mask masking =>
              simp only [read, Except.ok.injEq] at added
              exact .inl ⟨masking, added.symm⟩
          | rounding =>
              simp only [read, Except.ok.injEq] at added
              exact .inr (.inl added.symm)
          | zeroing =>
              simp only [read] at added
              split at added
              · exact .inr (.inr ⟨_, _, rfl, (Except.ok.inj added).symm⟩)
              · cases added

theorem addLexeme_error_cases {lexeme : Lexeme} {fault : SyntaxError}
    (refused : addLexeme items lexeme = .error fault) :
    (∃ inner, lexeme = .group inner ∧ readRemark inner = .error fault) ∨
      fault = .danglingMask (Text.braced "z") := by
  cases lexeme with
  | word text => cases refused
  | group inner =>
      unfold addLexeme at refused
      cases read : readRemark inner with
      | error found =>
          simp only [read, Except.error.injEq] at refused
          exact .inl ⟨inner, rfl, by rw [read, refused]⟩
      | ok remark =>
          cases remark with
          | mask masking => simp [read] at refused
          | rounding => simp [read] at refused
          | zeroing =>
              simp only [read] at refused
              split at refused
              · cases refused
              · exact .inr (Except.error.inj refused).symm

theorem exists_unknownOperand_of_readRemark {inner : List Char} {fault : SyntaxError}
    (unread : readRemark inner = .error fault) : ∃ token, fault = .unknownOperand token := by
  simp only [readRemark] at unread
  split at unread
  case h_6 =>
    split at unread
    · cases unread
    · split at unread
      · cases unread
      · exact ⟨_, (Except.error.inj unread).symm⟩
  all_goals cases unread

theorem filterMap_word?_addLexeme {lexeme : Lexeme} {next : List Item}
    (added : addLexeme items lexeme = .ok next) :
    next.filterMap Item.word? = lexeme.word?.toList ++ items.filterMap Item.word? := by
  obtain ⟨text, rfl, rfl⟩ | ⟨inner, remark, rfl, _, ⟨masking, rfl⟩ | rfl | ⟨masking, earlier, rfl, rfl⟩⟩ :=
    addLexeme_cases added
  all_goals rfl

theorem addLexemes_cons_eq_ok_iff {lexeme : Lexeme} {rest : List Lexeme} {final : List Item} :
    addLexemes items (lexeme :: rest) = .ok final ↔
      ∃ next, addLexeme items lexeme = .ok next ∧ addLexemes next rest = .ok final := by
  rw [addLexemes]
  cases addLexeme items lexeme with
  | error fault => simp
  | ok next => simp

theorem filterMap_word?_addLexemes {lexemes : List Lexeme} {final : List Item}
    (added : addLexemes items lexemes = .ok final) :
    final.filterMap Item.word? = (lexemes.filterMap Lexeme.word?).reverse ++ items.filterMap Item.word? := by
  induction lexemes generalizing items with
  | nil =>
      obtain rfl := Except.ok.inj added
      rfl
  | cons lexeme rest ih =>
      obtain ⟨next, stepped, addedRest⟩ := addLexemes_cons_eq_ok_iff.mp added
      rw [ih addedRest, filterMap_word?_addLexeme stepped]
      cases lexeme with
      | word text => simp [Lexeme.word?]
      | group inner => rfl

theorem exists_remark_of_addLexemes {lexemes : List Lexeme} {final : List Item} {inner : List Char}
    (added : addLexemes items lexemes = .ok final) (listed : .group inner ∈ lexemes) :
    ∃ remark, readRemark inner = .ok remark := by
  induction lexemes generalizing items with
  | nil => cases listed
  | cons lexeme rest ih =>
      obtain ⟨next, stepped, addedRest⟩ := addLexemes_cons_eq_ok_iff.mp added
      rcases List.mem_cons.mp listed with rfl | later
      · obtain ⟨text, isWord, _⟩ | ⟨found, remark, isGroup, read, _⟩ := addLexeme_cases stepped
        · cases isWord
        · obtain rfl := Lexeme.group.inj isGroup
          exact ⟨remark, read⟩
      · exact ih addedRest later

theorem addLexemes_error_cases {lexemes : List Lexeme} {fault : SyntaxError}
    (refused : addLexemes items lexemes = .error fault) :
    (∃ inner, .group inner ∈ lexemes ∧ readRemark inner = .error fault) ∨
      fault = .danglingMask (Text.braced "z") := by
  induction lexemes generalizing items with
  | nil => cases refused
  | cons lexeme rest ih =>
      unfold addLexemes at refused
      cases stepped : addLexeme items lexeme with
      | error found =>
          rw [stepped] at refused
          obtain rfl := Except.error.inj refused
          apply (addLexeme_error_cases stepped).imp_left
          rintro ⟨inner, rfl, unread⟩
          exact ⟨inner, List.mem_cons_self, unread⟩
      | ok next =>
          rw [stepped] at refused
          apply (ih refused).imp_left
          rintro ⟨inner, listed, unread⟩
          exact ⟨inner, List.mem_cons_of_mem lexeme listed, unread⟩

variable {text : List Char}

private theorem addLexemes_of_readItems (read : readItems text = .ok items) :
    ∃ final, addLexemes [] (lexemes text) = .ok final ∧ items = final.reverse := by
  unfold readItems at read
  cases added : addLexemes [] (lexemes text) with
  | error fault =>
      rw [added] at read
      cases read
  | ok final =>
      rw [added] at read
      exact ⟨final, rfl, (Except.ok.inj read).symm⟩

/-- The operands among the items of a text are its words. -/
theorem filterMap_word?_readItems (read : readItems text = .ok items) :
    items.filterMap Item.word? = (lexemes text).filterMap Lexeme.word? := by
  obtain ⟨final, added, rfl⟩ := addLexemes_of_readItems read
  rw [List.filterMap_reverse, filterMap_word?_addLexemes added, List.filterMap_nil, List.append_nil,
    List.reverse_reverse]

theorem mem_operand_readItems (read : readItems text = .ok items) {word : List Char} :
    .operand word ∈ items ↔ .word word ∈ lexemes text := by
  have same := filterMap_word?_readItems read
  calc
    .operand word ∈ items ↔ word ∈ items.filterMap Item.word? := by
      simp [Item.word?_eq_some_iff]
    _ ↔ word ∈ (lexemes text).filterMap Lexeme.word? := by rw [same]
    _ ↔ .word word ∈ lexemes text := by simp [Lexeme.word?_eq_some_iff]

theorem exists_remark_of_readItems (read : readItems text = .ok items) {inner : List Char}
    (listed : .group inner ∈ lexemes text) : ∃ remark, readRemark inner = .ok remark := by
  obtain ⟨final, added, _⟩ := addLexemes_of_readItems read
  exact exists_remark_of_addLexemes added listed

theorem readItems_error_cases {fault : SyntaxError} (refused : readItems text = .error fault) :
    (∃ inner, .group inner ∈ lexemes text ∧ readRemark inner = .error fault) ∨
      fault = .danglingMask (Text.braced "z") := by
  unfold readItems at refused
  cases added : addLexemes [] (lexemes text) with
  | error found =>
      rw [added] at refused
      obtain rfl := Except.error.inj refused
      exact addLexemes_error_cases added
  | ok final =>
      rw [added] at refused
      cases refused

end OpcodeTable.Operand
