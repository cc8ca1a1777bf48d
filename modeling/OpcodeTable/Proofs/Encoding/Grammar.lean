import Mathlib.Data.List.Forall2
import OpcodeTable.Proofs.Encoding.Description

/-!
# Which texts are encodings

A text is an encoding exactly if its words spell tokens and one to four bytes of the tokens are opcode
bytes; the tokens then describe the encoding. Any other text has the fault of the leftmost word that
spells no token or brings a fifth opcode byte, and lacks an opcode if there is no such word.
-/

namespace OpcodeTable.Encoding

theorem exists_spelling {words : List (List Char)} {tokens : List Token}
    (spelled : List.Forall₂ Spells words tokens) {token : Token} (tokenMem : token ∈ tokens) :
    ∃ word, Spells word token := by
  induction spelled with
  | nil => cases tokenMem
  | cons first _ ih =>
      rcases List.mem_cons.mp tokenMem with rfl | later
      · exact ⟨_, first⟩
      · exact ih later

/-- The words of the text spell the tokens, and the tokens have as many opcode bytes as they may. -/
structure Accepts (text : String) (tokens : List Token) : Prop where
  spelled : List.Forall₂ Spells (Text.words text.toList) tokens
  opcode_pos : 1 ≤ (opcodeBytes tokens).length
  opcode_le : (opcodeBytes tokens).length ≤ opcodeLimit

/-- The fault of a text that is no encoding, found from left to right. -/
inductive FirstFault (text : String) : SyntaxError → Prop where
  | misspelled {before after : List (List Char)} {word : List Char} {tokens : List Token}
      (cut : Text.words text.toList = before ++ word :: after)
      (spelled : List.Forall₂ Spells before tokens)
      (short : (opcodeBytes tokens).length ≤ opcodeLimit)
      (unspelled : ∀ token, ¬Spells word token) : FirstFault text (wordFault text word)
  | tooLong {before after : List (List Char)} {word : List Char} {tokens : List Token} {token : Token}
      (cut : Text.words text.toList = before ++ word :: after)
      (spelled : List.Forall₂ Spells before tokens)
      (short : (opcodeBytes tokens).length ≤ opcodeLimit)
      (last : Spells word token)
      (long : opcodeLimit < (opcodeBytes (tokens ++ [token])).length) :
      FirstFault text (.opcodeTooLong text opcodeLimit)
  | missing {tokens : List Token} (spelled : List.Forall₂ Spells (Text.words text.toList) tokens)
      (bare : opcodeBytes tokens = []) : FirstFault text (.missingOpcode text)

namespace Draft

variable {encoding : String} {draft filled : Draft} {words : List (List Char)}

theorem opcode_length_le_add (draft : Draft) (token : Token) :
    draft.opcode.length ≤ (draft.add token).opcode.length := by
  rw [opcode_add]
  split_ifs
  · exact Nat.le_refl _
  · rw [List.length_append]
    exact Nat.le_add_right _ _

theorem opcode_length_le_foldl_add (draft : Draft) (tokens : List Token) :
    draft.opcode.length ≤ (tokens.foldl add draft).opcode.length := by
  induction tokens generalizing draft with
  | nil => exact Nat.le_refl _
  | cons token rest ih => exact Nat.le_trans (opcode_length_le_add draft token) (ih (draft.add token))

def addWord (encoding : String) (draft : Draft) (word : List Char) : Except SyntaxError Draft :=
  match readToken encoding word with
  | .error fault => .error fault
  | .ok token =>
      if (draft.add token).opcode.length > opcodeLimit then
        .error (.opcodeTooLong encoding opcodeLimit)
      else
        .ok (draft.add token)

theorem addWords_cons (encoding : String) (draft : Draft) (word : List Char) (rest : List (List Char)) :
    addWords encoding draft (word :: rest) =
      match addWord encoding draft word with
      | .error fault => .error fault
      | .ok next => addWords encoding next rest := by
  rw [addWords, addWord]
  cases readToken encoding word with
  | error fault => rfl
  | ok token =>
      dsimp only
      split_ifs <;> rfl

theorem addWord_eq_ok_iff {word : List Char} :
    addWord encoding draft word = .ok filled ↔
      ∃ token, Spells word token ∧ (draft.add token).opcode.length ≤ opcodeLimit ∧
        draft.add token = filled := by
  unfold addWord
  constructor
  · intro done
    split at done
    · cases done
    · rename_i token read
      split_ifs at done with long
      exact ⟨token, readToken_eq_ok_iff.mp read, Nat.le_of_not_gt long, Except.ok.inj done⟩
  · rintro ⟨token, spelled, short, rfl⟩
    rw [readToken_of_spells encoding spelled]
    exact if_neg (Nat.not_lt.mpr short)

theorem addWord_eq_error_iff {word : List Char} {fault : SyntaxError} :
    addWord encoding draft word = .error fault ↔
      (∀ token, ¬Spells word token) ∧ fault = wordFault encoding word ∨
        ∃ token, Spells word token ∧ opcodeLimit < (draft.add token).opcode.length ∧
          fault = .opcodeTooLong encoding opcodeLimit := by
  unfold addWord
  cases read : readToken encoding word with
  | error found =>
      obtain ⟨unspelled, rfl⟩ := readToken_eq_error_iff.mp read
      simp [unspelled, eq_comm]
  | ok token =>
      have spelled := readToken_eq_ok_iff.mp read
      dsimp only
      constructor
      · intro failed
        split_ifs at failed with long
        exact .inr ⟨token, spelled, long, (Except.error.inj failed).symm⟩
      · rintro (⟨unspelled, _⟩ | ⟨found, spelledToo, long, rfl⟩)
        · exact absurd spelled (unspelled token)
        · rw [Spells.unique spelled spelledToo, if_pos long]

/-- Words can be filled in if they spell tokens that leave the opcode short enough. -/
theorem addWords_eq_ok_iff (short : draft.opcode.length ≤ opcodeLimit) :
    addWords encoding draft words = .ok filled ↔
      ∃ tokens, List.Forall₂ Spells words tokens ∧ filled.opcode.length ≤ opcodeLimit ∧
        tokens.foldl add draft = filled := by
  induction words generalizing draft with
  | nil =>
      constructor
      · intro done
        obtain rfl := Except.ok.inj done
        exact ⟨[], .nil, short, rfl⟩
      · rintro ⟨tokens, spelled, _, rfl⟩
        cases spelled
        rfl
  | cons word rest ih =>
      rw [addWords_cons]
      constructor
      · intro done
        cases added : addWord encoding draft word with
        | error fault =>
            rw [added] at done
            cases done
        | ok next =>
            rw [added] at done
            obtain ⟨token, first, addedShort, rfl⟩ := addWord_eq_ok_iff.mp added
            obtain ⟨tokens, others, filledShort, rfl⟩ := (ih addedShort).mp done
            exact ⟨token :: tokens, .cons first others, filledShort, rfl⟩
      · rintro ⟨tokens, spelled, filledShort, rfl⟩
        obtain ⟨token, tail, first, others, rfl⟩ := List.forall₂_cons_left_iff.mp spelled
        have addedShort : (draft.add token).opcode.length ≤ opcodeLimit :=
          Nat.le_trans (opcode_length_le_foldl_add (draft.add token) tail) filledShort
        rw [addWord_eq_ok_iff.mpr ⟨token, first, addedShort, rfl⟩]
        exact (ih addedShort).mpr ⟨tail, others, filledShort, rfl⟩

/-- A list of words fails at the first word that fails. -/
theorem addWords_eq_error_iff {fault : SyntaxError} :
    addWords encoding draft words = .error fault ↔
      ∃ before word after filled, words = before ++ word :: after ∧
        addWords encoding draft before = .ok filled ∧ addWord encoding filled word = .error fault := by
  induction words generalizing draft with
  | nil => simp [addWords]
  | cons word rest ih =>
      rw [addWords_cons]
      cases added : addWord encoding draft word with
      | error found =>
          constructor
          · intro failed
            exact ⟨[], word, rest, draft, rfl, rfl, by rw [added, Except.error.inj failed]⟩
          · rintro ⟨before, failing, after, filled, cut, done, failed⟩
            cases before with
            | nil =>
                obtain ⟨rfl, rfl⟩ := List.cons.inj cut
                obtain rfl := Except.ok.inj done
                rw [← failed, added]
            | cons first before =>
                obtain ⟨rfl, rfl⟩ := List.cons.inj cut
                rw [addWords_cons, added] at done
                cases done
      | ok next =>
          dsimp only
          rw [ih]
          constructor
          · rintro ⟨before, failing, after, filled, rfl, done, failed⟩
            refine ⟨word :: before, failing, after, filled, rfl, ?_, failed⟩
            rw [addWords_cons, added]
            exact done
          · rintro ⟨before, failing, after, filled, cut, done, failed⟩
            cases before with
            | nil =>
                obtain ⟨rfl, rfl⟩ := List.cons.inj cut
                obtain rfl := Except.ok.inj done
                rw [added] at failed
                cases failed
            | cons first before =>
                obtain ⟨rfl, rfl⟩ := List.cons.inj cut
                rw [addWords_cons, added] at done
                exact ⟨before, failing, after, filled, rfl, done, failed⟩

end Draft

private theorem opcode_add_foldl_add (tokens : List Token) (token : Token) :
    ((tokens.foldl Draft.add {}).add token).opcode = opcodeBytes (tokens ++ [token]) := by
  rw [← Draft.opcode_foldl_add, List.foldl_concat]

private theorem addWords_empty_iff (text : String) {words : List (List Char)} {filled : Draft} :
    Draft.addWords text {} words = .ok filled ↔
      ∃ tokens, List.Forall₂ Spells words tokens ∧ (opcodeBytes tokens).length ≤ opcodeLimit ∧
        tokens.foldl Draft.add {} = filled := by
  have emptyShort : ({} : Draft).opcode.length ≤ opcodeLimit := Nat.zero_le opcodeLimit
  rw [Draft.addWords_eq_ok_iff emptyShort]
  constructor
  · rintro ⟨tokens, spelled, short, rfl⟩
    exact ⟨tokens, spelled, by rwa [← Draft.opcode_foldl_add], rfl⟩
  · rintro ⟨tokens, spelled, short, rfl⟩
    exact ⟨tokens, spelled, by rwa [Draft.opcode_foldl_add], rfl⟩

theorem parse_eq_ok_iff {text : String} {encoding : Encoding} :
    parse text = .ok encoding ↔ ∃ tokens, Accepts text tokens ∧ encoding.DescribedBy tokens := by
  constructor
  · intro parsed
    unfold parse at parsed
    split at parsed
    · cases parsed
    · rename_i filled done
      split_ifs at parsed with bare
      obtain rfl := Except.ok.inj parsed
      obtain ⟨tokens, spelled, short, rfl⟩ := (addWords_empty_iff text).mp done
      rw [Draft.opcode_foldl_add, List.isEmpty_iff] at bare
      exact ⟨tokens, ⟨spelled, List.length_pos_iff.mpr bare, short⟩, Draft.finish_foldl_add tokens⟩
  · rintro ⟨tokens, accepted, described⟩
    have done := (addWords_empty_iff text).mpr ⟨tokens, accepted.spelled, accepted.opcode_le, rfl⟩
    have notBare : ¬(tokens.foldl Draft.add {}).opcode.isEmpty = true := by
      rw [Draft.opcode_foldl_add, List.isEmpty_iff]
      exact List.length_pos_iff.mp accepted.opcode_pos
    rw [parse, done, described.unique (Draft.finish_foldl_add tokens)]
    exact if_neg notBare

private theorem parse_of_refused {text : String} {before after : List (List Char)} {word : List Char}
    {tokens : List Token} {fault : SyntaxError}
    (cut : Text.words text.toList = before ++ word :: after)
    (spelled : List.Forall₂ Spells before tokens)
    (short : (opcodeBytes tokens).length ≤ opcodeLimit)
    (refused : Draft.addWord text (tokens.foldl Draft.add {}) word = .error fault) :
    parse text = .error fault := by
  have done := (addWords_empty_iff text).mpr ⟨tokens, spelled, short, rfl⟩
  rw [parse, Draft.addWords_eq_error_iff.mpr ⟨before, word, after, _, cut, done, refused⟩]

theorem parse_eq_error_iff {text : String} {fault : SyntaxError} :
    parse text = .error fault ↔ FirstFault text fault := by
  constructor
  · intro failed
    unfold parse at failed
    split at failed
    · rename_i found stopped
      obtain rfl := Except.error.inj failed
      obtain ⟨before, word, after, filled, cut, done, refused⟩ := Draft.addWords_eq_error_iff.mp stopped
      obtain ⟨tokens, spelled, short, rfl⟩ := (addWords_empty_iff text).mp done
      rcases Draft.addWord_eq_error_iff.mp refused with ⟨unspelled, rfl⟩ | ⟨token, last, long, rfl⟩
      · exact .misspelled cut spelled short unspelled
      · rw [opcode_add_foldl_add] at long
        exact .tooLong cut spelled short last long
    · rename_i filled done
      split_ifs at failed with bare
      obtain rfl := Except.error.inj failed
      obtain ⟨tokens, spelled, short, rfl⟩ := (addWords_empty_iff text).mp done
      rw [Draft.opcode_foldl_add, List.isEmpty_iff] at bare
      exact .missing spelled bare
  · intro found
    cases found with
    | misspelled cut spelled short unspelled =>
        exact parse_of_refused cut spelled short
          (Draft.addWord_eq_error_iff.mpr (.inl ⟨unspelled, rfl⟩))
    | tooLong cut spelled short last long =>
        rw [← opcode_add_foldl_add] at long
        exact parse_of_refused cut spelled short
          (Draft.addWord_eq_error_iff.mpr (.inr ⟨_, last, long, rfl⟩))
    | missing spelled bare =>
        rename_i tokens
        have short : (opcodeBytes tokens).length ≤ opcodeLimit := by
          rw [bare]
          exact Nat.zero_le opcodeLimit
        have done := (addWords_empty_iff text).mpr ⟨tokens, spelled, short, rfl⟩
        rw [parse, done]
        exact if_pos (by rw [Draft.opcode_foldl_add, bare, List.isEmpty_nil])

/-- What is read from a text: the texts that are accepted, what their encodings are, and the fault of
every other text. -/
theorem parse_grammar (text : String) :
    ((∃ encoding, parse text = .ok encoding) ↔ ∃ tokens, Accepts text tokens) ∧
      (∀ encoding, parse text = .ok encoding ↔
        ∃ tokens, Accepts text tokens ∧ encoding.DescribedBy tokens) ∧
      ∀ fault, parse text = .error fault ↔ FirstFault text fault := by
  refine ⟨?_, fun _ => parse_eq_ok_iff, fun _ => parse_eq_error_iff⟩
  constructor
  · rintro ⟨encoding, parsed⟩
    obtain ⟨tokens, accepted, _⟩ := parse_eq_ok_iff.mp parsed
    exact ⟨tokens, accepted⟩
  · rintro ⟨tokens, accepted⟩
    exact ⟨_, parse_eq_ok_iff.mpr ⟨tokens, accepted, Draft.finish_foldl_add tokens⟩⟩

end OpcodeTable.Encoding
