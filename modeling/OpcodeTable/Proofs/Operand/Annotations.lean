import Mathlib.Tactic.SplitIfs
import OpcodeTable.Operand.Expansion

/-!
# Annotations of operand texts

Annotations in square brackets, remarks on rounding, and the two ways to write a zeroing mask leave no trace
in what an operand text stands for. They may stand wherever the text is in no bracket and in no brace, even
inside a word; only a remark on rounding ends the word before it and so needs a place where that word ends.

The lexemes of a text can be taken apart at such a place. What stands in front is the same with and without
the annotation, and what stands behind does not depend on it.
-/

namespace OpcodeTable.Operand

/-- Every bracket and every brace that the text opens is closed in it. -/
inductive Outside : List Char → Prop where
  | nil : Outside []
  | plain {c : Char} {rest : List Char} (notBracket : c ≠ '[') (notBrace : c ≠ '\x7b')
      (behind : Outside rest) : Outside (c :: rest)
  | bracketed {inner rest : List Char} (unclosed : ']' ∉ inner) (behind : Outside rest) :
      Outside ('[' :: inner ++ ']' :: rest)
  | group {inner rest : List Char} (unclosed : '\x7d' ∉ inner) (behind : Outside rest) :
      Outside ('\x7b' :: inner ++ '\x7d' :: rest)

/-- A word in front of the text goes no further: the text is empty, or it starts with a blank, a comma or
an opening brace. -/
def EndsWord (text : List Char) : Prop :=
  ∀ c ∈ text.head?, c = ',' ∨ c = '\x7b' ∨ Text.isBlank c = true

namespace Scan

variable {inner : List Char}

theorem foldl_step_bracketed (unclosed : ']' ∉ inner) (found : List Lexeme) (word : List Char) :
    inner.foldl step (.bracketed found word) = .bracketed found word := by
  induction inner with
  | nil => rfl
  | cons c rest ih =>
      obtain ⟨notClosing, restUnclosed⟩ := List.ne_and_not_mem_of_not_mem_cons unclosed
      rw [List.foldl_cons, step, if_neg notClosing.symm, ih restUnclosed]

theorem foldl_step_braces (unclosed : '\x7d' ∉ inner) (found : List Lexeme) (taken : List Char) :
    inner.foldl step (.braces found taken) = .braces found (inner.reverse ++ taken) := by
  induction inner generalizing taken with
  | nil => rfl
  | cons c rest ih =>
      obtain ⟨notClosing, restUnclosed⟩ := List.ne_and_not_mem_of_not_mem_cons unclosed
      rw [List.foldl_cons, step, if_neg notClosing.symm, ih restUnclosed, List.reverse_cons,
        List.append_assoc]
      rfl

/-- An annotation gives the scan back as it was. -/
theorem foldl_step_brackets (unclosed : ']' ∉ inner) (found : List Lexeme) (word rest : List Char) :
    ('[' :: inner ++ ']' :: rest).foldl step (.outside found word) =
      rest.foldl step (.outside found word) := by
  have opened : step (.outside found word) '[' = .bracketed found word := rfl
  have closed : step (.bracketed found word) ']' = .outside found word := rfl
  rw [List.cons_append, List.foldl_cons, opened, List.foldl_append, foldl_step_bracketed unclosed,
    List.foldl_cons, closed]

theorem foldl_step_group (unclosed : '\x7d' ∉ inner) (found : List Lexeme) (word rest : List Char) :
    ('\x7b' :: inner ++ '\x7d' :: rest).foldl step (.outside found word) =
      rest.foldl step (.outside (.group inner :: flush found word) []) := by
  have opened : step (.outside found word) '\x7b' = .braces (flush found word) [] := rfl
  have closed : step (.braces (flush found word) inner.reverse) '\x7d' =
      .outside (.group inner :: flush found word) [] := by
    rw [step, if_pos rfl, List.reverse_reverse]
  rw [List.cons_append, List.foldl_cons, opened, List.foldl_append, foldl_step_braces unclosed,
    List.append_nil, List.foldl_cons, closed]

theorem exists_outside_of_step {c : Char} (notBracket : c ≠ '[') (notBrace : c ≠ '\x7b')
    (found : List Lexeme) (word : List Char) :
    ∃ later next, step (.outside found word) c = .outside later next := by
  rw [step, if_neg notBracket, if_neg notBrace]
  split
  · exact ⟨_, _, rfl⟩
  · exact ⟨_, _, rfl⟩

end Scan

theorem Outside.exists_scan {text : List Char} (outside : Outside text) (found : List Lexeme)
    (word : List Char) :
    ∃ later next, text.foldl Scan.step (.outside found word) = .outside later next := by
  induction outside generalizing found word with
  | nil => exact ⟨found, word, rfl⟩
  | plain notBracket notBrace _ ih =>
      obtain ⟨later, next, stepped⟩ := Scan.exists_outside_of_step notBracket notBrace found word
      rw [List.foldl_cons, stepped]
      exact ih later next
  | bracketed unclosed _ ih =>
      rw [Scan.foldl_step_brackets unclosed]
      exact ih found word
  | group unclosed _ ih =>
      rw [Scan.foldl_step_group unclosed]
      exact ih _ []

namespace Scan

/-- What brings a scan back out of the brackets or braces that it is in. -/
def Escapes : Scan → List Char → Prop
  | .outside _ _, text => Outside text
  | .bracketed _ _, text => ∃ inner rest, text = inner ++ ']' :: rest ∧ ']' ∉ inner ∧ Outside rest
  | .braces _ _, text => ∃ inner rest, text = inner ++ '\x7d' :: rest ∧ '\x7d' ∉ inner ∧ Outside rest

private theorem exists_closing_cons {closing c : Char} {text : List Char} (notClosing : c ≠ closing)
    (escapes : ∃ inner rest, text = inner ++ closing :: rest ∧ closing ∉ inner ∧ Outside rest) :
    ∃ inner rest, c :: text = inner ++ closing :: rest ∧ closing ∉ inner ∧ Outside rest := by
  obtain ⟨inner, rest, rfl, unclosed, outside⟩ := escapes
  exact ⟨c :: inner, rest, rfl, List.not_mem_cons_of_ne_of_not_mem notClosing.symm unclosed, outside⟩

theorem escapes_of_foldl_step {scan : Scan} {text : List Char} {later : List Lexeme} {next : List Char}
    (scanned : text.foldl step scan = .outside later next) : scan.Escapes text := by
  induction text generalizing scan with
  | nil =>
      obtain rfl : scan = .outside later next := scanned
      exact .nil
  | cons c rest ih =>
      have escapes := ih scanned
      cases scan with
      | outside found word =>
          rw [step] at escapes
          split_ifs at escapes with bracket brace separator
          · obtain ⟨inner, behind, rfl, unclosed, outside⟩ := escapes
            rw [bracket]
            exact .bracketed unclosed outside
          · obtain ⟨inner, behind, rfl, unclosed, outside⟩ := escapes
            rw [brace]
            exact .group unclosed outside
          · exact .plain bracket brace escapes
          · exact .plain bracket brace escapes
      | bracketed found word =>
          rw [step] at escapes
          split_ifs at escapes with closing
          · exact ⟨[], rest, by rw [closing]; rfl, List.not_mem_nil, escapes⟩
          · exact exists_closing_cons closing escapes
      | braces found taken =>
          rw [step] at escapes
          split_ifs at escapes with closing
          · exact ⟨[], rest, by rw [closing]; rfl, List.not_mem_nil, escapes⟩
          · exact exists_closing_cons closing escapes

end Scan

/-- A scan is outside of brackets and braces exactly behind the texts that close what they open. -/
theorem outside_iff {text : List Char} :
    Outside text ↔ ∃ found word, text.foldl Scan.step (.outside [] []) = .outside found word := by
  constructor
  · intro outside
    exact outside.exists_scan [] []
  · rintro ⟨found, word, scanned⟩
    exact Scan.escapes_of_foldl_step scanned

namespace Scan

/-- The scan with lexemes that were found before it started. -/
def behind (earlier : List Lexeme) : Scan → Scan
  | .outside found word => .outside (found ++ earlier) word
  | .bracketed found word => .bracketed (found ++ earlier) word
  | .braces found inner => .braces (found ++ earlier) inner

variable (earlier : List Lexeme) (scan : Scan)

theorem flush_append (found : List Lexeme) (word : List Char) :
    flush (found ++ earlier) word = flush found word ++ earlier :=
  (List.append_assoc _ found earlier).symm

theorem step_behind (c : Char) : step (scan.behind earlier) c = (step scan c).behind earlier := by
  cases scan with
  | outside found word =>
      simp only [behind, step, flush_append]
      split_ifs <;> rfl
  | bracketed found word =>
      simp only [behind, step]
      split_ifs <;> rfl
  | braces found inner =>
      simp only [behind, step]
      split_ifs <;> rfl

theorem foldl_step_behind (text : List Char) :
    text.foldl step (scan.behind earlier) = (text.foldl step scan).behind earlier := by
  induction text generalizing scan with
  | nil => rfl
  | cons c rest ih => rw [List.foldl_cons, step_behind, ih, List.foldl_cons]

theorem finish_behind : (scan.behind earlier).finish = scan.finish ++ earlier := by
  cases scan with
  | outside found word => exact flush_append earlier found word
  | bracketed found word => exact flush_append earlier found word
  | braces found inner => rfl

end Scan

theorem finish_foldl_step_outside (earlier : List Lexeme) (text : List Char) :
    (text.foldl Scan.step (.outside earlier [])).finish = (lexemes text).reverse ++ earlier := by
  have started : Scan.outside earlier [] = (Scan.outside [] []).behind earlier := rfl
  rw [started, Scan.foldl_step_behind, Scan.finish_behind, lexemes, List.reverse_reverse]

private theorem finish_foldl_step_of_endsWord {text : List Char} (ends : EndsWord text)
    (found : List Lexeme) (word : List Char) :
    (text.foldl Scan.step (.outside found word)).finish =
      (text.foldl Scan.step (.outside (Scan.flush found word) [])).finish := by
  cases text with
  | nil => rfl
  | cons c rest =>
      -- The first character ends the word, and then it ends the empty word, which is no lexeme.
      have sameStep : Scan.step (.outside found word) c =
          Scan.step (.outside (Scan.flush found word) []) c := by
        rcases ends c rfl with rfl | rfl | blank
        · rfl
        · rfl
        · have notBracket : c ≠ '[' := by
            rintro rfl
            cases blank
          have notBrace : c ≠ '\x7b' := by
            rintro rfl
            cases blank
          simp only [Scan.step, if_neg notBracket, if_neg notBrace, blank, Bool.or_true, if_true]
          rfl
      rw [List.foldl_cons, List.foldl_cons, sameStep]

/-- At a place that is in no bracket and no brace, and where no word goes on, a text can be taken apart. -/
theorem lexemes_append {front back : List Char} (outside : Outside front) (ends : EndsWord back) :
    lexemes (front ++ back) = lexemes front ++ lexemes back := by
  obtain ⟨found, word, scanned⟩ := outside.exists_scan [] []
  have frontEq : lexemes front = (Scan.flush found word).reverse := by
    rw [lexemes, scanned]
    rfl
  rw [lexemes, List.foldl_append, scanned, finish_foldl_step_of_endsWord ends,
    finish_foldl_step_outside, frontEq, List.reverse_append, List.reverse_reverse]

theorem lexemes_group {inner : List Char} (unclosed : '\x7d' ∉ inner) (rest : List Char) :
    lexemes ('\x7b' :: inner ++ '\x7d' :: rest) = .group inner :: lexemes rest := by
  have flushed : Scan.flush [] [] = [] := rfl
  rw [lexemes, Scan.foldl_step_group unclosed, flushed, finish_foldl_step_outside, List.reverse_append,
    List.reverse_reverse]
  rfl

theorem lexemes_brackets {front inner : List Char} (outside : Outside front) (unclosed : ']' ∉ inner)
    (back : List Char) : lexemes (front ++ ('[' :: inner ++ ']' :: back)) = lexemes (front ++ back) := by
  obtain ⟨found, word, scanned⟩ := outside.exists_scan [] []
  have scannedBehind (text : List Char) :
      (front ++ text).foldl Scan.step (.outside [] []) = text.foldl Scan.step (.outside found word) := by
    rw [List.foldl_append, scanned]
  rw [lexemes, lexemes, scannedBehind, scannedBehind, Scan.foldl_step_brackets unclosed]

/-- Lexemes that do the same to any items also do so behind other lexemes. -/
theorem addLexemes_append_congr {left right : List Lexeme}
    (same : ∀ items, addLexemes items left = addLexemes items right) (front : List Lexeme)
    (items : List Item) : addLexemes items (front ++ left) = addLexemes items (front ++ right) := by
  induction front generalizing items with
  | nil => exact same items
  | cons lexeme rest ih =>
      rw [List.cons_append, List.cons_append, addLexemes, addLexemes]
      cases addLexeme items lexeme with
      | error fault => rfl
      | ok next => exact ih next

theorem expand_congr {first second : String}
    (same : addLexemes [] (lexemes first.toList) = addLexemes [] (lexemes second.toList)) :
    expand first = expand second := by
  rw [expand, expand, readItems, readItems, same]

private theorem toList_braced_append (inner : String) (after : List Char) :
    (Text.braced inner).toList ++ after = '\x7b' :: inner.toList ++ '\x7d' :: after := by
  simp [Text.braced]

private theorem lexemes_braced {before : List Char} (outside : Outside before) {inner : String}
    (unclosed : '\x7d' ∉ inner.toList) (after : List Char) :
    lexemes (before ++ ((Text.braced inner).toList ++ after)) =
      lexemes before ++ .group inner.toList :: lexemes after := by
  have ends : EndsWord ('\x7b' :: inner.toList ++ '\x7d' :: after) := by
    intro c first
    exact .inr (.inl (Option.some.inj first).symm)
  rw [toList_braced_append, lexemes_append outside ends, lexemes_group unclosed]

/-- At any place of a text that is in no bracket and no brace: an annotation changes nothing; neither does
a remark on rounding, if no word goes on behind it; and a zeroing mask may be written as a mask that is
then made zeroing. In all cases the tuples or the error are the same, and so are the words that go into
a report. -/
theorem expand_annotated (before after : String) (outside : Outside before.toList) :
    (∀ remark : String, ']' ∉ remark.toList →
      expand (before ++ "[" ++ remark ++ "]" ++ after) = expand (before ++ after)) ∧
    (EndsWord after.toList → ∀ remark ∈ ["er", "sae"],
      expand (before ++ Text.braced remark ++ after) = expand (before ++ after)) ∧
    expand (before ++ Text.braced "k" ++ Text.braced "z" ++ after) =
      expand (before ++ Text.braced "kz" ++ after) := by
  refine ⟨?_, ?_, ?_⟩
  · intro remark unclosed
    apply expand_congr
    have annotated := lexemes_brackets outside unclosed after.toList
    simpa using congrArg (addLexemes []) annotated
  · intro ends remark remarkMem
    apply expand_congr
    have listed : remark = "er" ∨ remark = "sae" := by simpa using remarkMem
    have unclosed : '\x7d' ∉ remark.toList := by
      rcases listed with rfl | rfl <;> decide
    have dropped (items : List Item) :
        addLexemes items (.group remark.toList :: lexemes after.toList) =
          addLexemes items (lexemes after.toList) := by
      rcases listed with rfl | rfl <;> rfl
    rw [String.toList_append, String.toList_append, String.toList_append, List.append_assoc,
      lexemes_braced outside unclosed, lexemes_append outside ends]
    exact addLexemes_append_congr dropped _ []
  · apply expand_congr
    have merged (items : List Item) :
        addLexemes items (.group ['k'] :: .group ['z'] :: lexemes after.toList) =
          addLexemes items (.group ['k', 'z'] :: lexemes after.toList) := rfl
    have zeroing : lexemes ((Text.braced "z").toList ++ after.toList) =
        .group "z".toList :: lexemes after.toList := by
      rw [toList_braced_append, lexemes_group (by decide)]
    simp only [String.toList_append, List.append_assoc]
    rw [lexemes_braced outside (by decide), lexemes_braced outside (by decide), zeroing]
    exact addLexemes_append_congr merged _ []

theorem expand_annotated_vector :
    Outside "W:x[31:0]mm".toList ∧ ']' ∉ "lock".toList ∧ EndsWord ", r32".toList ∧
      expand "W:x[31:0]mm[lock], r32" = expand "W:x[31:0]mm, r32" ∧
      expand "W:x[31:0]mm\x7bsae\x7d, r32" = expand "W:x[31:0]mm, r32" ∧
      expand "W:x[31:0]mm\x7bk\x7d\x7bz\x7d, r32" = expand "W:x[31:0]mm\x7bkz\x7d, r32" := by
  have outside : Outside "W:x[31:0]mm".toList :=
    outside_iff.mpr ⟨[], "W:xmm".toList.reverse, by decide +kernel⟩
  have unclosed : ']' ∉ "lock".toList := by decide
  have ends : EndsWord ", r32".toList := by
    intro c first
    exact .inl (Option.some.inj first).symm
  obtain ⟨annotated, rounded, zeroed⟩ := expand_annotated "W:x[31:0]mm" ", r32" outside
  exact ⟨outside, unclosed, ends, annotated "lock" unclosed, rounded ends "sae" (by decide), zeroed⟩

end OpcodeTable.Operand
