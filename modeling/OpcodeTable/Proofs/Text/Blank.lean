import Mathlib.Data.List.DropRight
import OpcodeTable.Text.Words

/-!
# Trimmed texts and the first word

Trimming takes away blank characters at both ends until there are none, so a text is its own trimming
exactly if it neither starts nor ends with a blank character. What a trimmed text has in front of its first
blank character is the first word of the text before trimming.
-/

namespace OpcodeTable.Text

variable {text : List Char}

/-- The text neither starts nor ends with a blank character. -/
structure Trimmed (text : List Char) : Prop where
  first : ∀ c, text.head? = some c → isBlank c = false
  last : ∀ c, text.getLast? = some c → isBlank c = false

theorem trimmed_of_unblank (unblank : ∀ c ∈ text, isBlank c = false) : Trimmed text where
  first := fun c opens => unblank c (List.mem_of_head? opens)
  last := fun c closes => unblank c (List.mem_of_getLast? closes)

theorem Trimmed.append {front back : List Char} (frontTrimmed : Trimmed front)
    (frontNonempty : front ≠ []) (backTrimmed : Trimmed back) (backNonempty : back ≠ [])
    (between : List Char) : Trimmed (front ++ (between ++ back)) where
  first := by
    intro c opens
    rw [List.head?_append_of_ne_nil front frontNonempty] at opens
    exact frontTrimmed.first c opens
  last := by
    intro c closes
    rw [List.getLast?_append_of_ne_nil _ (by simp [backNonempty]),
      List.getLast?_append_of_ne_nil _ backNonempty] at closes
    exact backTrimmed.last c closes

theorem trimEnd_eq_rdropWhile (text : List Char) : trimEnd text = text.rdropWhile isBlank :=
  rfl

theorem trimEnd_append_blanks (text : List Char) :
    ∃ blanks, text = trimEnd text ++ blanks ∧ ∀ c ∈ blanks, isBlank c = true := by
  refine ⟨text.rtakeWhile isBlank, ?_, ?_⟩
  · rw [trimEnd_eq_rdropWhile, List.rdropWhile_append_rtakeWhile]
  · intro c blankMem
    exact List.mem_rtakeWhile_imp blankMem

theorem head?_trimEnd {c : Char} (opens : (trimEnd text).head? = some c) : text.head? = some c := by
  obtain ⟨blanks, textEq, -⟩ := trimEnd_append_blanks text
  rw [textEq, List.head?_append, opens, Option.some_or]

theorem isBlank_head?_trimStart {c : Char} (opens : (trimStart text).head? = some c) :
    isBlank c = false := by
  have unblank := List.head?_dropWhile_not isBlank text
  rw [trimStart] at opens
  rw [opens] at unblank
  simpa using unblank

theorem trimBlanks_trimmed (text : List Char) : Trimmed (trimBlanks text) where
  first := fun _ opens => isBlank_head?_trimStart (head?_trimEnd opens)
  last := by
    intro c closes
    rw [trimBlanks, trimEnd, List.getLast?_reverse] at closes
    exact isBlank_head?_trimStart closes

theorem Trimmed.trimStart_eq (trimmed : Trimmed text) : trimStart text = text := by
  cases text with
  | nil => rfl
  | cons c rest =>
      rw [trimStart, List.dropWhile_cons_of_neg]
      simpa using trimmed.first c rfl

theorem Trimmed.trimEnd_eq (trimmed : Trimmed text) : trimEnd text = text := by
  rw [trimEnd_eq_rdropWhile, List.rdropWhile_eq_self_iff]
  intro nonempty
  simpa using trimmed.last _ (List.getLast?_eq_some_getLast nonempty)

theorem Trimmed.trimBlanks_eq (trimmed : Trimmed text) : trimBlanks text = text := by
  rw [trimBlanks, trimmed.trimStart_eq, trimmed.trimEnd_eq]

theorem Trimmed.trim_eq {text : String} (trimmed : Trimmed text.toList) : trim text = text := by
  rw [trim, trimmed.trimBlanks_eq, String.ofList_toList]

theorem trimBlanks_cons_of_isBlank {c : Char} (blank : isBlank c = true) (rest : List Char) :
    trimBlanks (c :: rest) = trimBlanks rest := by
  rw [trimBlanks, trimStart, List.dropWhile_cons_of_pos blank, trimBlanks, trimStart]

theorem takeWhile_trimEnd (text : List Char) :
    (trimEnd text).takeWhile (fun c => !isBlank c) = text.takeWhile fun c => !isBlank c := by
  obtain ⟨blanks, textEq, blank⟩ := trimEnd_append_blanks text
  have noneOfBlanks : blanks.takeWhile (fun c => !isBlank c) = [] := by
    cases blanks with
    | nil => rfl
    | cons c rest => simp [blank c List.mem_cons_self]
  conv_rhs => rw [textEq]
  rw [List.takeWhile_append]
  split_ifs with whole
  · rw [noneOfBlanks, List.append_nil]
    exact (List.takeWhile_prefix _).eq_of_length whole
  · rfl

theorem head?_pieces (separates : Char → Bool) (text : List Char) :
    (pieces separates text).head? = some (text.takeWhile fun c => !separates c) := by
  induction text with
  | nil => rfl
  | cons c rest ih =>
      rw [pieces]
      by_cases cut : separates c = true
      · simp [cut]
      · cases restPieces : pieces separates rest with
        | nil =>
            rw [restPieces] at ih
            cases ih
        | cons piece others =>
            rw [restPieces, List.head?_cons, Option.some_inj] at ih
            simp [extendFirst, cut, ih]

/-- The first word of a text is what its trimming has in front of the first blank character. -/
theorem head?_words (text : List Char) :
    (words text).head? =
      if trimBlanks text = [] then none
      else some ((trimBlanks text).takeWhile fun c => !isBlank c) := by
  induction text with
  | nil => rfl
  | cons c rest ih =>
      by_cases blank : isBlank c = true
      · have wordsEq : words (c :: rest) = words rest := by
          rw [words, nonemptyPieces, pieces, if_pos blank]
          rfl
        rw [wordsEq, trimBlanks_cons_of_isBlank blank, ih]
      · have startEq : trimStart (c :: rest) = c :: rest := List.dropWhile_cons_of_neg blank
        have nonempty : trimEnd (c :: rest) ≠ [] := by
          rw [trimEnd_eq_rdropWhile, Ne, List.rdropWhile_eq_nil_iff]
          exact fun allBlank => blank (allBlank c List.mem_cons_self)
        have opens := head?_pieces isBlank (c :: rest)
        rw [trimBlanks, startEq, if_neg nonempty, takeWhile_trimEnd, words, nonemptyPieces]
        cases wholePieces : pieces isBlank (c :: rest) with
        | nil =>
            rw [wholePieces] at opens
            cases opens
        | cons piece others =>
            rw [wholePieces, List.head?_cons, Option.some_inj] at opens
            simp [opens, blank]

end OpcodeTable.Text
