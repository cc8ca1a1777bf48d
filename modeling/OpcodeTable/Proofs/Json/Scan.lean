import Mathlib.Data.List.Forall2
import OpcodeTable.Json.Printer
import OpcodeTable.Json.Token

/-!
# Scanning printed texts

A scan that stands between two tokens finds, in the text of a token, this token, and stands between two
tokens again. Only a word or a number needs a look at what follows, because it ends where something else
begins. From there texts can be put together: tokens one after the other, with blanks between them.
-/

namespace OpcodeTable.Json

namespace TokenScan

/-- The tokens of a scan that goes on with a text. -/
def tokensFrom? (scan : TokenScan) (text : List Char) : Option (List Token) :=
  (text.foldlM step scan).bind finish

variable {before : List Token} {rest : List Char} {c : Char}

theorem tokensFrom?_cons (scan : TokenScan) (c : Char) (rest : List Char) :
    scan.tokensFrom? (c :: rest) = (scan.step c).bind fun next => next.tokensFrom? rest := by
  rw [tokensFrom?, List.foldlM_cons]
  exact Option.bind_assoc _ _ _

theorem tokensFrom?_of_step {scan next : TokenScan} (stepped : scan.step c = some next) :
    scan.tokensFrom? (c :: rest) = next.tokensFrom? rest := by
  rw [tokensFrom?_cons, stepped]
  rfl

theorem tokensFrom?_mark {token : Token} (marks : mark? c = some token) :
    tokensFrom? ⟨before, .between⟩ (c :: rest) = tokensFrom? ⟨token :: before, .between⟩ rest := by
  apply tokensFrom?_of_step
  unfold mark? at marks
  split at marks <;> cases marks <;> rfl

theorem tokensFrom?_blanks {blanks : List Char} (blank : ∀ c ∈ blanks, isJsonBlank c = true) :
    tokensFrom? ⟨before, .between⟩ (blanks ++ rest) = tokensFrom? ⟨before, .between⟩ rest := by
  induction blanks with
  | nil => rfl
  | cons c others ih =>
      have stepped : step ⟨before, .between⟩ c = some ⟨before, .between⟩ := by
        simp [step, start, blank c List.mem_cons_self]
      rw [List.cons_append, tokensFrom?_of_step stepped]
      exact ih fun other otherMem => blank other (List.mem_cons_of_mem c otherMem)

end TokenScan

open TokenScan

/-- What follows ends a word or a number. -/
def EndsBare (rest : List Char) : Prop :=
  ∀ c ∈ rest.head?, endsBare c = true

theorem EndsBare.append {first rest : List Char} (ends : EndsBare first) (restEnds : EndsBare rest) :
    EndsBare (first ++ rest) := by
  cases first with
  | nil => exact restEnds
  | cons c others => exact ends

theorem endsBare_of_blank {blanks : List Char} (blank : ∀ c ∈ blanks, isJsonBlank c = true) :
    EndsBare blanks := by
  intro c first
  simp [endsBare, blank c (List.mem_of_mem_head? first)]

theorem endsBare_of_mark {c : Char} {token : Token} (marks : mark? c = some token)
    (rest : List Char) : EndsBare (c :: rest) := by
  intro first isFirst
  obtain rfl := Option.some.inj isFirst
  simp [endsBare, marks]

/-- A scan finds the tokens in the text if nothing follows that a word or a number at its end could go
on with. -/
def Scans (text : List Char) (tokens : List Token) : Prop :=
  ∀ (before : List Token) (rest : List Char), EndsBare rest →
    tokensFrom? ⟨before, .between⟩ (text ++ rest) =
      tokensFrom? ⟨tokens.reverse ++ before, .between⟩ rest

section Words

variable {before : List Token} {rest : List Char}

private theorem tokensFrom?_bare {word : List Char} (goesOn : ∀ c ∈ word, endsBare c = false)
    (chars : List Char) :
    tokensFrom? ⟨before, .bare chars⟩ (word ++ rest) =
      tokensFrom? ⟨before, .bare (word.reverse ++ chars)⟩ rest := by
  induction word generalizing chars with
  | nil => rfl
  | cons c others ih =>
      have stepped : step ⟨before, .bare chars⟩ c = some ⟨before, .bare (c :: chars)⟩ := by
        simp [step, goesOn c List.mem_cons_self]
      rw [List.cons_append, tokensFrom?_of_step stepped,
        ih fun other otherMem => goesOn other (List.mem_cons_of_mem c otherMem)]
      simp

private theorem tokensFrom?_of_readBare? {chars : List Char} {token : Token}
    (read : readBare? chars.reverse = some token) (ends : EndsBare rest) :
    tokensFrom? ⟨before, .bare chars⟩ rest = tokensFrom? ⟨token :: before, .between⟩ rest := by
  cases rest with
  | nil => simp [tokensFrom?, finish, read]
  | cons c others =>
      have ending : endsBare c = true := ends c rfl
      rw [tokensFrom?_cons, tokensFrom?_cons]
      simp [step, ending, read]

theorem scans_bare {word : List Char} {token : Token} (nonempty : word ≠ [])
    (goesOn : ∀ c ∈ word, endsBare c = false) (read : readBare? word = some token) :
    Scans word [token] := by
  intro before rest ends
  cases word with
  | nil => exact absurd rfl nonempty
  | cons c others =>
      have firstGoesOn := goesOn c List.mem_cons_self
      simp only [endsBare, Bool.or_eq_false_iff, Option.isSome_eq_false_iff, Option.isNone_iff_eq_none,
        beq_eq_false_iff_ne] at firstGoesOn
      obtain ⟨⟨noBlank, noQuote⟩, noMark⟩ := firstGoesOn
      have stepped : step ⟨before, .between⟩ c = some ⟨before, .bare [c]⟩ := by
        simp [step, start, noBlank, noQuote, noMark]
      rw [List.cons_append, tokensFrom?_of_step stepped,
        tokensFrom?_bare fun other otherMem => goesOn other (List.mem_cons_of_mem c otherMem)]
      apply tokensFrom?_of_readBare? _ ends
      simpa using read

end Words

section Texts

/-- The unit that a scan makes of a character as it is written in a text. -/
def writtenUnit (c : Char) : TextUnit :=
  if c.toNat < 0x20 ∧ c ∉ ['\x08', '\x0c', '\n', '\r', '\t'] then .code c.toNat else .char c

variable {before : List Token} {rest : List Char}

private theorem tokensFrom?_shortEscape {letter c : Char} (short : shortEscape? letter = some c)
    (units : List TextUnit) :
    tokensFrom? ⟨before, .quoted units⟩ ('\\' :: letter :: rest) =
      tokensFrom? ⟨before, .quoted (.char c :: units)⟩ rest := by
  have notNumbered : letter ≠ 'u' := by
    rintro rfl
    cases short
  have opened : step ⟨before, .quoted units⟩ '\\' = some ⟨before, .escaped units⟩ := rfl
  have closed : step ⟨before, .escaped units⟩ letter = some ⟨before, .quoted (.char c :: units)⟩ := by
    simp [step, notNumbered, short]
  rw [tokensFrom?_of_step opened, tokensFrom?_of_step closed]

theorem escapeDigit?_lowerHexDigit {value : Nat} (bounded : value < 16) :
    escapeDigit? (lowerHexDigit value) = some value := by
  have allDigits : ∀ digit < 16, escapeDigit? (lowerHexDigit digit) = some digit := by decide
  exact allDigits value bounded

private theorem tokensFrom?_numberedEscape {high low : Nat} (highBounded : high < 16)
    (lowBounded : low < 16) (units : List TextUnit) :
    tokensFrom? ⟨before, .quoted units⟩
        ('\\' :: 'u' :: '0' :: '0' :: lowerHexDigit high :: lowerHexDigit low :: rest) =
      tokensFrom? ⟨before, .quoted (.code (16 * high + low) :: units)⟩ rest := by
  have opened : step ⟨before, .quoted units⟩ '\\' = some ⟨before, .escaped units⟩ := rfl
  have numbered : step ⟨before, .escaped units⟩ 'u' = some ⟨before, .numbered units 0 4⟩ := rfl
  have zeroFour : step ⟨before, .numbered units 0 4⟩ '0' = some ⟨before, .numbered units 0 3⟩ := rfl
  have zeroThree : step ⟨before, .numbered units 0 3⟩ '0' = some ⟨before, .numbered units 0 2⟩ := rfl
  have highStep : step ⟨before, .numbered units 0 2⟩ (lowerHexDigit high) =
      some ⟨before, .numbered units high 1⟩ := by
    simp [step, escapeDigit?_lowerHexDigit highBounded]
  have lowStep : step ⟨before, .numbered units high 1⟩ (lowerHexDigit low) =
      some ⟨before, .quoted (.code (16 * high + low) :: units)⟩ := by
    simp [step, escapeDigit?_lowerHexDigit lowBounded]
  rw [tokensFrom?_of_step opened, tokensFrom?_of_step numbered, tokensFrom?_of_step zeroFour,
    tokensFrom?_of_step zeroThree, tokensFrom?_of_step highStep, tokensFrom?_of_step lowStep]

private theorem tokensFrom?_escapeChar (c : Char) (units : List TextUnit) :
    tokensFrom? ⟨before, .quoted units⟩ (escapeChar c ++ rest) =
      tokensFrom? ⟨before, .quoted (writtenUnit c :: units)⟩ rest := by
  unfold escapeChar
  split_ifs with isQuote isBackslash isBackspace isFormFeed isLineFeed isReturn isTab isControl
  · subst isQuote
    exact tokensFrom?_shortEscape rfl units
  · subst isBackslash
    exact tokensFrom?_shortEscape rfl units
  · subst isBackspace
    exact tokensFrom?_shortEscape rfl units
  · subst isFormFeed
    exact tokensFrom?_shortEscape rfl units
  · subst isLineFeed
    exact tokensFrom?_shortEscape rfl units
  · subst isReturn
    exact tokensFrom?_shortEscape rfl units
  · subst isTab
    exact tokensFrom?_shortEscape rfl units
  · have unitEq : writtenUnit c = .code c.toNat := by
      simp [writtenUnit, isControl, isBackspace, isFormFeed, isLineFeed, isReturn, isTab]
    have highBounded : c.toNat / 16 < 16 := by omega
    have lowBounded : c.toNat % 16 < 16 := Nat.mod_lt _ (by decide)
    have numbered := @tokensFrom?_numberedEscape before rest _ _ highBounded lowBounded units
    rw [Nat.div_add_mod] at numbered
    rw [unitEq]
    exact numbered
  · have unitEq : writtenUnit c = .char c := by simp [writtenUnit, isControl]
    have stepped : step ⟨before, .quoted units⟩ c = some ⟨before, .quoted (.char c :: units)⟩ := by
      simp [step, isQuote, isBackslash, isControl]
    rw [unitEq]
    exact tokensFrom?_of_step stepped

private theorem tokensFrom?_escaped (chars : List Char) (units : List TextUnit) :
    tokensFrom? ⟨before, .quoted units⟩ (chars.flatMap escapeChar ++ rest) =
      tokensFrom? ⟨before, .quoted ((chars.map writtenUnit).reverse ++ units)⟩ rest := by
  induction chars generalizing units with
  | nil => rfl
  | cons c others ih =>
      rw [List.flatMap_cons, List.append_assoc, tokensFrom?_escapeChar, ih]
      simp

private theorem unitChars?_code {code : Nat} (low : code < 0x20) (found : List Char)
    (units : List TextUnit) :
    unitChars? found (.code code :: units) = unitChars? (Char.ofNat code :: found) units := by
  have notHigh : isHighSurrogate code = false := by
    simp [isHighSurrogate]
    omega
  have notLow : isLowSurrogate code = false := by
    simp [isLowSurrogate]
    omega
  cases units with
  | nil => simp [unitChars?, notHigh, notLow]
  | cons unit others =>
      cases unit with
      | char c => simp [unitChars?, notHigh, notLow]
      | code next => simp [unitChars?, notHigh, notLow]

theorem unitChars?_writtenUnit (chars found : List Char) :
    unitChars? found (chars.map writtenUnit) = some (found.reverse ++ chars) := by
  induction chars generalizing found with
  | nil => simp [unitChars?]
  | cons c others ih =>
      rw [List.map_cons, writtenUnit]
      split_ifs with byNumber
      · rw [unitChars?_code byNumber.1, Char.ofNat_toNat, ih]
        simp
      · rw [unitChars?, ih]
        simp

/-- A text in quotes is scanned as this text, whatever follows. -/
theorem tokensFrom?_quote (text : String) :
    tokensFrom? ⟨before, .between⟩ ((quote text).toList ++ rest) =
      tokensFrom? ⟨.text (some text) :: before, .between⟩ rest := by
  have opened : step ⟨before, .between⟩ '"' = some ⟨before, .quoted []⟩ := rfl
  have closed : step ⟨before, .quoted (text.toList.map writtenUnit).reverse⟩ '"' =
      some ⟨.text (some text) :: before, .between⟩ := by
    simp [step, unitChars?_writtenUnit]
  rw [quote, String.toList_ofList, List.cons_append, List.cons_append, List.append_assoc,
    tokensFrom?_of_step opened, tokensFrom?_escaped, List.append_nil]
  exact tokensFrom?_of_step closed

theorem scans_quote (text : String) : Scans (quote text).toList [.text (some text)] :=
  fun _ _ _ => tokensFrom?_quote text

end Texts

section Sequences

variable {gap : List Char}

/-- Texts with commas and blanks between them are scanned one after the other. -/
theorem scans_separated (blank : ∀ c ∈ gap, isJsonBlank c = true) {parts : List (List Char)}
    {tokens : List (List Token)} (scanned : List.Forall₂ Scans parts tokens) :
    Scans ((',' :: gap).intercalate parts) ([Token.comma].intercalate tokens) := by
  induction scanned with
  | nil => exact fun _ _ _ => rfl
  | @cons part found laterParts laterFound first later ih =>
      cases later with
      | nil => simpa using first
      | cons second others =>
          intro before rest ends
          simp only [List.intercalate_cons_cons, List.append_assoc, List.cons_append] at ih ⊢
          rw [first before _ (endsBare_of_mark rfl _), tokensFrom?_mark rfl, tokensFrom?_blanks blank,
            ih _ rest ends]
          simp

/-- A text between two marks, with blanks behind the first and in front of the second. -/
theorem scans_enclosed {opening closing : Char} {first last : Token} (opens : mark? opening = some first)
    (closes : mark? closing = some last) (blank : ∀ c ∈ gap, isJsonBlank c = true)
    {lastGap : List Char} (lastBlank : ∀ c ∈ lastGap, isJsonBlank c = true) {text : List Char}
    {tokens : List Token} (scanned : Scans text tokens) :
    Scans (opening :: (gap ++ text ++ lastGap ++ [closing])) (first :: (tokens ++ [last])) := by
  intro before rest ends
  have closingEnds : EndsBare (lastGap ++ closing :: rest) :=
    (endsBare_of_blank lastBlank).append (endsBare_of_mark closes rest)
  simp only [List.cons_append, List.append_assoc, List.nil_append]
  rw [tokensFrom?_mark opens, tokensFrom?_blanks blank, scanned _ _ closingEnds,
    tokensFrom?_blanks lastBlank, tokensFrom?_mark closes]
  simp

theorem scans_member (blank : ∀ c ∈ gap, isJsonBlank c = true) (key : String) {text : List Char}
    {tokens : List Token} (scanned : Scans text tokens) :
    Scans ((quote key).toList ++ ':' :: (gap ++ text)) (.text (some key) :: .colon :: tokens) := by
  intro before rest ends
  simp only [List.cons_append, List.append_assoc]
  rw [tokensFrom?_quote, tokensFrom?_mark rfl, tokensFrom?_blanks blank, scanned _ rest ends]
  simp

end Sequences

end OpcodeTable.Json
