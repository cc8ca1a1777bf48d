import Mathlib.Data.List.TakeWhile
import OpcodeTable.Json.Reader
import OpcodeTable.Proofs.Json.Scan

/-!
# Printed values are read back

A value without odd numbers, whose texts all have characters, is read back from its text, on one line or
over several. Both texts have the same tokens, and the tokens of a value read as this value.
-/

namespace OpcodeTable.Json

/-- Every number has digits alone, and every text and key has characters. -/
inductive IsPlain : Json → Prop where
  | null : IsPlain .null
  | bool (value : Bool) : IsPlain (.bool value)
  | natural (value : Nat) : IsPlain (.natural value)
  | text (value : String) : IsPlain (.text (some value))
  | array {items : List Json} (itemsPlain : ∀ item ∈ items, IsPlain item) : IsPlain (.array items)
  | object {members : List (Option String × Json)}
      (keyed : ∀ member ∈ members, ∃ key, member.1 = some key)
      (valuesPlain : ∀ member ∈ members, IsPlain member.2) : IsPlain (.object members)

mutual

/-- The tokens that write a value. -/
def toTokens : Json → List Token
  | .null => [.null]
  | .bool value => [.bool value]
  | .natural value => [.natural value]
  | .number literal => [.number literal]
  | .text value => [.text value]
  | .array items => .openArray :: ([Token.comma].intercalate (itemTokens items) ++ [.closeArray])
  | .object members => .openObject :: ([Token.comma].intercalate (memberTokens members) ++ [.closeObject])

def itemTokens : List Json → List (List Token)
  | [] => []
  | item :: rest => item.toTokens :: itemTokens rest

def memberTokens : List (Option String × Json) → List (List Token)
  | [] => []
  | (key, value) :: rest => (.text key :: .colon :: value.toTokens) :: memberTokens rest

end

section Numbers

variable (value : Nat)

private theorem isDigit_of_mem_digits {c : Char} (digitMem : c ∈ Nat.toDigits 10 value) :
    c.isDigit = true :=
  Nat.isDigit_of_mem_toDigits (by decide) (by decide) digitMem

private theorem head?_toDigits_ne_zero (positive : 0 < value) :
    (Nat.toDigits 10 value).head? ≠ some '0' := by
  induction value using Nat.strongRecOn with
  | ind value ih =>
      rw [Nat.toDigits_eq_if (by decide)]
      split_ifs with single
      · have digits : ∀ digit < 10, 0 < digit → digit.digitChar ≠ '0' := by decide
        simpa using digits value single positive
      · have shorter : 0 < value / 10 := by omega
        rw [List.head?_append_of_ne_nil _ Nat.toDigits_ne_nil]
        exact ih (value / 10) (by omega) shorter

private theorem isInteger_toDigits : isInteger (Nat.toDigits 10 value) = true := by
  rcases Nat.eq_zero_or_pos value with rfl | positive
  · decide
  · simp [isInteger, head?_toDigits_ne_zero value positive]

private theorem readNumber?_toDigits :
    readNumber? (Nat.toDigits 10 value) = some (.natural value) := by
  have allDigits : ∀ c ∈ Nat.toDigits 10 value, c.isDigit = true :=
    fun _ => isDigit_of_mem_digits value
  have valueEq : Text.decimalValue (Nat.toDigits 10 value) = value := by
    have read := @Nat.ofDigitChars_ten_toDigits value
    rwa [Nat.ofDigitChars_eq_foldl] at read
  have unsigned : ∀ rest, Nat.toDigits 10 value ≠ '-' :: rest := by
    intro rest digitsEq
    have isDigit := allDigits '-' (by simp [digitsEq])
    exact absurd isDigit (by decide)
  have taken := List.takeWhile_eq_self_iff.mpr allDigits
  have dropped := List.dropWhile_eq_nil_iff.mpr allDigits
  unfold readNumber?
  split
  · exact absurd ‹_› (unsigned _)
  · simp only [taken, dropped, isInteger_toDigits, skipFraction?, isExponent, if_true, valueEq]

private theorem readBare?_toDigits : readBare? (Nat.toDigits 10 value) = some (.natural value) := by
  have notWord {word : String} {c : Char} (mem : c ∈ word.toList) (noDigit : c.isDigit = false) :
      String.ofList (Nat.toDigits 10 value) ≠ word := by
    rintro rfl
    rw [String.toList_ofList] at mem
    rw [isDigit_of_mem_digits value mem] at noDigit
    cases noDigit
  unfold readBare?
  split
  · exact absurd ‹_› (notWord (c := 'n') (by decide) rfl)
  · exact absurd ‹_› (notWord (c := 't') (by decide) rfl)
  · exact absurd ‹_› (notWord (c := 'f') (by decide) rfl)
  · exact readNumber?_toDigits value

private theorem endsBare_eq_false_of_isDigit {c : Char} (digit : c.isDigit = true) :
    TokenScan.endsBare c = false := by
  have notChar (other : Char) (noDigit : other.isDigit = false) : c ≠ other := by
    rintro rfl
    rw [digit] at noDigit
    cases noDigit
  have noMark : mark? c = none := by
    unfold mark?
    split <;> first | rfl | cases digit
  simp [TokenScan.endsBare, isJsonBlank, noMark, notChar ' ' rfl, notChar '\t' rfl,
    notChar '\n' rfl, notChar '\r' rfl, notChar '"' rfl]

theorem scans_natural : Scans (toString value).toList [.natural value] := by
  rw [Nat.toString_eq_repr, Nat.toList_repr]
  apply scans_bare Nat.toDigits_ne_nil _ (readBare?_toDigits value)
  intro c digitMem
  exact endsBare_eq_false_of_isDigit (isDigit_of_mem_digits value digitMem)

end Numbers

section Reading

/-- The value is read from its tokens, whatever follows them. -/
def ReadBack (value : Json) : Prop :=
  ∀ (steps : Nat) (rest : List Token), value.toTokens.length ≤ steps →
    readValue steps (value.toTokens ++ rest) = some (value, rest)

private theorem readItems_itemTokens {items : List Json} (nonempty : items ≠ [])
    (readBack : ∀ item ∈ items, ReadBack item) {steps : Nat} (rest : List Token)
    (enough : ([Token.comma].intercalate (itemTokens items)).length < steps) :
    readItems steps ([Token.comma].intercalate (itemTokens items) ++ .closeArray :: rest) =
      some (items, rest) := by
  induction items generalizing steps with
  | nil => exact absurd rfl nonempty
  | cons item others ih =>
      obtain ⟨steps, rfl⟩ : ∃ fewer, steps = fewer + 1 := ⟨steps - 1, by omega⟩
      have first := readBack item List.mem_cons_self
      cases others with
      | nil =>
          simp only [itemTokens, List.intercalate_singleton] at enough ⊢
          rw [readItems, first steps _ (by omega)]
      | cons next others =>
          simp only [itemTokens, List.intercalate_cons_cons, List.length_append, List.length_cons,
            List.length_nil] at enough ih ⊢
          have later := ih (List.cons_ne_nil _ _)
            (fun other otherMem => readBack other (List.mem_cons_of_mem item otherMem))
            (show _ < steps by omega)
          simp only [List.append_assoc, List.cons_append, List.nil_append] at later ⊢
          rw [readItems, first steps _ (by omega)]
          simp only [later, Option.map_some]

private theorem readMembers_memberTokens {members : List (Option String × Json)}
    (nonempty : members ≠ []) (readBack : ∀ member ∈ members, ReadBack member.2) {steps : Nat}
    (rest : List Token) (enough : ([Token.comma].intercalate (memberTokens members)).length < steps) :
    readMembers steps ([Token.comma].intercalate (memberTokens members) ++ .closeObject :: rest) =
      some (members, rest) := by
  induction members generalizing steps with
  | nil => exact absurd rfl nonempty
  | cons member others ih =>
      obtain ⟨steps, rfl⟩ : ∃ fewer, steps = fewer + 1 := ⟨steps - 1, by omega⟩
      obtain ⟨key, value⟩ := member
      have first : ReadBack value := readBack (key, value) List.mem_cons_self
      cases others with
      | nil =>
          simp only [memberTokens, List.intercalate_singleton, List.length_cons,
            List.cons_append] at enough ⊢
          rw [readMembers, first steps _ (by omega)]
      | cons next others =>
          simp only [memberTokens, List.intercalate_cons_cons, List.length_append, List.length_cons,
            List.length_nil] at enough ih ⊢
          have later := ih (List.cons_ne_nil _ _)
            (fun other otherMem => readBack other (List.mem_cons_of_mem (key, value) otherMem))
            (show _ < steps by omega)
          simp only [List.append_assoc, List.cons_append, List.nil_append] at later ⊢
          rw [readMembers, first steps _ (by omega)]
          simp only [later, Option.map_some]

private theorem toTokens_starts (value : Json) :
    ∃ first others, value.toTokens = first :: others ∧ first ≠ .closeArray := by
  cases value <;> exact ⟨_, _, rfl, by simp⟩

private theorem readValue_array {items : List Json} (readBack : ∀ item ∈ items, ReadBack item) :
    ReadBack (.array items) := by
  intro steps rest enough
  rw [toTokens, List.length_cons, List.length_append, List.length_cons, List.length_nil] at enough
  obtain ⟨steps, rfl⟩ : ∃ fewer, steps = fewer + 1 := ⟨steps - 1, by omega⟩
  rw [toTokens, List.cons_append, List.append_assoc, List.cons_append, List.nil_append]
  cases items with
  | nil => rfl
  | cons item others =>
      have itemsRead := readItems_itemTokens (List.cons_ne_nil item others) readBack rest
        (show _ < steps by omega)
      -- The first token of an item cannot be taken for the end of the array.
      obtain ⟨first, later, tokensEq, notClosed⟩ := toTokens_starts item
      have starts : ∃ more, [Token.comma].intercalate (itemTokens (item :: others)) = first :: more := by
        rw [itemTokens, tokensEq, List.intercalate_cons_cons_left]
        exact ⟨_, rfl⟩
      obtain ⟨more, startsEq⟩ := starts
      rw [startsEq, List.cons_append] at itemsRead ⊢
      simp only [readValue]
      split
      · exact absurd (List.cons.inj ‹_›).1 notClosed
      · rw [itemsRead]
        rfl

private theorem readValue_object {members : List (Option String × Json)}
    (readBack : ∀ member ∈ members, ReadBack member.2) : ReadBack (.object members) := by
  intro steps rest enough
  rw [toTokens, List.length_cons, List.length_append, List.length_cons, List.length_nil] at enough
  obtain ⟨steps, rfl⟩ : ∃ fewer, steps = fewer + 1 := ⟨steps - 1, by omega⟩
  rw [toTokens, List.cons_append, List.append_assoc, List.cons_append, List.nil_append]
  cases members with
  | nil => rfl
  | cons member others =>
      have membersRead := readMembers_memberTokens (List.cons_ne_nil member others) readBack rest
        (show _ < steps by omega)
      obtain ⟨key, value⟩ := member
      rw [memberTokens, List.intercalate_cons_cons_left, List.cons_append] at membersRead ⊢
      simp only [readValue]
      rw [membersRead]
      rfl

theorem IsPlain.readBack {value : Json} (plain : value.IsPlain) : ReadBack value := by
  have leaf {value : Json} {token : Token} (tokensEq : value.toTokens = [token])
      (read : ∀ steps rest, readValue (steps + 1) (token :: rest) = some (value, rest)) :
      ReadBack value := by
    intro steps rest enough
    rw [tokensEq] at enough ⊢
    obtain ⟨steps, rfl⟩ : ∃ fewer, steps = fewer + 1 := ⟨steps - 1, by simp at enough; omega⟩
    exact read steps rest
  induction plain with
  | null => exact leaf rfl fun _ _ => rfl
  | bool value => exact leaf rfl fun _ _ => rfl
  | natural value => exact leaf rfl fun _ _ => rfl
  | text value => exact leaf rfl fun _ _ => rfl
  | array itemsPlain ih => exact readValue_array ih
  | object keyed valuesPlain ih => exact readValue_object ih

end Reading

section Printing

theorem itemTokens_eq_map (items : List Json) : itemTokens items = items.map toTokens := by
  induction items with
  | nil => rfl
  | cons item rest ih => rw [itemTokens, ih, List.map_cons]

theorem memberTokens_eq_map (members : List (Option String × Json)) :
    memberTokens members =
      members.map fun member => .text member.1 :: .colon :: member.2.toTokens := by
  induction members with
  | nil => rfl
  | cons member rest ih => rw [memberTokens, ih, List.map_cons]

theorem compactItems_eq_map (items : List Json) : compactItems items = items.map compact := by
  induction items with
  | nil => rfl
  | cons item rest ih => rw [compactItems, ih, List.map_cons]

theorem compactMembers_eq_map (members : List (Option String × Json)) :
    compactMembers members = members.map fun member => quoteText member.1 ++ ":" ++ member.2.compact := by
  induction members with
  | nil => rfl
  | cons member rest ih => rw [compactMembers, ih, List.map_cons]

theorem prettyItems_eq_map (level : Nat) (items : List Json) :
    prettyItems level items = items.map (pretty level) := by
  induction items with
  | nil => rfl
  | cons item rest ih => rw [prettyItems, ih, List.map_cons]

theorem prettyMembers_eq_map (level : Nat) (members : List (Option String × Json)) :
    prettyMembers level members =
      members.map fun member => quoteText member.1 ++ ": " ++ member.2.pretty level := by
  induction members with
  | nil => rfl
  | cons member rest ih => rw [prettyMembers, ih, List.map_cons]

private theorem scans_word {word : String} {token : Token} (nonempty : word.toList ≠ [])
    (goesOn : (word.toList.all fun c => !TokenScan.endsBare c) = true)
    (read : readBare? word.toList = some token) : Scans word.toList [token] := by
  apply scans_bare nonempty _ read
  intro c charMem
  simpa using List.all_eq_true.mp goesOn c charMem

variable {gap lastGap : List Char} {print : Json → String}

/-- An array is scanned as its tokens if its items are, with blanks where a line may break. -/
private theorem scans_array (blank : ∀ c ∈ gap, isJsonBlank c = true)
    (lastBlank : ∀ c ∈ lastGap, isJsonBlank c = true) {items : List Json}
    (scanned : ∀ item ∈ items, Scans (print item).toList item.toTokens) :
    Scans
      ('[' :: (gap ++ (',' :: gap).intercalate ((items.map print).map String.toList) ++ lastGap ++ [']']))
      (toTokens (.array items)) := by
  rw [toTokens, itemTokens_eq_map]
  apply scans_enclosed rfl rfl blank lastBlank
  apply scans_separated blank
  rw [List.map_map, List.forall₂_map_left_iff, List.forall₂_map_right_iff, List.forall₂_same]
  exact scanned

private theorem scans_object {colon : String} {colonGap : List Char}
    (colonEq : colon.toList = ':' :: colonGap) (colonBlank : ∀ c ∈ colonGap, isJsonBlank c = true)
    (blank : ∀ c ∈ gap, isJsonBlank c = true) (lastBlank : ∀ c ∈ lastGap, isJsonBlank c = true)
    {members : List (Option String × Json)} (keyed : ∀ member ∈ members, ∃ key, member.1 = some key)
    (scanned : ∀ member ∈ members, Scans (print member.2).toList member.2.toTokens) :
    Scans
      ('\x7b' :: (gap ++ (',' :: gap).intercalate
        ((members.map fun member => quoteText member.1 ++ colon ++ print member.2).map String.toList) ++
          lastGap ++ ['\x7d']))
      (toTokens (.object members)) := by
  rw [toTokens, memberTokens_eq_map]
  apply scans_enclosed rfl rfl blank lastBlank
  apply scans_separated blank
  rw [List.map_map, List.forall₂_map_left_iff, List.forall₂_map_right_iff, List.forall₂_same]
  rintro ⟨_, value⟩ memberMem
  obtain ⟨key, rfl⟩ := keyed _ memberMem
  have member := scans_member colonBlank key (scanned _ memberMem)
  simpa [quoteText, colonEq] using member

theorem IsPlain.scans_compact {value : Json} (plain : value.IsPlain) :
    Scans value.compact.toList value.toTokens := by
  have noGap : ∀ c ∈ ([] : List Char), isJsonBlank c = true := by simp
  induction plain with
  | null => exact scans_word (by decide) (by decide) rfl
  | bool value =>
      cases value with
      | false => exact scans_word (by decide) (by decide) rfl
      | true => exact scans_word (by decide) (by decide) rfl
  | natural value => exact scans_natural value
  | text value => exact scans_quote value
  | @array items itemsPlain ih =>
      have scanned := scans_array noGap noGap ih
      rw [List.nil_append, List.append_nil] at scanned
      rw [compact, compactItems_eq_map, String.toList_append, String.toList_append,
        String.toList_intercalate]
      exact scanned
  | @object members keyed valuesPlain ih =>
      have scanned := @scans_object [] [] compact ":" [] rfl noGap noGap noGap members keyed ih
      rw [List.nil_append, List.append_nil] at scanned
      rw [compact, compactMembers_eq_map, String.toList_append, String.toList_append,
        String.toList_intercalate]
      exact scanned

private theorem blank_lineBreak (level : Nat) : ∀ c ∈ (lineBreak level).toList, isJsonBlank c = true := by
  intro c charMem
  rw [lineBreak, String.toList_ofList, List.mem_cons] at charMem
  rcases charMem with rfl | charMem
  · rfl
  · rw [List.eq_of_mem_replicate charMem]
    rfl

private theorem toList_layOut (opening closing : String) (level : Nat) {parts : List String}
    (nonempty : parts ≠ []) :
    (layOut opening closing level parts).toList =
      opening.toList ++ ((lineBreak (level + 1)).toList ++
        (',' :: (lineBreak (level + 1)).toList).intercalate (parts.map String.toList) ++
          (lineBreak level).toList ++ closing.toList) := by
  cases parts with
  | nil => exact absurd rfl nonempty
  | cons part others => simp [layOut, String.toList_intercalate]

theorem IsPlain.scans_pretty {value : Json} (plain : value.IsPlain) (level : Nat) :
    Scans (value.pretty level).toList value.toTokens := by
  induction plain generalizing level with
  | null => exact IsPlain.null.scans_compact
  | bool value =>
      have scanned := (IsPlain.bool value).scans_compact
      cases value <;> exact scanned
  | natural value => exact (IsPlain.natural value).scans_compact
  | text value => exact (IsPlain.text value).scans_compact
  | @array items itemsPlain ih =>
      cases items with
      | nil => exact (IsPlain.array itemsPlain).scans_compact
      | cons item others =>
          have scanned := scans_array (blank_lineBreak (level + 1)) (blank_lineBreak level)
            fun item itemMem => ih item itemMem (level + 1)
          rw [pretty, prettyItems_eq_map, toList_layOut _ _ _ (by simp)]
          exact scanned
  | @object members keyed valuesPlain ih =>
      cases members with
      | nil => exact (IsPlain.object keyed valuesPlain).scans_compact
      | cons member others =>
          have scanned := @scans_object _ _ (pretty (level + 1)) ": " [' '] rfl (by simp [isJsonBlank])
            (blank_lineBreak (level + 1)) (blank_lineBreak level) _ keyed
            fun member memberMem => ih member memberMem (level + 1)
          rw [pretty, prettyMembers_eq_map, toList_layOut _ _ _ (by simp)]
          exact scanned

end Printing

/-- A value is read from a text that has its tokens, with blanks behind it. -/
private theorem parse?_of_scans {value : Json} (plain : value.IsPlain) {text : String}
    (scanned : Scans text.toList value.toTokens) {blanks : String}
    (blank : ∀ c ∈ blanks.toList, isJsonBlank c = true) : parse? (text ++ blanks) = some value := by
  have tokensEq : tokens? (text ++ blanks).toList = some value.toTokens := by
    have found := scanned [] blanks.toList (endsBare_of_blank blank)
    have skipped := @TokenScan.tokensFrom?_blanks value.toTokens.reverse [] _ blank
    rw [List.append_nil] at found skipped
    rw [String.toList_append]
    refine found.trans (skipped.trans ?_)
    simp [TokenScan.tokensFrom?, TokenScan.finish]
  have read := plain.readBack (value.toTokens.length + 1) [] (Nat.le_succ _)
  rw [List.append_nil] at read
  rw [parse?, tokensEq, Option.bind_some, ofTokens?, read]

theorem IsPlain.parse?_pretty {value : Json} (plain : value.IsPlain) (level : Nat) :
    parse? (value.pretty level ++ "\n") = some value :=
  parse?_of_scans plain (plain.scans_pretty level) (by simp [isJsonBlank])

end OpcodeTable.Json
