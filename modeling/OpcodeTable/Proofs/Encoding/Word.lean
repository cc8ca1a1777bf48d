import Mathlib.Tactic.SplitIfs
import OpcodeTable.Proofs.Encoding.Group
import OpcodeTable.Proofs.Text.Hex

/-!
# Which words are tokens

Every token has its written forms, and a word is read as a token exactly if it is one of them. No word
is a written form of two tokens. A word that is no written form at all has one fault, which depends on
the class that the word seems to belong to.
-/

namespace OpcodeTable

theorem ImmediateMarker.ofName?_eq_some_iff {text : String} {marker : ImmediateMarker} :
    ofName? text = some marker ↔ text = marker.name := by
  constructor
  · intro found
    have named := List.find?_some found
    exact (beq_iff_eq.mp named).symm
  · rintro rfl
    cases marker <;> rfl

namespace Encoding

/-- The texts behind the plus sign of a fold. -/
def foldMarkers : List (String × Fold) :=
  [("r", .register), ("rb", .register), ("rw", .register), ("rd", .register), ("ro", .register),
    ("i", .stack)]

/-- The word is a written form of the token. -/
inductive Spells : List Char → Token → Prop where
  | scheme {name : List Char} (isName : Text.isName name = true) :
      Spells (name ++ [':']) (.scheme (String.ofList name).toUpper)
  | vector {word : List Char} {group : VectorGroup} (written : group.WrittenAs word) :
      Spells word (.vector group)
  | rexW : Spells "REX.W".toList .rexW
  | neutral {word : String} (listed : word ∈ ["REX", "NP", "NFx"]) : Spells word.toList .neutral
  | modRM (use : ModRM) : Spells ('/' :: use.name.toList) (.modRM use)
  | folded {byte : UInt8} {marker : String} {fold : Fold} (listed : (marker, fold) ∈ foldMarkers)
      (aligned : byte.toNat % 8 = 0) :
      Spells (Text.hexByte byte ++ '+' :: marker.toList) (.folded byte fold)
  | byte (value : UInt8) : Spells (Text.hexByte value) (.byte value)
  | immediate (marker : ImmediateMarker) : Spells marker.name.toList (.immediate marker)

theorem readModRM?_eq_some_iff {text : List Char} {use : ModRM} :
    readModRM? text = some use ↔ text = use.name.toList := by
  constructor
  · intro read
    unfold readModRM? at read
    split at read <;> cases read <;> rfl
  · rintro rfl
    cases use with
    | digit value =>
        revert value
        decide
    | register => rfl
    | immediateRegister => rfl

private theorem eq_toList_of_ofList_eq {word : List Char} {text : String}
    (same : String.ofList word = text) : word = text.toList := by
  rw [← same, String.toList_ofList]

theorem readFoldKind?_eq_some_iff {text : List Char} {fold : Fold} :
    readFoldKind? text = some fold ↔ (String.ofList text, fold) ∈ foldMarkers := by
  unfold readFoldKind?
  generalize String.ofList text = marker
  constructor
  · intro read
    split at read <;> cases read <;> decide
  · intro listed
    simp only [foldMarkers, List.mem_cons, Prod.mk.injEq, List.not_mem_nil, or_false] at listed
    rcases listed with ⟨rfl, rfl⟩ | ⟨rfl, rfl⟩ | ⟨rfl, rfl⟩ | ⟨rfl, rfl⟩ | ⟨rfl, rfl⟩ | ⟨rfl, rfl⟩ <;> rfl

theorem readFold?_eq_some_iff {word : List Char} {byte : UInt8} {fold : Fold} :
    readFold? word = some (byte, fold) ↔ Spells word (.folded byte fold) := by
  constructor
  · intro read
    unfold readFold? at read
    split at read
    · cases read
    · rename_i digits marker cut
      split at read
      · rename_i byte fold readByte readFold
        split_ifs at read with aligned
        obtain ⟨rfl, rfl⟩ := Prod.mk.inj (Option.some.inj read)
        obtain ⟨_, rfl⟩ := Text.cutAt?_eq_some_iff.mp cut
        obtain rfl := Text.readHexByte?_eq_some_iff.mp readByte
        have spelled := Spells.folded (readFoldKind?_eq_some_iff.mp readFold) aligned
        rwa [String.toList_ofList] at spelled
      · cases read
  · intro spelled
    generalize tokenEq : Token.folded byte fold = token at spelled
    cases spelled with
    | @folded byte marker fold listed aligned =>
        obtain ⟨rfl, rfl⟩ := Token.folded.inj tokenEq
        have cut : Text.cutAt? '+' (Text.hexByte byte ++ '+' :: marker.toList) =
            some (Text.hexByte byte, marker.toList) :=
          Text.cutAt?_eq_some_iff.mpr ⟨Text.not_mem_hexByte (by decide) byte, rfl⟩
        have kind : readFoldKind? marker.toList = some fold :=
          readFoldKind?_eq_some_iff.mpr (by rwa [String.ofList_toList])
        simp only [readFold?, cut, Text.readHexByte?_eq_some_iff.mpr rfl, kind, aligned, if_true]
    | _ => cases tokenEq

theorem spells_of_readToken {encoding : String} {word : List Char} {token : Token}
    (read : readToken encoding word = .ok token) : Spells word token := by
  unfold readToken at read
  dsimp only at read
  split_ifs at read with colon isName opens rexW neutral slash plus
  · obtain ⟨name, rfl⟩ := List.getLast?_eq_some_iff.mp colon
    obtain rfl := Except.ok.inj read
    rw [List.dropLast_concat] at isName ⊢
    exact .scheme isName
  · cases group : readGroup word with
    | error fault =>
        rw [group] at read
        cases read
    | ok written =>
        rw [group] at read
        obtain rfl := Except.ok.inj read
        exact .vector (readGroup_eq_ok_iff.mp group)
  · obtain rfl := Except.ok.inj read
    rw [eq_toList_of_ofList_eq rexW]
    exact .rexW
  · obtain rfl := Except.ok.inj read
    have listed : String.ofList word ∈ ["REX", "NP", "NFx"] := by simpa using neutral
    simpa using Spells.neutral listed
  · obtain ⟨text, rfl⟩ := List.head?_eq_some_iff.mp slash
    cases use : readModRM? text with
    | none =>
        rw [List.tail_cons, use] at read
        cases read
    | some found =>
        rw [List.tail_cons, use] at read
        obtain rfl := Except.ok.inj read
        rw [readModRM?_eq_some_iff.mp use]
        exact .modRM found
  · cases fold : readFold? word with
    | none =>
        rw [fold] at read
        cases read
    | some found =>
        rw [fold] at read
        obtain rfl := Except.ok.inj read
        exact readFold?_eq_some_iff.mp fold
  · cases digits : Text.readHexByte? word with
    | some value =>
        rw [digits] at read
        obtain rfl := Except.ok.inj read
        rw [Text.readHexByte?_eq_some_iff.mp digits]
        exact .byte value
    | none =>
        rw [digits] at read
        dsimp only at read
        cases marker : ImmediateMarker.ofName? (String.ofList word) with
        | none =>
            rw [marker] at read
            cases read
        | some found =>
            rw [marker] at read
            obtain rfl := Except.ok.inj read
            rw [eq_toList_of_ofList_eq (ImmediateMarker.ofName?_eq_some_iff.mp marker)]
            exact .immediate found

/-- All names of vector families hold this letter. -/
private theorem mem_of_opensGroup {word : List Char} (opens : opensGroup word = true) : 'X' ∈ word := by
  simp only [opensGroup, Bool.or_eq_true, List.isPrefixOf_iff_prefix] at opens
  rcases opens with (vex | evex) | xop
  · exact vex.mem (by decide)
  · exact evex.mem (by decide)
  · exact xop.mem (by decide)

/-- Words of the first classes hold one of three characters. -/
private theorem not_first_classes {word : List Char} (noColon : ':' ∉ word) (noX : 'X' ∉ word)
    (noN : 'N' ∉ word) :
    word.getLast? ≠ some ':' ∧ opensGroup word ≠ true ∧ String.ofList word ≠ "REX.W" ∧
      ¬(String.ofList word = "REX" ∨ String.ofList word = "NP" ∨ String.ofList word = "NFx") := by
  refine ⟨?_, ?_, ?_, ?_⟩
  · intro last
    exact noColon (List.mem_of_getLast? last)
  · intro opens
    exact noX (mem_of_opensGroup opens)
  · intro rexW
    rw [eq_toList_of_ofList_eq rexW] at noX
    exact noX (by decide)
  · rintro (rex | np | nfx)
    · rw [eq_toList_of_ofList_eq rex] at noX
      exact noX (by decide)
    · rw [eq_toList_of_ofList_eq np] at noN
      exact noN (by decide)
    · rw [eq_toList_of_ofList_eq nfx] at noN
      exact noN (by decide)

private theorem not_mem_modRM {c : Char} (foreign : "/01234567ris".toList.contains c = false)
    (use : ModRM) : c ∉ '/' :: use.name.toList := by
  have letters : ('/' :: use.name.toList).all "/01234567ris".toList.contains = true := by
    cases use with
    | digit value =>
        revert value
        decide
    | register => decide
    | immediateRegister => decide
  intro cMem
  have known := List.all_eq_true.mp letters c cMem
  rw [foreign] at known
  cases known

private theorem not_mem_folded {c : Char} {marker : String} {fold : Fold}
    (noDigit : Text.hexDigitValue? c = none)
    (foreign : foldMarkers.all (fun entry => !('+' :: entry.1.toList).contains c) = true)
    (listed : (marker, fold) ∈ foldMarkers) (byte : UInt8) :
    c ∉ Text.hexByte byte ++ '+' :: marker.toList := by
  have noMarker := List.all_eq_true.mp foreign _ listed
  intro cMem
  rcases List.mem_append.mp cMem with cDigit | cMarker
  · exact Text.not_mem_hexByte noDigit byte cDigit
  · simp_all

theorem readToken_of_spells {word : List Char} {token : Token} (encoding : String)
    (spelled : Spells word token) : readToken encoding word = .ok token := by
  cases spelled with
  | @scheme name isName =>
      rw [readToken, if_pos List.getLast?_concat, List.dropLast_concat, if_pos isName]
  | vector written =>
      have noColon : word.getLast? ≠ some ':' := by
        intro last
        have colon := eq_point_or_isAlphanum_of_writtenAs written ':' (List.mem_of_getLast? last)
        exact absurd colon (by decide)
      have opens := opensGroup_of_writtenAs written
      rw [readToken, if_neg noColon, if_pos opens, readGroup_eq_ok_iff.mpr written]
      rfl
  | rexW => rfl
  | @neutral word listed =>
      simp only [List.mem_cons, List.not_mem_nil, or_false] at listed
      rcases listed with rfl | rfl | rfl <;> rfl
  | modRM use =>
      obtain ⟨noColon, noGroup, noRexW, noNeutral⟩ := not_first_classes
        (not_mem_modRM rfl use) (not_mem_modRM rfl use) (not_mem_modRM rfl use)
      rw [readToken, if_neg noColon, if_neg noGroup, if_neg noRexW, if_neg noNeutral,
        if_pos List.head?_cons, List.tail_cons, readModRM?_eq_some_iff.mpr rfl]
  | @folded byte marker fold listed aligned =>
      obtain ⟨noColon, noGroup, noRexW, noNeutral⟩ := not_first_classes
        (not_mem_folded rfl rfl listed byte) (not_mem_folded rfl rfl listed byte)
        (not_mem_folded rfl rfl listed byte)
      have noSlash : (Text.hexByte byte ++ '+' :: marker.toList).head? ≠ some '/' := fun slash =>
        not_mem_folded rfl rfl listed byte (List.mem_of_mem_head? slash)
      have plus : (Text.hexByte byte ++ '+' :: marker.toList).contains '+' = true := by simp
      rw [readToken, if_neg noColon, if_neg noGroup, if_neg noRexW, if_neg noNeutral,
        if_neg noSlash, if_pos plus, readFold?_eq_some_iff.mpr (.folded listed aligned)]
  | byte value =>
      obtain ⟨noColon, noGroup, noRexW, noNeutral⟩ := not_first_classes
        (Text.not_mem_hexByte rfl value) (Text.not_mem_hexByte rfl value)
        (Text.not_mem_hexByte rfl value)
      have noSlash : (Text.hexByte value).head? ≠ some '/' := fun slash =>
        Text.not_mem_hexByte rfl value (List.mem_of_mem_head? slash)
      have noPlus : ¬(Text.hexByte value).contains '+' = true := by
        rw [List.contains_iff_mem]
        exact Text.not_mem_hexByte rfl value
      rw [readToken, if_neg noColon, if_neg noGroup, if_neg noRexW, if_neg noNeutral,
        if_neg noSlash, if_neg noPlus, Text.readHexByte?_eq_some_iff.mpr rfl]
  | immediate marker => cases marker <;> rfl

/-- A word is read as the token that it is a written form of. -/
theorem readToken_eq_ok_iff {encoding : String} {word : List Char} {token : Token} :
    readToken encoding word = .ok token ↔ Spells word token :=
  ⟨spells_of_readToken, readToken_of_spells encoding⟩

theorem Spells.unique {word : List Char} {first second : Token} (spellsFirst : Spells word first)
    (spellsSecond : Spells word second) : first = second := by
  have readFirst := readToken_of_spells "" spellsFirst
  rw [readToken_of_spells "" spellsSecond] at readFirst
  exact (Except.ok.inj readFirst).symm

/-- The fault of a word that is no written form of a token. -/
def wordFault (encoding : String) (word : List Char) : SyntaxError :=
  let text := String.ofList word
  if word.getLast? = some ':' then
    .unknownToken text encoding
  else if opensGroup word then
    groupFault word
  else if word.head? = some '/' then
    .invalidModRM text
  else if word.contains '+' then
    .invalidFold text
  else
    .unknownToken text encoding

theorem eq_wordFault_of_readToken {encoding : String} {word : List Char} {fault : SyntaxError}
    (refused : readToken encoding word = .error fault) : fault = wordFault encoding word := by
  unfold readToken at refused
  unfold wordFault
  dsimp only at refused ⊢
  split_ifs at refused ⊢ with colon isName opens rexW neutral slash plus
  · exact (Except.error.inj refused).symm
  · cases group : readGroup word with
    | error found =>
        rw [group] at refused
        obtain rfl := Except.error.inj refused
        exact eq_groupFault_of_readGroup group
    | ok written =>
        rw [group] at refused
        cases refused
  · split at refused
    · cases refused
    · exact (Except.error.inj refused).symm
  · split at refused
    · cases refused
    · exact (Except.error.inj refused).symm
  · split at refused
    · cases refused
    · split at refused
      · cases refused
      · exact (Except.error.inj refused).symm

theorem readToken_eq_error_iff {encoding : String} {word : List Char} {fault : SyntaxError} :
    readToken encoding word = .error fault ↔
      (∀ token, ¬Spells word token) ∧ fault = wordFault encoding word := by
  constructor
  · intro refused
    refine ⟨?_, eq_wordFault_of_readToken refused⟩
    intro token spelled
    rw [readToken_of_spells encoding spelled] at refused
    cases refused
  · rintro ⟨unspelled, rfl⟩
    cases read : readToken encoding word with
    | error found => rw [eq_wordFault_of_readToken read]
    | ok token => exact absurd (spells_of_readToken read) (unspelled token)

end Encoding

end OpcodeTable
