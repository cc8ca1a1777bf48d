import OpcodeTable.Encoding.Printer
import OpcodeTable.Proofs.Encoding.FoldPlace
import OpcodeTable.Proofs.Text.Name

/-!
# Reading the text of an encoding again

The text of an encoding leaves out its scheme and all fields of the vector group but family and map. Read
again, it gives the encoding with what was left out at its default, and the text of that is the same.

This needs three things of an encoding. Its opcode has one to four bytes, and the first of them is not
taken for a prefix. A fold is on a last byte with free low bits. The map of its vector group is written with
its bytes. Every encoding that was read has them if no byte followed a fold and the map is not one of those
that have a name of their own.
-/

namespace OpcodeTable

/-- The group with the defaults for what the text of an encoding leaves out. -/
def VectorGroup.displayed (group : VectorGroup) : VectorGroup where
  family := group.family
  length := .bits128
  map := group.map
  mandatory := none
  wide := .ignored

/-- The family writes the map with the bytes that stand for it. -/
def VectorGroup.WritesMap (group : VectorGroup) : Prop :=
  group.family.field? (Text.hexBytes group.map.escape) = some (.map group.map)

namespace PrefixSet

theorem mem_foldl_insert {bytes : List PrefixByte} {set : PrefixSet} {byte : PrefixByte} :
    byte ∈ bytes.foldl insert set ↔ byte ∈ bytes ∨ byte ∈ set := by
  induction bytes generalizing set with
  | nil => simp
  | cons first rest ih => rw [List.foldl_cons, ih, mem_insert, List.mem_cons, or_left_comm, or_assoc]

theorem foldl_insert_members (set : PrefixSet) : set.members.foldl insert empty = set := by
  apply eq_of_mem_iff
  intro byte
  have notEmpty : byte ∉ empty := List.not_mem_nil
  rw [mem_foldl_insert, or_iff_left notEmpty]
  rfl

end PrefixSet

namespace Encoding

section Words

variable {word : List Char} {token : Token}

/-- The characters of words that spell tokens. -/
def isTokenChar (c : Char) : Bool :=
  Text.isNameChar c || [':', '.', '/', '+'].contains c

theorem isBlank_of_isTokenChar {c : Char} (known : isTokenChar c = true) : Text.isBlank c = false := by
  rcases Bool.or_eq_true_iff.mp known with named | mark
  · exact Text.isBlank_of_isNameChar named
  · have unblank : [':', '.', '/', '+'].all (fun mark => !Text.isBlank mark) = true := by decide
    simpa using List.all_eq_true.mp unblank c (List.contains_iff_mem.mp mark)

private theorem all_isTokenChar_of_isNameChar {text : List Char} (named : text.all Text.isNameChar = true) :
    text.all isTokenChar = true := by
  rw [List.all_eq_true] at named ⊢
  intro c cMem
  rw [isTokenChar, named c cMem, Bool.true_or]

theorem Spells.all_isTokenChar (spelled : Spells word token) : word.all isTokenChar = true := by
  cases spelled with
  | @scheme name isName =>
      have named : name.all Text.isNameChar = true := (Bool.and_eq_true_iff.mp isName).2
      rw [List.all_append, all_isTokenChar_of_isNameChar named]
      rfl
  | vector written =>
      rw [List.all_eq_true]
      intro c cMem
      rcases eq_point_or_isAlphanum_of_writtenAs written c cMem with rfl | alphanumeric
      · rfl
      · rw [isTokenChar, Text.isNameChar, alphanumeric]
        rfl
  | rexW => decide
  | neutral listed =>
      simp only [List.mem_cons, List.not_mem_nil, or_false] at listed
      rcases listed with rfl | rfl | rfl <;> decide
  | modRM use =>
      cases use with
      | digit value =>
          revert value
          decide
      | register => decide
      | immediateRegister => decide
  | @folded byte marker fold listed aligned =>
      have digits := all_isTokenChar_of_isNameChar (Text.all_isNameChar_hexFixed 2 byte.toNat)
      have markers : foldMarkers.all (fun entry => ('+' :: entry.1.toList).all isTokenChar) = true := by
        decide
      rw [List.all_append, List.all_eq_true.mp markers _ listed, Bool.and_true]
      exact digits
  | byte value => exact all_isTokenChar_of_isNameChar (Text.all_isNameChar_hexFixed 2 value.toNat)
  | immediate marker => cases marker <;> decide

theorem Spells.ne_nil (spelled : Spells word token) : word ≠ [] := by
  rintro rfl
  have read := readToken_of_spells "" spelled
  cases read

/-- Words that spell tokens are the words of the text that they make with spaces between them. -/
theorem words_intercalate_of_spells {words : List (List Char)} {tokens : List Token}
    (spelled : List.Forall₂ Spells words tokens) : Text.words ([' '].intercalate words) = words := by
  have allWords : ∀ word ∈ words, word ≠ [] ∧ word.all isTokenChar = true := by
    have paired := spelled.imp fun word token written => And.intro
      (And.intro written.ne_nil written.all_isTokenChar) written
    exact ((List.forall₂_and_left _ _).mp paired).1
  apply Text.words_intercalate
  · intro word wordMem
    exact (allWords word wordMem).1
  · intro word wordMem c cMem
    exact isBlank_of_isTokenChar (List.all_eq_true.mp (allWords word wordMem).2 c cMem)

end Words

/-- What the text of an encoding says about it. -/
def displayed (encoding : Encoding) : Encoding :=
  { encoding with
    scheme := (encoding.vector.map fun group => group.family.name).getD plainScheme
    vector := encoding.vector.map VectorGroup.displayed }

theorem display_displayed (encoding : Encoding) : encoding.displayed.display = encoding.display := by
  have sameGroup : encoding.displayed.vector.map groupWord = encoding.vector.map groupWord := by
    rw [displayed, Option.map_map]
    rfl
  rw [display, displayWords, sameGroup]
  rfl

/-- What an encoding needs for its text to be read as what was written. Its first byte must not be a prefix
byte, unless it has the fold. -/
structure Rereadable (encoding : Encoding) : Prop where
  opcode_pos : 1 ≤ encoding.opcode.length
  opcode_le : encoding.opcode.length ≤ opcodeLimit
  opens : encoding.vector = none → ∀ byte ∈ encoding.opcode.head?,
    PrefixByte.ofByte? byte = none ∨ encoding.fold.isSome = true ∧ encoding.opcode = [byte]
  aligned : encoding.fold.isSome = true → ∀ byte ∈ encoding.opcode.getLast?, byte.toNat % 8 = 0
  writesMap : ∀ group ∈ encoding.vector, group.WritesMap

def opcodeTokens (fold : Option Fold) : List UInt8 → List Token
  | [] => []
  | [byte] =>
      match fold with
      | none => [.byte byte]
      | some fold => [.folded byte fold]
  | byte :: rest => .byte byte :: opcodeTokens fold rest

def displayTokens (encoding : Encoding) : List Token :=
  encoding.prefixes.members.map (fun found => .byte found.byte) ++
    (if encoding.rexW then [.rexW] else []) ++
    (encoding.vector.map fun group => Token.vector group.displayed).toList ++
    opcodeTokens encoding.fold encoding.opcode ++
    (encoding.modRM.map Token.modRM).toList ++
    encoding.immediates.map Token.immediate

section Spelling

theorem writtenAs_groupWord {group : VectorGroup} (writes : group.WritesMap) :
    group.displayed.WrittenAs (groupWord group).toList := by
  have wordEq : (groupWord group).toList =
      ['.'].intercalate [group.family.name.toList, Text.hexBytes group.map.escape] := by
    simp [groupWord, List.intercalate]
  have fieldsEq : [Text.hexBytes group.map.escape].filterMap group.family.field? = [.map group.map] := by
    rw [List.filterMap_cons_some writes, List.filterMap_nil]
  rw [wordEq]
  refine .mk ?_ ?_
  · intro text textMem
    rw [List.mem_singleton.mp textMem, writes]
    rfl
  · rw [fieldsEq]
    rfl

theorem forall₂_opcodeWords {fold : Option Fold} {bytes : List UInt8}
    (aligned : fold.isSome = true → ∀ byte ∈ bytes.getLast?, byte.toNat % 8 = 0) :
    List.Forall₂ Spells ((opcodeWords fold bytes).map String.toList) (opcodeTokens fold bytes) := by
  induction bytes with
  | nil => exact .nil
  | cons byte rest ih =>
      cases rest with
      | nil =>
          cases fold with
          | none =>
              have written : (String.ofList (Text.hexByte byte)).toList = Text.hexByte byte :=
                String.toList_ofList
              simp only [opcodeWords, opcodeTokens, List.map_cons, List.map_nil, written]
              exact .cons (.byte byte) .nil
          | some fold =>
              have written : (String.ofList (Text.hexByte byte) ++ "+" ++ fold.name).toList =
                  Text.hexByte byte ++ '+' :: fold.name.toList := by
                simp
              have listed : (fold.name, fold) ∈ foldMarkers := by
                cases fold <;> decide
              simp only [opcodeWords, opcodeTokens, List.map_cons, List.map_nil, written]
              exact .cons (.folded listed (aligned rfl byte rfl)) .nil
      | cons next rest =>
          rw [List.getLast?_cons_cons] at aligned
          rw [opcodeWords, opcodeTokens, List.map_cons, String.toList_ofList]
          · exact .cons (.byte byte) (ih aligned)
          · simp
          · simp

theorem forall₂_displayWords {encoding : Encoding} (rereadable : encoding.Rereadable) :
    List.Forall₂ Spells (encoding.displayWords.map String.toList) encoding.displayTokens := by
  simp only [displayWords, displayTokens, List.map_append]
  refine List.rel_append (List.rel_append (List.rel_append (List.rel_append (List.rel_append ?_ ?_) ?_) ?_)
    ?_) ?_
  · rw [List.map_map, List.forall₂_map_left_iff, List.forall₂_map_right_iff, List.forall₂_same]
    intro found _
    rw [Function.comp_apply, String.toList_ofList]
    exact .byte found.byte
  · cases encoding.rexW with
    | false => exact .nil
    | true => exact .cons .rexW .nil
  · cases groupEq : encoding.vector with
    | none => exact .nil
    | some group => exact .cons (.vector (writtenAs_groupWord (rereadable.writesMap group groupEq))) .nil
  · exact forall₂_opcodeWords rereadable.aligned
  · cases encoding.modRM with
    | none => exact .nil
    | some use =>
        have written : ("/" ++ use.name).toList = '/' :: use.name.toList := by simp
        simp only [Option.map_some, Option.toList_some, List.map_cons, List.map_nil, written]
        exact .cons (.modRM use) .nil
  · rw [List.map_map, List.forall₂_map_left_iff, List.forall₂_map_right_iff, List.forall₂_same]
    intro marker _
    exact .immediate marker

theorem words_display {encoding : Encoding} (rereadable : encoding.Rereadable) :
    Text.words encoding.display.toList = encoding.displayWords.map String.toList := by
  rw [display, String.toList_intercalate]
  exact words_intercalate_of_spells (forall₂_displayWords rereadable)

end Spelling

namespace Draft

theorem foldl_add_prefixes {draft : Draft} (fresh : draft.isFresh = true) (bytes : List PrefixByte) :
    (bytes.map fun found => Token.byte found.byte).foldl add draft =
      { draft with prefixes := bytes.foldl PrefixSet.insert draft.prefixes } := by
  induction bytes generalizing draft with
  | nil => rfl
  | cons byte rest ih =>
      rw [List.map_cons, List.foldl_cons, add, addByte_of_some (PrefixByte.ofByte?_eq_some_iff.mpr rfl),
        if_pos fresh]
      exact ih fresh

theorem add_byte_of_not_prefix {draft : Draft} {byte : UInt8}
    (notPrefix : draft.isFresh = false ∨ PrefixByte.ofByte? byte = none) :
    draft.add (.byte byte) = { draft with opcode := draft.opcode ++ [byte] } := by
  cases found : PrefixByte.ofByte? byte with
  | none => exact addByte_of_none found
  | some prefixByte =>
      have notFresh : draft.isFresh = false := notPrefix.resolve_right (by simp [found])
      rw [add, addByte_of_some found, notFresh]
      rfl

/-- The bytes of an opcode are added as they are, if the first of them is not taken for a prefix. -/
theorem foldl_add_opcodeTokens {draft : Draft} {fold : Option Fold} {bytes : List UInt8}
    (noFold : draft.fold = none) (nonempty : bytes ≠ [])
    (opens : draft.isFresh = false ∨ ∀ byte ∈ bytes.head?,
      PrefixByte.ofByte? byte = none ∨ fold.isSome = true ∧ bytes = [byte]) :
    (opcodeTokens fold bytes).foldl add draft =
      { draft with opcode := draft.opcode ++ bytes, fold := fold } := by
  induction bytes generalizing draft with
  | nil => exact absurd rfl nonempty
  | cons byte rest ih =>
      cases rest with
      | nil =>
          cases fold with
          | some fold => rfl
          | none =>
              have notPrefix : draft.isFresh = false ∨ PrefixByte.ofByte? byte = none :=
                opens.imp_right fun first => (first byte rfl).resolve_right (by simp)
              simp only [opcodeTokens, List.foldl_cons, List.foldl_nil, add_byte_of_not_prefix notPrefix,
                ← noFold]
      | cons next rest =>
          have notPrefix : draft.isFresh = false ∨ PrefixByte.ofByte? byte = none :=
            opens.imp_right fun first => (first byte rfl).resolve_right (by simp)
          -- With one byte in the opcode, no later byte can be a prefix.
          have notFresh : ({ draft with opcode := draft.opcode ++ [byte] } : Draft).isFresh = false := by
            simp [isFresh]
          have later := @ih { draft with opcode := draft.opcode ++ [byte] } noFold
            (List.cons_ne_nil next rest) (.inl notFresh)
          rw [opcodeTokens, List.foldl_cons, add_byte_of_not_prefix notPrefix, later]
          · simp
          · simp

theorem foldl_add_immediates (draft : Draft) (markers : List ImmediateMarker) :
    (markers.map Token.immediate).foldl add draft =
      { draft with immediates := draft.immediates ++ markers } := by
  induction markers generalizing draft with
  | nil => simp
  | cons marker rest ih => simp [ih, add]

end Draft

theorem foldl_add_displayTokens {encoding : Encoding} (rereadable : encoding.Rereadable) :
    encoding.displayTokens.foldl Draft.add {} =
      { prefixes := encoding.prefixes
        opcode := encoding.opcode
        rexW := encoding.rexW
        vector := encoding.vector.map VectorGroup.displayed
        modRM := encoding.modRM
        fold := encoding.fold
        immediates := encoding.immediates } := by
  have rexWAdded : (if encoding.rexW then [Token.rexW] else []).foldl Draft.add
      { prefixes := encoding.prefixes } =
      { prefixes := encoding.prefixes, rexW := encoding.rexW } := by
    cases encoding.rexW <;> rfl
  have vectorAdded : (encoding.vector.map fun group => Token.vector group.displayed).toList.foldl Draft.add
      { prefixes := encoding.prefixes, rexW := encoding.rexW } =
      { prefixes := encoding.prefixes
        rexW := encoding.rexW
        vector := encoding.vector.map VectorGroup.displayed } := by
    cases encoding.vector <;> rfl
  have nonempty : encoding.opcode ≠ [] := List.length_pos_iff.mp rereadable.opcode_pos
  have opens : ({ prefixes := encoding.prefixes
                  rexW := encoding.rexW
                  vector := encoding.vector.map VectorGroup.displayed } : Draft).isFresh = false ∨
      ∀ byte ∈ encoding.opcode.head?, PrefixByte.ofByte? byte = none ∨
        encoding.fold.isSome = true ∧ encoding.opcode = [byte] := by
    cases groupEq : encoding.vector with
    | none => exact .inr (rereadable.opens groupEq)
    | some group => exact .inl rfl
  simp only [displayTokens, List.foldl_append]
  rw [Draft.foldl_add_prefixes rfl, PrefixSet.foldl_insert_members, rexWAdded, vectorAdded,
    Draft.foldl_add_opcodeTokens rfl nonempty opens, Draft.foldl_add_immediates]
  cases encoding.modRM <;> rfl

theorem parse_display_of_rereadable {encoding : Encoding} (rereadable : encoding.Rereadable) :
    parse encoding.display = .ok encoding.displayed := by
  have filled := foldl_add_displayTokens rereadable
  have opcodeEq : opcodeBytes encoding.displayTokens = encoding.opcode := by
    rw [← Draft.opcode_foldl_add, filled]
  have described := Draft.finish_foldl_add encoding.displayTokens
  have finished : (encoding.displayTokens.foldl Draft.add {}).finish = encoding.displayed := by
    rw [filled, displayed, Draft.finish, Draft.schemeName]
    cases encoding.vector <;> rfl
  rw [finished] at described
  refine parse_eq_ok_iff.mpr ⟨encoding.displayTokens, ⟨?_, ?_, ?_⟩, described⟩
  · rw [words_display rereadable]
    exact forall₂_displayWords rereadable
  · rw [opcodeEq]
    exact rereadable.opcode_pos
  · rw [opcodeEq]
    exact rereadable.opcode_le

/-- No byte stands behind a byte with a fold. -/
def FoldsLast (tokens : List Token) : Prop :=
  tokens.Pairwise fun earlier later => earlier.fold?.isSome = true → later.byte? = none

section Parsed

variable {tokens : List Token}

theorem FoldsLast.byte?_eq_none {before after : List Token} {byte : UInt8} {fold : Fold}
    (foldsLast : FoldsLast (before ++ .folded byte fold :: after)) :
    ∀ token ∈ after, token.byte? = none := by
  intro token tokenMem
  have behind := (List.pairwise_cons.mp (List.pairwise_append.mp foldsLast).2.1).1
  exact behind token tokenMem rfl

/-- An opcode opens with a byte that is no prefix, unless a vector group or a fold makes it an opcode byte. -/
theorem ofByte?_head_opcodeBytes (foldsLast : FoldsLast tokens)
    (noGroup : lastGiven? Token.group? tokens = none) {byte : UInt8} (first : byte ∈ (opcodeBytes tokens).head?) :
    PrefixByte.ofByte? byte = none ∨
      (lastGiven? Token.fold? tokens).isSome = true ∧ opcodeBytes tokens = [byte] := by
  cases dropped : tokens.dropWhile fun token => !token.endsPrefixes with
  | nil => simp [opcodeBytes, dropped] at first
  | cons token rest =>
      have ends : token.endsPrefixes = true := by
        have stopped := List.head?_dropWhile_not (fun token => !token.endsPrefixes) tokens
        simpa [dropped] using stopped
      have tokensEq : tokens.takeWhile (fun token => !token.endsPrefixes) ++ token :: rest = tokens := by
        rw [← dropped, List.takeWhile_append_dropWhile]
      have bytesEq : opcodeBytes tokens = (token :: rest).filterMap Token.byte? := by
        rw [opcodeBytes, dropped]
      have tokenMem : token ∈ tokens := by
        rw [← tokensEq]
        exact List.mem_append_right _ List.mem_cons_self
      rw [bytesEq] at first ⊢
      cases token with
      | vector group => cases lastGiven?_eq_none_iff.mp noGroup _ tokenMem
      | folded value fold =>
          rw [← tokensEq] at foldsLast
          have noLater : rest.filterMap Token.byte? = [] :=
            List.filterMap_eq_nil_iff.mpr foldsLast.byte?_eq_none
          have givesFold : lastGiven? Token.fold? tokens ≠ none := by
            intro absent
            cases lastGiven?_eq_none_iff.mp absent _ tokenMem
          have onlyByte : (Token.folded value fold :: rest).filterMap Token.byte? = [value] :=
            congrArg (value :: ·) noLater
          rw [onlyByte] at first ⊢
          obtain rfl := Option.some.inj first
          exact .inr ⟨Option.isSome_iff_ne_none.mpr givesFold, rfl⟩
      | byte value =>
          obtain rfl : value = byte := Option.some.inj first
          exact .inl (Option.isNone_iff_eq_none.mp ends)
      | _ => cases ends

private theorem field?_escape {family : VectorFamily} {map : OpcodeMap}
    (listed : .map map ∈ family.fields.map Prod.snd) (written : map ≠ .map5 ∧ map ≠ .map6) :
    family.field? (Text.hexBytes map.escape) = some (.map map) := by
  revert listed written
  cases family <;> cases map <;> decide +kernel

theorem writesMap_of_writtenAs {group : VectorGroup} {word : List Char} (written : group.WrittenAs word)
    (notNamed : group.map ≠ .map5 ∧ group.map ≠ .map6) : group.WritesMap := by
  obtain ⟨known, given⟩ := written
  rename_i family texts
  obtain ⟨map, mapGiven, rfl⟩ := Option.map_eq_some_iff.mp given
  obtain ⟨before, field, after, fieldsEq, fieldGives, _⟩ := exists_last_of_lastGiven? mapGiven
  have fieldMem : field ∈ texts.filterMap family.field? := by
    rw [fieldsEq]
    exact List.mem_append_right before List.mem_cons_self
  obtain ⟨text, _, read⟩ := List.mem_filterMap.mp fieldMem
  have fieldEq : field = .map map := by
    cases field with
    | map value => rw [Option.some.inj fieldGives]
    | _ => cases fieldGives
  obtain ⟨front, back, entriesEq, _⟩ := List.lookup_eq_some_iff.mp read
  apply field?_escape _ notNamed
  rw [entriesEq, fieldEq]
  simp

/-- Every encoding that was read from a text without a byte behind a fold can be written and read again. -/
theorem rereadable_of_parse {text : String} {encoding : Encoding} (parsed : parse text = .ok encoding)
    (spelled : List.Forall₂ Spells (Text.words text.toList) tokens) (foldsLast : FoldsLast tokens)
    (notNamed : ∀ group ∈ encoding.vector, group.map ≠ .map5 ∧ group.map ≠ .map6) :
    encoding.Rereadable := by
  obtain ⟨found, accepted, described⟩ := parse_eq_ok_iff.mp parsed
  have unique : Relator.RightUnique Spells := fun _ _ _ first second => first.unique second
  obtain rfl : found = tokens := List.right_unique_forall₂' unique accepted.spelled spelled
  constructor
  · rw [described.opcode]
    exact accepted.opcode_pos
  · rw [described.opcode]
    exact accepted.opcode_le
  · intro noGroup byte first
    rw [described.opcode] at first ⊢
    rw [described.fold]
    exact ofByte?_head_opcodeBytes foldsLast (described.vector.symm.trans noGroup) first
  · intro hasFold byte last
    obtain ⟨fold, foldEq⟩ := Option.isSome_iff_exists.mp hasFold
    obtain ⟨before, folded, after, rfl, _⟩ := exists_fold_of_lastGiven? (described.fold.symm.trans foldEq)
    have noLater : after.filterMap Token.byte? = [] :=
      List.filterMap_eq_nil_iff.mpr foldsLast.byte?_eq_none
    have bytesEq : opcodeBytes (before ++ .folded folded fold :: after) = opcodeBytes before ++ [folded] := by
      rw [opcodeBytes_append_of_endsPrefixes rfl]
      exact congrArg (opcodeBytes before ++ folded :: ·) noLater
    rw [described.opcode, bytesEq, List.getLast?_concat] at last
    obtain rfl := Option.some.inj last
    exact aligned_of_spells spelled (List.mem_append_right before List.mem_cons_self)
  · intro group groupEq
    have given : lastGiven? Token.group? found = some group := described.vector.symm.trans groupEq
    obtain ⟨token, tokenMem, tokenGives⟩ := List.mem_filterMap.mp (List.mem_of_getLast? given)
    obtain ⟨word, wordSpells⟩ := exists_spelling spelled tokenMem
    cases wordSpells with
    | vector written =>
        obtain rfl := Option.some.inj tokenGives
        exact writesMap_of_writtenAs written (notNamed _ groupEq)
    | _ => cases tokenGives

end Parsed

/-- The text of an encoding that was read can be read again, as long as no byte followed a fold and the
map of the vector group is written with its bytes. This gives the same prefixes, opcode, W bit, use of the
ModRM byte, fold and immediates, and the same family and map of the vector group; the scheme is the one that
belongs to the family, and the group has its defaults otherwise. The text of the encoding then stays what
it is. -/
theorem parse_display {text : String} {encoding : Encoding} {tokens : List Token}
    (parsed : parse text = .ok encoding)
    (spelled : List.Forall₂ Spells (Text.words text.toList) tokens) (foldsLast : FoldsLast tokens)
    (notNamed : ∀ group ∈ encoding.vector, group.map ≠ .map5 ∧ group.map ≠ .map6) :
    ∃ again, parse encoding.display = .ok again ∧
      again.prefixes = encoding.prefixes ∧ again.opcode = encoding.opcode ∧
      again.rexW = encoding.rexW ∧ again.modRM = encoding.modRM ∧ again.fold = encoding.fold ∧
      again.immediates = encoding.immediates ∧
      again.vector = encoding.vector.map VectorGroup.displayed ∧
      again.scheme = (encoding.vector.map fun group => group.family.name).getD plainScheme ∧
      again.display = encoding.display := by
  have rereadable := rereadable_of_parse parsed spelled foldsLast notNamed
  exact ⟨encoding.displayed, parse_display_of_rereadable rereadable, rfl, rfl, rfl, rfl, rfl, rfl, rfl, rfl,
    display_displayed encoding⟩

/-- Prefixes in another order than that of sets, an opcode byte that could be a prefix, and a fold. -/
def crowdedText : String :=
  "RM: 67 66 REX.W EVEX.512.F3.0F38.W1.B32 66 NP C8+rd /is4 ib id"

def crowdedGroup : VectorGroup := ⟨.evex, .bits512, .map0F38, some .rep, .one⟩

def crowdedTokens : List Token :=
  [.scheme "RM", .byte 0x67, .byte 0x66, .rexW, .vector crowdedGroup, .byte 0x66, .neutral,
    .folded 0xC8 .register, .modRM .immediateRegister, .immediate .ib, .immediate .id]

theorem parse_display_crowded :
    ∃ encoding, parse crowdedText = .ok encoding ∧
      List.Forall₂ Spells (Text.words crowdedText.toList) crowdedTokens ∧ FoldsLast crowdedTokens ∧
      encoding.display = "66 67 REX.W EVEX.0F38 66 C8+r /is4 ib id" ∧
      ∃ again, parse "66 67 REX.W EVEX.0F38 66 C8+r /is4 ib id" = .ok again ∧
        again.prefixes = encoding.prefixes ∧ again.opcode = [0x66, 0xC8] ∧ again.fold = some .register ∧
        again.vector = some ⟨.evex, .bits128, .map0F38, none, .ignored⟩ ∧ again.scheme = "EVEX" := by
  have parsed : parse crowdedText = .ok
      { scheme := "RM"
        prefixes := (PrefixSet.empty.insert .addressSize).insert .operandSize
        opcode := [0x66, 0xC8]
        rexW := true
        vector := some crowdedGroup
        modRM := some .immediateRegister
        fold := some .register
        immediates := [.ib, .id] } := by decide +kernel
  have read : (Text.words crowdedText.toList).map (readToken "") = crowdedTokens.map .ok := by
    decide +kernel
  rw [← List.forall₂_eq_eq_eq, List.forall₂_map_left_iff, List.forall₂_map_right_iff] at read
  have spelled : List.Forall₂ Spells (Text.words crowdedText.toList) crowdedTokens :=
    read.imp fun _ _ => readToken_eq_ok_iff.mp
  have foldsLast : FoldsLast crowdedTokens := by
    unfold FoldsLast
    decide
  obtain ⟨again, reread, prefixesEq, opcodeEq, _, _, foldEq, _, vectorEq, schemeEq, _⟩ :=
    parse_display parsed spelled foldsLast (by
      rintro group ⟨⟩
      decide)
  refine ⟨_, parsed, spelled, foldsLast, by decide +kernel, again, ?_, prefixesEq, opcodeEq, foldEq,
    vectorEq, schemeEq⟩
  rw [← reread]
  exact congrArg parse (by decide +kernel)

end Encoding

end OpcodeTable
