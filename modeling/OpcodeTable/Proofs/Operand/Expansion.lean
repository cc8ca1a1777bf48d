import OpcodeTable.Proofs.Choices
import OpcodeTable.Proofs.Operand.Faults
import OpcodeTable.Proofs.Operand.Items
import OpcodeTable.Report

/-!
# The tuples of an operand text

A text that expands gives one list of alternatives for each of its operand words, and its tuples are all
choices from these lists. No list is empty, since a word without alternatives is a fault. No list has
repetitions: they are dropped when the word is read, before any mask is put on it, and a mask never makes
different types the same. So no tuple comes twice, however many masks follow a word.
-/

namespace OpcodeTable

namespace OperandType

theorem withMask?_eq_some_iff {type masked : OperandType} {masking : Masking} :
    type.withMask? masking = some masked ↔
      (type.isMemory = true ∧ masked = type) ∨
      (∃ length, type = .vector length none ∧ masked = .vector length (some masking)) ∨
      (type = .mask ∧ masking = .merge ∧ masked = .maskedMask) := by
  unfold withMask?
  split_ifs with inMemory
  · constructor
    · intro same
      exact .inl ⟨inMemory, (Option.some.inj same).symm⟩
    · rintro (⟨_, rfl⟩ | ⟨_, rfl, _⟩ | ⟨rfl, _⟩)
      · rfl
      · cases inMemory
      · cases inMemory
  · split
    · simp [isMemory, eq_comm]
    · simp [isMemory, eq_comm]
    · rename_i notVector notMask
      constructor
      · intro impossible
        cases impossible
      · rintro (⟨isMemory, _⟩ | ⟨length, rfl, _⟩ | ⟨rfl, rfl, _⟩)
        · exact absurd isMemory inMemory
        · exact absurd rfl (notVector length)
        · exact absurd rfl (notMask rfl)

/-- A mask keeps the types apart that take it. -/
theorem eq_of_withMask?_eq {left right masked : OperandType} {masking : Masking}
    (leftMasked : left.withMask? masking = some masked)
    (rightMasked : right.withMask? masking = some masked) : left = right := by
  rw [withMask?_eq_some_iff] at leftMasked rightMasked
  rcases leftMasked with ⟨leftMemory, rfl⟩ | ⟨length, rfl, rfl⟩ | ⟨rfl, rfl, rfl⟩
  · rcases rightMasked with ⟨_, rfl⟩ | ⟨_, _, rfl⟩ | ⟨_, _, rfl⟩
    · rfl
    · cases leftMemory
    · cases leftMemory
  · rcases rightMasked with ⟨rightMemory, rfl⟩ | ⟨_, rfl, same⟩ | ⟨_, _, same⟩
    · cases rightMemory
    · cases same
      rfl
    · cases same
  · rcases rightMasked with ⟨rightMemory, rfl⟩ | ⟨_, _, same⟩ | ⟨rfl, _, _⟩
    · cases rightMemory
    · cases same
    · rfl

end OperandType

namespace Operand

/-- The number of operand words of a text. -/
def wordCount (text : String) : Nat :=
  ((lexemes text.toList).filterMap Lexeme.word?).length

namespace Progress

variable {progress next : Progress} {count : Nat}

theorem fault_note_eq_none_iff {faults : List (String × SyntaxError)} :
    (progress.note faults).fault = none ↔ progress.fault = none ∧ faults = [] := by
  simp [note]

@[simp]
theorem note_nil : progress.note [] = progress := by
  simp [note]

/-- What one item does to an expansion that is without fault afterwards. -/
theorem add_cases {item : Item} (added : progress.add item = .ok next)
    (faultless : next.fault = none) :
    progress.fault = none ∧
      ((∃ word, item = .operand word ∧ wordFaults word = [] ∧
          next.positions = wordTypes word :: progress.positions) ∨
        ∃ masking types earlier, item = .mask masking ∧ progress.positions = types :: earlier ∧
          maskFaults masking types = [] ∧ next.positions = maskTypes masking types :: earlier) := by
  cases item with
  | operand word =>
      obtain rfl := Except.ok.inj added
      obtain ⟨before, noFaults⟩ := fault_note_eq_none_iff.mp faultless
      exact ⟨before, .inl ⟨word, rfl, noFaults, rfl⟩⟩
  | mask masking =>
      cases positionsEq : progress.positions with
      | nil => simp [add, positionsEq] at added
      | cons types earlier =>
          simp only [add, positionsEq, Except.ok.injEq] at added
          obtain rfl := added
          obtain ⟨before, noFaults⟩ := fault_note_eq_none_iff.mp faultless
          exact ⟨before, .inr ⟨masking, types, earlier, rfl, rfl, noFaults, rfl⟩⟩

theorem wordFaults_eq_nil_iff {word : List Char} :
    wordFaults word = [] ↔
      alternativeWords word ≠ [] ∧
        ∀ alternative ∈ alternativeWords word, (OperandType.ofSpelling? alternative).isSome = true := by
  simp only [wordFaults]
  split_ifs with noAlternatives
  · simp [List.isEmpty_iff.mp noAlternatives]
  · have hasAlternatives : alternativeWords word ≠ [] := by simpa using noAlternatives
    simp [List.filter_eq_nil_iff, hasAlternatives, Option.isSome_iff_ne_none]

theorem maskFaults_eq_nil_iff {masking : Masking} {types : List OperandType} :
    maskFaults masking types = [] ↔ ∀ type ∈ types, (type.withMask? masking).isSome = true := by
  simp [maskFaults, List.filter_eq_nil_iff, Option.isSome_iff_ne_none]

theorem wordTypes_ne_nil {word : List Char} (noFaults : wordFaults word = []) : wordTypes word ≠ [] := by
  obtain ⟨hasAlternatives, named⟩ := wordFaults_eq_nil_iff.mp noFaults
  obtain ⟨alternative, alternativeMem⟩ := List.exists_mem_of_ne_nil _ hasAlternatives
  obtain ⟨type, typeEq⟩ := Option.isSome_iff_exists.mp (named alternative alternativeMem)
  apply List.ne_nil_of_mem
  exact mem_distinct.mpr (List.mem_filterMap.mpr ⟨alternative, alternativeMem, typeEq⟩)

theorem maskTypes_eq_filterMap {masking : Masking} {types : List OperandType}
    (noFaults : maskFaults masking types = []) :
    maskTypes masking types = types.filterMap fun type => type.withMask? masking := by
  rw [maskFaults_eq_nil_iff] at noFaults
  rw [maskTypes, ← List.filterMap_eq_map]
  apply List.filterMap_congr
  intro type typeMem
  obtain ⟨masked, maskedEq⟩ := Option.isSome_iff_exists.mp (noFaults type typeMem)
  simp [maskedEq]

theorem nodup_maskTypes {masking : Masking} {types : List OperandType}
    (noFaults : maskFaults masking types = []) (nodup : types.Nodup) :
    (maskTypes masking types).Nodup := by
  rw [maskTypes_eq_filterMap noFaults]
  apply nodup.filterMap
  intro left right masked leftMasked rightMasked
  exact OperandType.eq_of_withMask?_eq leftMasked rightMasked

/-- The alternatives of a number of positions, none of them without any and none with repetitions. -/
structure Sound (positions : List (List OperandType)) (count : Nat) : Prop where
  length_eq : positions.length = count
  nonempty : ∀ types ∈ positions, types ≠ []
  nodup : ∀ types ∈ positions, types.Nodup

theorem add_sound {item : Item} (added : progress.add item = .ok next) (faultless : next.fault = none)
    (sound : Sound progress.positions count) :
    Sound next.positions (count + item.word?.toList.length) := by
  obtain ⟨_, ⟨word, rfl, noFaults, positionsEq⟩ |
    ⟨masking, types, earlier, rfl, beforeEq, noFaults, positionsEq⟩⟩ := add_cases added faultless
  · rw [positionsEq]
    constructor
    · rw [List.length_cons, sound.length_eq]
      rfl
    · exact List.forall_mem_cons.mpr ⟨wordTypes_ne_nil noFaults, sound.nonempty⟩
    · exact List.forall_mem_cons.mpr ⟨nodup_distinct _, sound.nodup⟩
  · rw [beforeEq] at sound
    obtain ⟨typesNonempty, earlierNonempty⟩ := List.forall_mem_cons.mp sound.nonempty
    obtain ⟨typesNodup, earlierNodup⟩ := List.forall_mem_cons.mp sound.nodup
    rw [positionsEq]
    constructor
    · exact sound.length_eq
    · exact List.forall_mem_cons.mpr ⟨by simpa [maskTypes] using typesNonempty, earlierNonempty⟩
    · exact List.forall_mem_cons.mpr ⟨nodup_maskTypes noFaults typesNodup, earlierNodup⟩

end Progress

/-- An expansion that ends without fault was without fault all the time, so every item kept its positions
sound. -/
theorem exists_sound_of_expandItems {progress : Progress} {items : List Item} {count : Nat}
    {tuples : List (List OperandType)}
    (expanded : (expandItems progress items).result = .ok tuples)
    (sound : progress.fault = none → Progress.Sound progress.positions count) :
    ∃ positions, Progress.Sound positions (count + (items.filterMap Item.word?).length) ∧
      tuples = choices positions.reverse := by
  induction items generalizing progress count with
  | nil =>
      unfold expandItems at expanded
      cases faultEq : progress.fault with
      | some fault => simp [faultEq] at expanded
      | none =>
          simp only [faultEq, Except.ok.injEq] at expanded
          exact ⟨progress.positions, sound faultEq, expanded.symm⟩
  | cons item rest ih =>
      unfold expandItems at expanded
      cases added : progress.add item with
      | error fault => simp [added] at expanded
      | ok next =>
          rw [added] at expanded
          have nextSound (faultless : next.fault = none) :
              Progress.Sound next.positions (count + item.word?.toList.length) :=
            Progress.add_sound added faultless (sound (Progress.add_cases added faultless).1)
          obtain ⟨positions, positionsSound, tuplesEq⟩ := ih expanded nextSound
          refine ⟨positions, ?_, tuplesEq⟩
          have counted : (List.filterMap Item.word? (item :: rest)).length =
              item.word?.toList.length + (rest.filterMap Item.word?).length := by
            cases item with
            | operand word => exact Nat.add_comm _ 1
            | mask masking => exact (Nat.zero_add _).symm
          rwa [counted, ← Nat.add_assoc]

/-- The tuples of a text are all choices from its sound positions, one for each operand word. -/
theorem exists_sound_of_expand {text : String} {tuples : List (List OperandType)}
    (expanded : (expand text).result = .ok tuples) :
    ∃ positions, Progress.Sound positions (wordCount text) ∧ tuples = choices positions := by
  unfold expand at expanded
  cases read : readItems text.toList with
  | error fault => simp [read] at expanded
  | ok items =>
      rw [read] at expanded
      obtain ⟨positions, sound, tuplesEq⟩ := @exists_sound_of_expandItems {} items 0 tuples expanded
        fun _ => ⟨rfl, by simp, by simp⟩
      rw [Nat.zero_add, filterMap_word?_readItems read] at sound
      refine ⟨positions.reverse, ⟨?_, ?_, ?_⟩, tuplesEq⟩
      · rw [List.length_reverse]
        exact sound.length_eq
      · simpa using sound.nonempty
      · simpa using sound.nodup

/-- Whenever a text expands, it expands to at least one tuple. Every tuple has one type for each operand
word of the text, the tuples are the lexicographic product of one list of alternatives for each of these
words, none of them empty, and no tuple comes twice. The report does not change. -/
theorem expand_product {text : String} {tuples : List (List OperandType)}
    (expanded : (expand text).result = .ok tuples) :
    tuples ≠ [] ∧
    (∀ tuple ∈ tuples, tuple.length = wordCount text) ∧
    (∃ positions, positions.length = wordCount text ∧ (∀ types ∈ positions, types ≠ []) ∧
      IsLexProduct positions tuples) ∧
    tuples.Nodup ∧
    ∀ report : Report, report.addUnknown (expand text).unknown = report := by
  obtain ⟨positions, sound, rfl⟩ := exists_sound_of_expand expanded
  refine ⟨?_, ?_, ?_, nodup_choices sound.nodup, ?_⟩
  · have positive := choiceCount_pos sound.nonempty
    rw [← length_choices] at positive
    exact List.length_pos_iff.mp positive
  · intro tuple chosen
    rw [(mem_choices_iff.mp chosen).length_eq, sound.length_eq]
  · exact ⟨positions, sound.length_eq, sound.nonempty, choices_isLexProduct positions⟩
  · intro report
    rw [unknown_expand_eq_nil expanded]
    rfl

/-- A text with a repeated alternative, an annotation, and masks behind an alternative that takes them and
one that only lets them pass. -/
def maskedText : String :=
  "r32/R32|m32, W:k \x7bk\x7d, xmm/m128[low] \x7bk1\x7d\x7bz\x7d"

theorem expand_product_masked :
    ∃ tuples, (expand maskedText).result = .ok tuples ∧ tuples.length = 4 ∧ tuples.Nodup ∧
      (∀ tuple ∈ tuples, tuple.length = 3) ∧
      ∃ positions, positions.length = 3 ∧ (∀ types ∈ positions, types ≠ []) ∧
        IsLexProduct positions tuples := by
  have expanded : (expand maskedText).result = .ok
      [[.general .dword, .maskedMask, .vector .xmm (some .zero)],
        [.general .dword, .maskedMask, .memory .m128],
        [.memory .m32, .maskedMask, .vector .xmm (some .zero)],
        [.memory .m32, .maskedMask, .memory .m128]] := by decide +kernel
  have words : wordCount maskedText = 3 := by decide +kernel
  obtain ⟨_, lengths, product, nodup, _⟩ := expand_product expanded
  rw [words] at lengths product
  exact ⟨_, expanded, rfl, nodup, lengths, product⟩

end Operand

end OpcodeTable
