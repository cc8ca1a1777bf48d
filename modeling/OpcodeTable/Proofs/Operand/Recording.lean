import OpcodeTable.Proofs.Operand.Faults
import OpcodeTable.Proofs.Operand.Items
import OpcodeTable.Proofs.Report

/-!
# Which words of an operand text are reported

A text whose groups in braces can all be read has every word reported that names no type: alternatives in
no spelling of a type, words without alternatives, and types that do not take the mask put on them. The first
of them is the error. A group that cannot be read is an error of the same kind, but it stops the reading of
the text before any word is looked at, so then nothing is reported: neither the group nor any word.

The expansion is followed item by item. Behind each item, the words noted so far are those of the items up
to there.
-/

namespace OpcodeTable.Operand

variable {items : List Item} {word : String}

/-- The types of the last operand position, under the masks that follow its word. -/
def lastTypes (items : List Item) : List OperandType :=
  items.foldl
    (fun types item =>
      match item with
      | .operand word => Progress.wordTypes word
      | .mask masking => Progress.maskTypes masking types)
    []

/-- The words of a text that are to be reported: alternatives that are no spelling of a type, words without
alternatives, and types under a mask that they do not take. -/
inductive UnknownWord (text : List Char) : String → Prop where
  | alternative {word : List Char} {alternative : String} (listed : .word word ∈ lexemes text)
      (among : alternative ∈ alternativeWords word)
      (unnamed : OperandType.ofSpelling? alternative = none) : UnknownWord text alternative
  | empty {word : List Char} (listed : .word word ∈ lexemes text) (bare : alternativeWords word = []) :
      UnknownWord text (String.ofList word)
  | unmaskable {before after : List Item} {masking : Masking} {type : OperandType}
      (read : readItems text = .ok (before ++ .mask masking :: after)) (typed : type ∈ lastTypes before)
      (refused : type.withMask? masking = none) : UnknownWord text (type.name ++ maskText masking)

/-- The faults of an item behind other items. -/
def faultsAt (before : List Item) : Item → List (String × SyntaxError)
  | .operand word => Progress.wordFaults word
  | .mask masking => Progress.maskFaults masking (lastTypes before)

/-- An item is at fault, and this is its word. -/
def FaultyIn (items : List Item) (word : String) : Prop :=
  ∃ before item after, items = before ++ item :: after ∧ word ∈ (faultsAt before item).map Prod.fst

theorem faultyIn_concat {item : Item} :
    FaultyIn (items ++ [item]) word ↔ FaultyIn items word ∨ word ∈ (faultsAt items item).map Prod.fst := by
  constructor
  · rintro ⟨before, found, after, itemsEq, faulty⟩
    -- The item at fault is the last one, or it stands among those before.
    rcases List.eq_nil_or_concat after with rfl | ⟨front, last, rfl⟩
    · obtain ⟨rfl, same⟩ := List.append_inj' itemsEq rfl
      obtain rfl := List.singleton_inj.mp same
      exact .inr faulty
    · have cut : items ++ [item] = (before ++ found :: front) ++ [last] := by
        rw [itemsEq, List.concat_eq_append, List.append_assoc, List.cons_append]
      obtain ⟨frontEq, _⟩ := List.append_inj' cut rfl
      exact .inl ⟨before, found, front, frontEq, faulty⟩
  · rintro (⟨before, found, after, rfl, faulty⟩ | faulty)
    · exact ⟨before, found, after ++ [item], by simp, faulty⟩
    · exact ⟨items, item, [], rfl, faulty⟩

namespace Progress

theorem mem_wordFaults_iff {found : List Char} :
    word ∈ (wordFaults found).map Prod.fst ↔
      (alternativeWords found = [] ∧ word = String.ofList found) ∨
        (word ∈ alternativeWords found ∧ OperandType.ofSpelling? word = none) := by
  simp only [wordFaults]
  split
  · rename_i bare
    simp [List.isEmpty_iff.mp bare]
  · rename_i nonempty
    have hasAlternatives : alternativeWords found ≠ [] := by simpa using nonempty
    simp [hasAlternatives]

theorem mem_maskFaults_iff {masking : Masking} {types : List OperandType} :
    word ∈ (maskFaults masking types).map Prod.fst ↔
      ∃ type ∈ types, type.withMask? masking = none ∧ word = type.name ++ maskText masking := by
  rw [maskFaults, List.map_map, List.mem_map]
  constructor
  · rintro ⟨type, filtered, rfl⟩
    obtain ⟨typeMem, refused⟩ := List.mem_filter.mp filtered
    exact ⟨type, typeMem, Option.isNone_iff_eq_none.mp refused, rfl⟩
  · rintro ⟨type, typeMem, refused, rfl⟩
    exact ⟨type, List.mem_filter.mpr ⟨typeMem, Option.isNone_iff_eq_none.mpr refused⟩, rfl⟩

end Progress

theorem unknownWord_iff {text : List Char} (read : readItems text = .ok items) :
    UnknownWord text word ↔ FaultyIn items word := by
  constructor
  · intro unknown
    cases unknown with
    | alternative listed among unnamed =>
        obtain ⟨before, after, cut⟩ := List.append_of_mem ((mem_operand_readItems read).mpr listed)
        exact ⟨before, _, after, cut, Progress.mem_wordFaults_iff.mpr (.inr ⟨among, unnamed⟩)⟩
    | empty listed bare =>
        obtain ⟨before, after, cut⟩ := List.append_of_mem ((mem_operand_readItems read).mpr listed)
        exact ⟨before, _, after, cut, Progress.mem_wordFaults_iff.mpr (.inl ⟨bare, rfl⟩)⟩
    | @unmaskable before after masking type readToo typed refused =>
        rw [read] at readToo
        exact ⟨before, _, after, Except.ok.inj readToo,
          Progress.mem_maskFaults_iff.mpr ⟨type, typed, refused, rfl⟩⟩
  · rintro ⟨before, item, after, rfl, faulty⟩
    cases item with
    | operand found =>
        have listed : .word found ∈ lexemes text :=
          (mem_operand_readItems read).mp (List.mem_append_right before List.mem_cons_self)
        rcases Progress.mem_wordFaults_iff.mp faulty with ⟨bare, rfl⟩ | ⟨among, unnamed⟩
        · exact .empty listed bare
        · exact .alternative listed among unnamed
    | mask masking =>
        obtain ⟨type, typed, refused, rfl⟩ := Progress.mem_maskFaults_iff.mp faulty
        exact .unmaskable read typed refused

/-- The fault is one that leaves this word behind. -/
def IsFaultOf (fault : SyntaxError) (word : String) : Prop :=
  fault = .unknownOperand word ∨ fault = .emptyOperand word

theorem isFaultOf_of_mem_faultsAt {item : Item} {entry : String × SyntaxError}
    (faulty : entry ∈ faultsAt items item) : IsFaultOf entry.2 entry.1 := by
  cases item with
  | operand found =>
      simp only [faultsAt, Progress.wordFaults] at faulty
      split at faulty
      · rw [List.mem_singleton.mp faulty]
        exact .inr rfl
      · obtain ⟨alternative, _, rfl⟩ := List.mem_map.mp faulty
        exact .inl rfl
  | mask masking =>
      obtain ⟨type, _, rfl⟩ := List.mem_map.mp faulty
      exact .inl rfl

namespace Progress

variable {progress next : Progress}

/-- What an expansion knows behind some items: the types of the last position, the words of the items at
fault, and the fault of the first of these words. -/
structure Recorded (items : List Item) (progress : Progress) : Prop where
  types : progress.positions.headD [] = lastTypes items
  unknown : ∀ word, word ∈ progress.unknown ↔ FaultyIn items word
  consistent : progress.Consistent
  first : ∀ fault ∈ progress.fault, ∃ word ∈ progress.unknown.head?, IsFaultOf fault word

theorem empty_recorded : Recorded [] {} where
  types := rfl
  unknown word := by simp [FaultyIn]
  consistent := empty_consistent
  first fault absent := by cases absent

private theorem lastTypes_concat (items : List Item) (item : Item) :
    lastTypes (items ++ [item]) =
      match item with
      | .operand word => wordTypes word
      | .mask masking => maskTypes masking (lastTypes items) :=
  List.foldl_concat _ _ item items

/-- An item that does not stop the expansion adds its faults and changes the last position. -/
theorem add_eq_note {item : Item} (types : progress.positions.headD [] = lastTypes items)
    (added : progress.add item = .ok next) :
    next.unknown = (progress.note (faultsAt items item)).unknown ∧
      next.fault = (progress.note (faultsAt items item)).fault ∧
      next.positions.headD [] = lastTypes (items ++ [item]) := by
  rw [lastTypes_concat]
  cases item with
  | operand found =>
      obtain rfl := Except.ok.inj added
      exact ⟨rfl, rfl, rfl⟩
  | mask masking =>
      cases positionsEq : progress.positions with
      | nil => simp [add, positionsEq] at added
      | cons masked earlier =>
          rw [positionsEq, List.headD_cons] at types
          simp only [add, positionsEq, Except.ok.injEq] at added
          obtain rfl := added
          rw [← types]
          exact ⟨by rw [faultsAt, types], by rw [faultsAt, types], rfl⟩

theorem add_recorded {item : Item} (recorded : Recorded items progress)
    (added : progress.add item = .ok next) : Recorded (items ++ [item]) next := by
  obtain ⟨unknownEq, faultEq, typesEq⟩ := add_eq_note recorded.types added
  constructor
  · exact typesEq
  · intro word
    rw [unknownEq, note, List.mem_append, recorded.unknown, faultyIn_concat]
  · exact add_consistent recorded.consistent added
  · intro fault given
    rw [unknownEq]
    rw [faultEq] at given
    simp only [note, Option.mem_def, Option.or_eq_some_iff, List.head?_append] at given ⊢
    rcases given with earlier | ⟨faultless, fresh⟩
    · obtain ⟨word, isFirst, isFault⟩ := recorded.first fault earlier
      exact ⟨word, .inl isFirst, isFault⟩
    · obtain ⟨entry, isFirst, rfl⟩ := Option.map_eq_some_iff.mp fresh
      refine ⟨entry.1, .inr ⟨?_, ?_⟩, isFaultOf_of_mem_faultsAt (List.mem_of_head? isFirst)⟩
      · rw [recorded.consistent.mp faultless]
        rfl
      · rw [List.head?_map, isFirst]
        rfl

end Progress

/-- An expansion stops at a mask without operand, or it records the faults of all items. -/
theorem expandItems_recorded {done rest : List Item} {progress : Progress}
    (recorded : progress.Recorded done) :
    (∃ masking, (expandItems progress rest).result = .error (.danglingMask (maskText masking))) ∨
      ∃ final, Progress.Recorded (done ++ rest) final ∧ expandItems progress rest = expandItems final [] := by
  induction rest generalizing done progress with
  | nil => exact .inr ⟨progress, by rwa [List.append_nil], rfl⟩
  | cons item rest ih =>
      rw [expandItems]
      cases added : progress.add item with
      | error fault =>
          cases item with
          | operand found => cases added
          | mask masking =>
              cases positionsEq : progress.positions with
              | nil =>
                  simp only [Progress.add, positionsEq, Except.error.injEq] at added
                  exact .inl ⟨masking, by rw [added]⟩
              | cons types earlier => simp [Progress.add, positionsEq] at added
      | ok next =>
          rw [List.append_cons]
          exact ih (Progress.add_recorded recorded added)

/-- If a text fails because of a word, then one of two things holds. Either all its groups can be read;
then this word is the first one reported, and behind the call the report has, besides what it had before,
just the words of the text that are to be reported. Or a group cannot be read and is taken for the word;
then the report stays as it was. -/
theorem expand_fault_recorded {text token : String}
    (failed : (expand text).result = .error (.unknownOperand token) ∨
      (expand text).result = .error (.emptyOperand token))
    (report : Report) :
    ((∀ inner, .group inner ∈ lexemes text.toList → ∃ remark, readRemark inner = .ok remark) ∧
        (expand text).unknown.head? = some token ∧
        token ∈ (report.addUnknown (expand text).unknown).unknown ∧
        ∀ word, word ∈ (report.addUnknown (expand text).unknown).unknown ↔
          word ∈ report.unknown ∨ UnknownWord text.toList word) ∨
      (∃ inner, .group inner ∈ lexemes text.toList ∧
          readRemark inner = .error (.unknownOperand token)) ∧
        report.addUnknown (expand text).unknown = report := by
  cases read : readItems text.toList with
  | error fault =>
      have expanded : expand text = ⟨.error fault, []⟩ := by rw [expand, read]
      rw [expanded] at failed ⊢
      right
      refine ⟨?_, rfl⟩
      rcases readItems_error_cases read with ⟨inner, listed, unread⟩ | rfl
      · obtain ⟨found, rfl⟩ := exists_unknownOperand_of_readRemark unread
        have same : found = token := by simpa using failed
        exact ⟨inner, listed, same ▸ unread⟩
      · simp at failed
  | ok items =>
      have expanded : expand text = expandItems {} items := by rw [expand, read]
      rw [expanded] at failed ⊢
      left
      rcases @expandItems_recorded [] items {} Progress.empty_recorded with
        ⟨masking, stopped⟩ | ⟨final, recorded, ended⟩
      · simp [stopped] at failed
      · rw [List.nil_append] at recorded
        rw [ended, expandItems] at failed ⊢
        cases faultEq : final.fault with
        | none => simp [faultEq] at failed
        | some fault =>
            obtain ⟨word, isFirst, isFault⟩ := recorded.first fault faultEq
            have same : word = token := by
              rcases isFault with rfl | rfl <;> simpa [faultEq] using failed
            have reported (other : String) :
                other ∈ (report.addUnknown final.unknown).unknown ↔
                  other ∈ report.unknown ∨ UnknownWord text.toList other := by
              rw [Report.mem_unknown_addUnknown, recorded.unknown, unknownWord_iff read]
            have tokenMem : token ∈ final.unknown := same ▸ List.mem_of_head? isFirst
            refine ⟨fun inner listed => exists_remark_of_readItems read listed, same ▸ isFirst, ?_, reported⟩
            exact Report.mem_unknown_addUnknown.mpr (.inr tokenMem)

/-- Words without a type, one without alternatives, and a type and a masked type that take no mask. -/
def faultyText : String :=
  "tmm, bnd/xmm \x7bk\x7d\x7bk\x7d, r32 \x7bk1\x7d\x7bz\x7d, /"

theorem expand_fault_recorded_faulty :
    (expand faultyText).result = .error (.unknownOperand "tmm") ∧
      (expand faultyText).unknown = ["tmm", "bnd", "xmm_k\x7bk\x7d", "r32\x7bkz\x7d", "/"] ∧
      ∀ report : Report, "tmm" ∈ (report.addUnknown (expand faultyText).unknown).unknown ∧
        ∀ word, word ∈ (report.addUnknown (expand faultyText).unknown).unknown ↔
          word ∈ report.unknown ∨ UnknownWord faultyText.toList word := by
  have failed : (expand faultyText).result = .error (.unknownOperand "tmm") := by decide +kernel
  refine ⟨failed, by decide +kernel, ?_⟩
  intro report
  obtain ⟨_, _, recorded⟩ | ⟨⟨inner, listed, unread⟩, _⟩ := expand_fault_recorded (.inl failed) report
  · exact recorded
  · have lexemesEq : lexemes faultyText.toList =
        [.word "tmm".toList, .word "bnd/xmm".toList, .group ['k'], .group ['k'], .word "r32".toList,
          .group ['k', '1'], .group ['z'], .word ['/']] := by decide +kernel
    simp only [lexemesEq, List.mem_cons, Lexeme.group.injEq, reduceCtorEq, List.not_mem_nil, or_false,
      false_or] at listed
    rcases listed with rfl | rfl | rfl | rfl <;> exact absurd unread (by decide)

/-- A group that cannot be read is not reported, and neither is the word before it. -/
theorem expand_unread_group :
    (expand "bogus \x7bfoo\x7d").result = .error (.unknownOperand "\x7bfoo\x7d") ∧
      UnknownWord "bogus \x7bfoo\x7d".toList "bogus" ∧
      (({} : Report).addUnknown (expand "bogus \x7bfoo\x7d").unknown).unknown = [] := by
  refine ⟨by decide +kernel, ?_, by decide +kernel⟩
  have listed : .word "bogus".toList ∈ lexemes "bogus \x7bfoo\x7d".toList := by decide +kernel
  have among : "bogus" ∈ alternativeWords "bogus".toList := by decide +kernel
  exact .alternative listed among (by decide +kernel)

end OpcodeTable.Operand
