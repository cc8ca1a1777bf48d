import Mathlib.Tactic.SplitIfs
import OpcodeTable.Encoding.Reader
import OpcodeTable.Proofs.Text.Pieces

/-!
# Which words are vector groups

A vector group is written as the name of its family and fields, joined by points. Each family has a list
of the fields that it knows, and a group needs a field that names an opcode map. What a group says about
its length, map, prefix byte and W bit is what the last field about it says.
-/

namespace OpcodeTable

section LastGiven

variable {State Part Value : Type}

/-- The last value that the parts of a list give. -/
def lastGiven? (value? : Part → Option Value) (parts : List Part) : Option Value :=
  (parts.filterMap value?).getLast?

variable {step : State → Part → State} {value? : Part → Option Value}

theorem lastGiven?_cons (part : Part) (rest : List Part) :
    lastGiven? value? (part :: rest) = (lastGiven? value? rest).or (value? part) := by
  unfold lastGiven?
  cases given : value? part with
  | none => rw [List.filterMap_cons_none given, Option.or_none]
  | some value => rw [List.filterMap_cons_some given, List.getLast?_cons, Option.or_some]

theorem lastGiven?_eq_none_iff {parts : List Part} :
    lastGiven? value? parts = none ↔ ∀ part ∈ parts, value? part = none := by
  simp [lastGiven?]

/-- A value that each step overwrites with what the part gives is the last one given. -/
theorem foldl_eq_lastGiven? (read : State → Value)
    (overwrites : ∀ state part, read (step state part) = (value? part).getD (read state))
    (state : State) (parts : List Part) :
    read (parts.foldl step state) = (lastGiven? value? parts).getD (read state) := by
  induction parts generalizing state with
  | nil => rfl
  | cons part rest ih => rw [List.foldl_cons, ih, overwrites, lastGiven?_cons, Option.getD_or]

private theorem foldl_eq_lastGiven?_or (read : State → Option Value)
    (overwrites : ∀ state part, read (step state part) = (value? part).or (read state))
    (state : State) (parts : List Part) :
    read (parts.foldl step state) = (lastGiven? value? parts).or (read state) := by
  induction parts generalizing state with
  | nil => rfl
  | cons part rest ih => rw [List.foldl_cons, ih, overwrites, lastGiven?_cons, Option.or_assoc]

theorem foldl_eq_lastGiven?_of_none (read : State → Option Value)
    (overwrites : ∀ state part, read (step state part) = (value? part).or (read state))
    {state : State} (absent : read state = none) (parts : List Part) :
    read (parts.foldl step state) = lastGiven? value? parts := by
  rw [foldl_eq_lastGiven?_or read overwrites, absent, Option.or_none]

end LastGiven

/-- What a field of a vector group says. A remark says nothing that an encoding holds. -/
inductive GroupField where
  | length (value : GroupLength)
  | map (value : OpcodeMap)
  | mandatory (value : Option PrefixByte)
  | wide (value : WideBit)
  | remark
deriving DecidableEq, Repr

namespace GroupField

def length? : GroupField → Option GroupLength
  | .length value => some value
  | _ => none

def map? : GroupField → Option OpcodeMap
  | .map value => some value
  | _ => none

def mandatory? : GroupField → Option (Option PrefixByte)
  | .mandatory value => some value
  | _ => none

def wide? : GroupField → Option WideBit
  | .wide value => some value
  | _ => none

def shared : List (String × GroupField) :=
  [("128", .length .bits128), ("L0", .length .bits128), ("LZ", .length .bits128),
    ("256", .length .bits256), ("L1", .length .bits256), ("LIG", .length .ignored),
    ("NP", .mandatory none), ("W0", .wide .zero), ("W1", .wide .one), ("WIG", .wide .ignored),
    ("NDS", .remark), ("NDD", .remark), ("DDS", .remark)]

def vexEvex : List (String × GroupField) :=
  [("0F", .map .map0F), ("0F38", .map .map0F38), ("0F3A", .map .map0F3A),
    ("66", .mandatory (some .operandSize)), ("F2", .mandatory (some .repne)),
    ("F3", .mandatory (some .rep))]

def evexOnly : List (String × GroupField) :=
  [("512", .length .bits512), ("LLIG", .length .ignored), ("MAP5", .map .map5), ("MAP6", .map .map6),
    ("K", .remark), ("Z", .remark), ("KZ", .remark), ("ER", .remark), ("SAE", .remark),
    ("B16", .remark), ("B32", .remark), ("B64", .remark)]

def xopOnly : List (String × GroupField) :=
  [("08", .map .xop8), ("M08", .map .xop8), ("09", .map .xop9), ("M09", .map .xop9),
    ("0A", .map .xopA), ("M0A", .map .xopA), ("P0", .mandatory none)]

end GroupField

namespace VectorFamily

def fields : VectorFamily → List (String × GroupField)
  | .vex => GroupField.shared ++ GroupField.vexEvex
  | .evex => GroupField.shared ++ GroupField.vexEvex ++ GroupField.evexOnly
  | .xop => GroupField.shared ++ GroupField.xopOnly

/-- What a text says as a field of a family. -/
def field? (family : VectorFamily) (text : List Char) : Option GroupField :=
  family.fields.lookup (String.ofList text)

theorem ofName?_eq_some_iff {text : String} {family : VectorFamily} :
    ofName? text = some family ↔ text = family.name := by
  constructor
  · intro named
    unfold ofName? at named
    split at named <;> cases named <;> rfl
  · rintro rfl
    cases family <;> rfl

theorem isAlphanum_of_field? {family : VectorFamily} {text : List Char} {field : GroupField}
    (known : family.field? text = some field) : ∀ c ∈ text, c.isAlphanum = true := by
  have allFields : ∀ entry ∈ family.fields, entry.1.toList.all Char.isAlphanum = true := by
    cases family <;> decide
  obtain ⟨before, after, fieldsEq, _⟩ := List.lookup_eq_some_iff.mp known
  have entryMem : (String.ofList text, field) ∈ family.fields := by simp [fieldsEq]
  have plain := allFields _ entryMem
  rw [String.toList_ofList] at plain
  exact List.all_eq_true.mp plain

end VectorFamily

/-- The group that fields of a family give, if one of them names an opcode map. -/
def VectorGroup.ofFields? (family : VectorFamily) (fields : List GroupField) : Option VectorGroup :=
  (lastGiven? GroupField.map? fields).map fun map =>
    { family := family
      length := (lastGiven? GroupField.length? fields).getD .bits128
      map := map
      mandatory := (lastGiven? GroupField.mandatory? fields).getD none
      wide := (lastGiven? GroupField.wide? fields).getD .ignored }

/-- A word writes a vector group: the name of a family, and fields that this family knows, one of which
names an opcode map. -/
inductive VectorGroup.WrittenAs : VectorGroup → List Char → Prop where
  | mk {family : VectorFamily} {texts : List (List Char)} {group : VectorGroup}
      (known : ∀ text ∈ texts, (family.field? text).isSome = true)
      (given : VectorGroup.ofFields? family (texts.filterMap family.field?) = some group) :
      WrittenAs group (['.'].intercalate (family.name.toList :: texts))

namespace Encoding

namespace GroupDraft

def fill (draft : GroupDraft) : GroupField → GroupDraft
  | .length value => { draft with length := value }
  | .map value => { draft with map := some value }
  | .mandatory value => { draft with mandatory := value }
  | .wide value => { draft with wide := value }
  | .remark => draft

theorem field?_eq (family : VectorFamily) (draft : GroupDraft) (text : List Char) :
    draft.field? family (String.ofList text) = (family.field? text).map draft.fill := by
  unfold VectorFamily.field?
  generalize String.ofList text = word
  unfold GroupDraft.field?
  extract_lets evex xop
  split
  case h_39 =>
    have unknown : family.fields.lookup word = none := by
      apply List.lookup_eq_none_iff.mpr
      cases family <;>
        simp_all [VectorFamily.fields, GroupField.shared, GroupField.vexEvex, GroupField.evexOnly,
          GroupField.xopOnly]
    rw [unknown, Option.map_none]
  all_goals cases family <;> rfl

variable (fields : List GroupField)

theorem length_foldl_fill :
    (fields.foldl fill {}).length = (lastGiven? GroupField.length? fields).getD .bits128 :=
  foldl_eq_lastGiven? length (fun draft field => by cases field <;> rfl) {} fields

theorem map_foldl_fill : (fields.foldl fill {}).map = lastGiven? GroupField.map? fields :=
  foldl_eq_lastGiven?_of_none map (fun draft field => by cases field <;> rfl) rfl fields

theorem mandatory_foldl_fill :
    (fields.foldl fill {}).mandatory = (lastGiven? GroupField.mandatory? fields).getD none :=
  foldl_eq_lastGiven? mandatory (fun draft field => by cases field <;> rfl) {} fields

theorem wide_foldl_fill :
    (fields.foldl fill {}).wide = (lastGiven? GroupField.wide? fields).getD .ignored :=
  foldl_eq_lastGiven? wide (fun draft field => by cases field <;> rfl) {} fields

end GroupDraft

/-- The first field that its family does not know is refused; otherwise all fields are filled in. -/
theorem readFields_eq (family : VectorFamily) (word : String) (draft : GroupDraft)
    (texts : List (List Char)) :
    readFields family word draft texts =
      match texts.find? fun text => (family.field? text).isNone with
      | some text => .error (.unknownVectorField family.name (String.ofList text) word)
      | none => .ok ((texts.filterMap family.field?).foldl GroupDraft.fill draft) := by
  induction texts generalizing draft with
  | nil => rfl
  | cons text rest ih =>
      rw [readFields, GroupDraft.field?_eq]
      cases known : family.field? text with
      | none => simp [known]
      | some field => simp [known, ih]

/-- The fault of a word that opens like a vector group and is none. -/
def groupFault (word : List Char) : SyntaxError :=
  let text := String.ofList word
  let parts := Text.pieces (· == '.') word
  let head := String.ofList (parts.headD [])
  match VectorFamily.ofName? head with
  | none => .unknownVectorField "vector" head text
  | some family =>
      match parts.tail.find? fun field => (family.field? field).isNone with
      | some field => .unknownVectorField family.name (String.ofList field) text
      | none => .missingOpcodeMap text

private theorem readGroup_eq (word : List Char) :
    readGroup word =
      match VectorFamily.ofName? (String.ofList ((Text.pieces (· == '.') word).headD [])) with
      | none => .error (groupFault word)
      | some family =>
          let texts := (Text.pieces (· == '.') word).tail
          if texts.all fun text => (family.field? text).isSome then
            match VectorGroup.ofFields? family (texts.filterMap family.field?) with
            | none => .error (groupFault word)
            | some group => .ok group
          else
            .error (groupFault word) := by
  unfold readGroup groupFault
  generalize Text.pieces (· == '.') word = parts
  dsimp only
  cases VectorFamily.ofName? (String.ofList (parts.headD [])) with
  | none => rfl
  | some family =>
      simp only [readFields_eq]
      cases unknown : parts.tail.find? fun field => (family.field? field).isNone with
      | some text =>
          have refused : ¬parts.tail.all fun text => (family.field? text).isSome := by
            intro allKnown
            have known := List.all_eq_true.mp allKnown text (List.mem_of_find?_eq_some unknown)
            have fieldless := List.find?_some unknown
            simp_all
          simp only [refused]
          rfl
      | none =>
          have allKnown : parts.tail.all fun text => (family.field? text).isSome := by
            simpa [Option.isSome_iff_ne_none] using unknown
          simp only [allKnown, GroupDraft.map_foldl_fill, GroupDraft.length_foldl_fill,
            GroupDraft.mandatory_foldl_fill, GroupDraft.wide_foldl_fill, VectorGroup.ofFields?]
          cases lastGiven? GroupField.map? (parts.tail.filterMap family.field?) with
          | none => rfl
          | some map => rfl

theorem eq_groupFault_of_readGroup {word : List Char} {fault : SyntaxError}
    (refused : readGroup word = .error fault) : fault = groupFault word := by
  rw [readGroup_eq] at refused
  split at refused
  · exact (Except.error.inj refused).symm
  · dsimp only at refused
    split at refused
    · split at refused
      · exact (Except.error.inj refused).symm
      · cases refused
    · exact (Except.error.inj refused).symm

private theorem isAlphanum_of_mem_parts {family : VectorFamily} {texts : List (List Char)}
    (known : ∀ text ∈ texts, (family.field? text).isSome = true) :
    ∀ part ∈ family.name.toList :: texts, ∀ c ∈ part, c.isAlphanum = true := by
  intro part partMem
  rcases List.mem_cons.mp partMem with rfl | textMem
  · have plain : family.name.toList.all Char.isAlphanum = true := by
      cases family <;> decide
    exact List.all_eq_true.mp plain
  · obtain ⟨field, fieldEq⟩ := Option.isSome_iff_exists.mp (known part textMem)
    exact VectorFamily.isAlphanum_of_field? fieldEq

private theorem eq_cons_tail_of_ofName? {parts : List (List Char)} {family : VectorFamily}
    (named : VectorFamily.ofName? (String.ofList (parts.headD [])) = some family) :
    parts = family.name.toList :: parts.tail := by
  have headEq := congrArg String.toList (VectorFamily.ofName?_eq_some_iff.mp named)
  rw [String.toList_ofList] at headEq
  cases parts with
  | nil =>
      revert headEq
      cases family <;> decide
  | cons head texts => rw [← headEq, List.headD_cons, List.tail_cons]

theorem readGroup_eq_ok_iff {word : List Char} {group : VectorGroup} :
    readGroup word = .ok group ↔ group.WrittenAs word := by
  constructor
  · intro read
    rw [readGroup_eq] at read
    split at read
    · cases read
    · rename_i family named
      dsimp only at read
      split_ifs at read with known
      split at read
      · cases read
      · rename_i found given
        obtain rfl := Except.ok.inj read
        have wordEq := Text.intercalate_pieces '.' word
        rw [eq_cons_tail_of_ofName? named] at wordEq
        rw [← wordEq]
        exact ⟨List.all_eq_true.mp known, given⟩
  · rintro ⟨known, given⟩
    rename_i family texts
    have named : VectorFamily.ofName? (String.ofList family.name.toList) = some family := by
      rw [String.ofList_toList]
      exact VectorFamily.ofName?_eq_some_iff.mpr rfl
    have unmarked : ∀ part ∈ family.name.toList :: texts, '.' ∉ part := by
      intro part partMem pointMem
      exact absurd (isAlphanum_of_mem_parts known part partMem '.' pointMem) (by decide)
    rw [readGroup_eq, Text.pieces_intercalate (List.cons_ne_nil _ _) unmarked]
    simp only [List.headD_cons, List.tail_cons, named, given, List.all_eq_true.mpr known, if_true]

theorem opensGroup_of_writtenAs {word : List Char} {group : VectorGroup} (written : group.WrittenAs word) :
    opensGroup word = true := by
  obtain ⟨known, given⟩ := written
  rename_i family texts
  have opening := Text.prefix_intercalate '.' family.name.toList texts
  simp only [opensGroup, Bool.or_eq_true, List.isPrefixOf_iff_prefix]
  cases family with
  | vex => exact .inl (.inl opening)
  | evex => exact .inl (.inr opening)
  | xop => exact .inr opening

theorem eq_point_or_isAlphanum_of_writtenAs {word : List Char} {group : VectorGroup}
    (written : group.WrittenAs word) : ∀ c ∈ word, c = '.' ∨ c.isAlphanum = true := by
  obtain ⟨known, given⟩ := written
  intro c cMem
  apply (Text.mem_intercalate cMem).imp List.mem_singleton.mp
  rintro ⟨part, partMem, cPart⟩
  exact isAlphanum_of_mem_parts known part partMem c cPart

end Encoding

end OpcodeTable
