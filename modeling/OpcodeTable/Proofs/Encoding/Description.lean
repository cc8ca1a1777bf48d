import Mathlib.Data.List.Basic
import Mathlib.Data.List.Induction
import OpcodeTable.Proofs.Encoding.Word

/-!
# What tokens say

Tokens describe an encoding: which bytes are prefixes and which are opcode bytes depends on what stands
before them, immediates are listed in order, and of the parts that an encoding has once the last one
counts. Filling in the tokens one after the other gives the encoding that they describe.
-/

namespace OpcodeTable

theorem PrefixByte.ofByte?_eq_some_iff {value : UInt8} {found : PrefixByte} :
    ofByte? value = some found ↔ value = found.byte := by
  constructor
  · intro read
    have same := List.find?_some read
    exact (beq_iff_eq.mp same).symm
  · rintro rfl
    cases found <;> rfl

namespace PrefixSet

theorem mem_iff_contains {set : PrefixSet} {byte : PrefixByte} :
    byte ∈ set ↔ set.contains byte = true :=
  List.contains_iff_mem.symm

theorem mem_insert {set : PrefixSet} {added byte : PrefixByte} :
    byte ∈ set.insert added ↔ byte = added ∨ byte ∈ set := by
  simp [mem_iff_contains]

theorem eq_of_mem_iff {first second : PrefixSet} (same : ∀ byte, byte ∈ first ↔ byte ∈ second) :
    first = second := by
  have membersEq : first.members = second.members := by
    rw [← first.canonical, ← second.canonical]
    apply List.filter_congr
    intro byte _
    rw [Bool.eq_iff_iff]
    exact mem_iff_contains.symm.trans ((same byte).trans mem_iff_contains)
  cases first
  cases second
  cases membersEq
  rfl

end PrefixSet

namespace Encoding

namespace Token

def scheme? : Token → Option String
  | .scheme name => some name
  | _ => none

def group? : Token → Option VectorGroup
  | .vector group => some group
  | _ => none

def modRM? : Token → Option ModRM
  | .modRM use => some use
  | _ => none

def fold? : Token → Option Fold
  | .folded _ fold => some fold
  | _ => none

def immediate? : Token → Option ImmediateMarker
  | .immediate marker => some marker
  | _ => none

def byte? : Token → Option UInt8
  | .folded value _ => some value
  | .byte value => some value
  | _ => none

/-- The token is an opcode byte or a vector group wherever it stands. -/
def endsPrefixes : Token → Bool
  | .vector _ => true
  | .folded _ _ => true
  | .byte value => (PrefixByte.ofByte? value).isNone
  | _ => false

end Token

/-- The opcode bytes: all bytes from the first token on that cannot stand among the prefixes. -/
def opcodeBytes (tokens : List Token) : List UInt8 :=
  (tokens.dropWhile fun token => !token.endsPrefixes).filterMap Token.byte?

/-- Behind these tokens a prefix byte is still a prefix: there is no opcode byte and no vector group. -/
def AllowsPrefix (tokens : List Token) : Prop :=
  opcodeBytes tokens = [] ∧ ∀ group, .vector group ∉ tokens

private theorem isEmpty_dropWhile (tokens : List Token) :
    (tokens.dropWhile fun token => !token.endsPrefixes).isEmpty = !tokens.any Token.endsPrefixes := by
  induction tokens with
  | nil => rfl
  | cons token rest ih => cases ends : token.endsPrefixes <;> simp [ends, ih]

theorem opcodeBytes_concat (tokens : List Token) (token : Token) :
    opcodeBytes (tokens ++ [token]) =
      if !tokens.any Token.endsPrefixes && !token.endsPrefixes then
        opcodeBytes tokens
      else
        opcodeBytes tokens ++ token.byte?.toList := by
  have emptyFront := isEmpty_dropWhile tokens
  have single : [token].filterMap Token.byte? = token.byte?.toList := by
    cases given : token.byte? <;> simp [given]
  unfold opcodeBytes
  rw [List.dropWhile_append, emptyFront]
  cases ended : tokens.any Token.endsPrefixes with
  | true => simp [single]
  | false =>
      rw [ended, Bool.not_false, List.isEmpty_iff] at emptyFront
      cases ends : token.endsPrefixes <;> simp [emptyFront, ends, single]

/-- The tokens give the encoding. -/
structure DescribedBy (encoding : Encoding) (tokens : List Token) : Prop where
  prefixes : ∀ byte, byte ∈ encoding.prefixes ↔
    ∃ before, before ++ [.byte byte.byte] <+: tokens ∧ AllowsPrefix before
  opcode : encoding.opcode = opcodeBytes tokens
  rexW : encoding.rexW = true ↔ .rexW ∈ tokens
  vector : encoding.vector = lastGiven? Token.group? tokens
  modRM : encoding.modRM = lastGiven? Token.modRM? tokens
  fold : encoding.fold = lastGiven? Token.fold? tokens
  immediates : encoding.immediates = tokens.filterMap Token.immediate?
  scheme : encoding.scheme =
    (lastGiven? Token.scheme? tokens).getD
      (((lastGiven? Token.group? tokens).map fun group => group.family.name).getD plainScheme)

namespace Draft

private theorem addByte_fields (draft : Draft) (value : UInt8) :
    (draft.addByte value).scheme = draft.scheme ∧ (draft.addByte value).rexW = draft.rexW ∧
      (draft.addByte value).vector = draft.vector ∧ (draft.addByte value).modRM = draft.modRM ∧
      (draft.addByte value).fold = draft.fold ∧
      (draft.addByte value).immediates = draft.immediates := by
  unfold addByte
  split
  · split_ifs <;> simp
  · simp

variable (tokens : List Token)

theorem scheme_foldl_add : (tokens.foldl add {}).scheme = lastGiven? Token.scheme? tokens :=
  foldl_eq_lastGiven?_of_none scheme
    (fun draft token => by cases token <;> simp [add, Token.scheme?, addByte_fields]) rfl tokens

theorem vector_foldl_add : (tokens.foldl add {}).vector = lastGiven? Token.group? tokens :=
  foldl_eq_lastGiven?_of_none vector
    (fun draft token => by cases token <;> simp [add, Token.group?, addByte_fields]) rfl tokens

theorem modRM_foldl_add : (tokens.foldl add {}).modRM = lastGiven? Token.modRM? tokens :=
  foldl_eq_lastGiven?_of_none modRM
    (fun draft token => by cases token <;> simp [add, Token.modRM?, addByte_fields]) rfl tokens

theorem fold_foldl_add : (tokens.foldl add {}).fold = lastGiven? Token.fold? tokens :=
  foldl_eq_lastGiven?_of_none fold
    (fun draft token => by cases token <;> simp [add, Token.fold?, addByte_fields]) rfl tokens

theorem immediates_foldl_add :
    (tokens.foldl add {}).immediates = tokens.filterMap Token.immediate? := by
  induction tokens using List.reverseRecOn with
  | nil => rfl
  | append_singleton tokens token ih =>
      rw [List.foldl_concat, List.filterMap_append, ← ih]
      cases token <;> simp [add, Token.immediate?, addByte_fields]

theorem rexW_foldl_add : (tokens.foldl add {}).rexW = true ↔ .rexW ∈ tokens := by
  induction tokens using List.reverseRecOn with
  | nil => simp
  | append_singleton tokens token ih =>
      rw [List.foldl_concat, List.mem_append, List.mem_singleton, ← ih]
      cases token <;> simp [add, addByte_fields]

/-- A prefix byte is still a prefix. -/
def isFresh (draft : Draft) : Bool :=
  draft.opcode.isEmpty && draft.vector.isNone

variable {draft : Draft} {token : Token}

theorem addByte_of_none {value : UInt8} (noPrefix : PrefixByte.ofByte? value = none) :
    draft.addByte value = { draft with opcode := draft.opcode ++ [value] } := by
  rw [addByte, noPrefix]

theorem addByte_of_some {value : UInt8} {found : PrefixByte}
    (isPrefix : PrefixByte.ofByte? value = some found) :
    draft.addByte value =
      if draft.isFresh then
        { draft with prefixes := draft.prefixes.insert found }
      else
        { draft with opcode := draft.opcode ++ [value] } := by
  rw [addByte, isPrefix]
  rfl

theorem isFresh_add : (draft.add token).isFresh = (draft.isFresh && !token.endsPrefixes) := by
  cases token with
  | byte value =>
      rw [add, Token.endsPrefixes]
      cases found : PrefixByte.ofByte? value with
      | none => simp [addByte_of_none found, isFresh]
      | some byte =>
          rw [addByte_of_some found]
          cases fresh : draft.isFresh <;> simp_all [isFresh]
  | _ => simp [isFresh, add, Token.endsPrefixes]

theorem opcode_add :
    (draft.add token).opcode =
      if draft.isFresh && !token.endsPrefixes then
        draft.opcode
      else
        draft.opcode ++ token.byte?.toList := by
  cases token with
  | byte value =>
      rw [add, Token.endsPrefixes, Token.byte?]
      cases found : PrefixByte.ofByte? value with
      | none => simp [addByte_of_none found]
      | some byte =>
          rw [addByte_of_some found]
          cases fresh : draft.isFresh <;> simp
  | _ => simp [add, Token.endsPrefixes, Token.byte?]

theorem mem_prefixes_add {byte : PrefixByte} :
    byte ∈ (draft.add token).prefixes ↔
      byte ∈ draft.prefixes ∨ draft.isFresh = true ∧ token = .byte byte.byte := by
  cases token with
  | byte value =>
      rw [add, Token.byte.injEq, ← PrefixByte.ofByte?_eq_some_iff]
      cases found : PrefixByte.ofByte? value with
      | none => simp [addByte_of_none found]
      | some first =>
          rw [addByte_of_some found]
          cases fresh : draft.isFresh with
          | false => simp
          | true => simp [PrefixSet.mem_insert, or_comm, eq_comm]
  | _ => simp [add]

theorem isFresh_foldl_add :
    (tokens.foldl add {}).isFresh = !tokens.any Token.endsPrefixes := by
  induction tokens using List.reverseRecOn with
  | nil => rfl
  | append_singleton tokens token ih =>
      rw [List.foldl_concat, isFresh_add, ih, List.any_append, Bool.not_or, List.any_cons, List.any_nil,
        Bool.or_false]

theorem opcode_foldl_add : (tokens.foldl add {}).opcode = opcodeBytes tokens := by
  induction tokens using List.reverseRecOn with
  | nil => rfl
  | append_singleton tokens token ih =>
      rw [List.foldl_concat, opcode_add, opcodeBytes_concat, ih, isFresh_foldl_add]

example : opcodeBytes [.byte 0x66, .byte 0x0F, .byte 0x66] = [0x0F, 0x66] := by decide

theorem isFresh_foldl_add_iff :
    (tokens.foldl add {}).isFresh = true ↔ AllowsPrefix tokens := by
  have noGroup : lastGiven? Token.group? tokens = none ↔ ∀ group, .vector group ∉ tokens := by
    rw [lastGiven?_eq_none_iff]
    constructor
    · intro absent group groupMem
      cases absent _ groupMem
    · intro absent token tokenMem
      cases token with
      | vector group => exact absurd tokenMem (absent group)
      | _ => rfl
  rw [isFresh, opcode_foldl_add, vector_foldl_add, Bool.and_eq_true, List.isEmpty_iff,
    Option.isNone_iff_eq_none, noGroup, AllowsPrefix]

theorem mem_prefixes_foldl_add {byte : PrefixByte} :
    byte ∈ (tokens.foldl add {}).prefixes ↔
      ∃ before, before ++ [.byte byte.byte] <+: tokens ∧ AllowsPrefix before := by
  -- Taking off the last token, because only what stands before a byte decides whether it is a prefix.
  induction tokens using List.reverseRecOn with
  | nil =>
      have absent : byte ∉ PrefixSet.empty := List.not_mem_nil
      simpa using absent
  | append_singleton tokens token ih =>
      rw [List.foldl_concat, mem_prefixes_add, ih, isFresh_foldl_add_iff]
      simp only [List.prefix_concat_iff]
      constructor
      · rintro (⟨before, initial, allows⟩ | ⟨allows, rfl⟩)
        · exact ⟨before, .inr initial, allows⟩
        · exact ⟨tokens, .inl rfl, allows⟩
      · rintro ⟨before, last | initial, allows⟩
        · obtain ⟨rfl, tokenEq⟩ := List.append_inj' last rfl
          exact .inr ⟨allows, (List.singleton_inj.mp tokenEq).symm⟩
        · exact .inl ⟨before, initial, allows⟩

theorem finish_foldl_add : (tokens.foldl add {}).finish.DescribedBy tokens where
  prefixes _ := mem_prefixes_foldl_add tokens
  opcode := opcode_foldl_add tokens
  rexW := rexW_foldl_add tokens
  vector := vector_foldl_add tokens
  modRM := modRM_foldl_add tokens
  fold := fold_foldl_add tokens
  immediates := immediates_foldl_add tokens
  scheme := by
    rw [finish, schemeName, ← scheme_foldl_add, ← vector_foldl_add]
    split <;> simp_all

end Draft

theorem DescribedBy.unique {first second : Encoding} {tokens : List Token}
    (describesFirst : first.DescribedBy tokens) (describesSecond : second.DescribedBy tokens) :
    first = second := by
  have prefixesEq : first.prefixes = second.prefixes :=
    PrefixSet.eq_of_mem_iff fun byte =>
      (describesFirst.prefixes byte).trans (describesSecond.prefixes byte).symm
  have rexWEq : first.rexW = second.rexW :=
    Bool.eq_iff_iff.mpr (describesFirst.rexW.trans describesSecond.rexW.symm)
  cases first
  cases second
  simp only [Encoding.mk.injEq]
  exact ⟨describesFirst.scheme.trans describesSecond.scheme.symm, prefixesEq,
    describesFirst.opcode.trans describesSecond.opcode.symm, rexWEq,
    describesFirst.vector.trans describesSecond.vector.symm,
    describesFirst.modRM.trans describesSecond.modRM.symm,
    describesFirst.fold.trans describesSecond.fold.symm,
    describesFirst.immediates.trans describesSecond.immediates.symm⟩

end Encoding

end OpcodeTable
