import Mathlib.Tactic.SplitIfs
import OpcodeTable.Encoding.Packed

/-!
# What packed bytes tell

The flag byte of an encoding tells all that was packed into it. The prefix byte tells which prefixes there
are as long as no two of them claim the same bits.
-/

namespace OpcodeTable

/-- A flag in a packed byte adds its weight. -/
private theorem ite_eq_mul_toNat (flag : Bool) (weight : Nat) :
    (if flag then weight else 0) = weight * flag.toNat := by
  cases flag <;> simp

private theorem eq_of_toNat_eq {flag other : Bool} (same : flag.toNat = other.toNat) : flag = other := by
  cases flag <;> cases other <;> first | rfl | cases same

section Codes

variable {prefixes others : List PrefixByte}

/-- No two bytes of the list have a number. -/
def SingleCode (code? : PrefixByte → Option Nat) (prefixes : List PrefixByte) : Prop :=
  ∀ byte ∈ prefixes, ∀ other ∈ prefixes,
    (code? byte).isSome = true → (code? other).isSome = true → byte = other

theorem segmentCode?_bounds {byte : PrefixByte} {code : Nat} (coded : byte.segmentCode? = some code) :
    0 < code ∧ code < 7 := by
  cases byte <;> cases coded <;> decide

theorem repeatCode?_bounds {byte : PrefixByte} {code : Nat} (coded : byte.repeatCode? = some code) :
    0 < code ∧ code < 4 := by
  cases byte <;> cases coded <;> decide

theorem eq_of_segmentCode?_eq {byte other : PrefixByte} {code : Nat}
    (coded : byte.segmentCode? = some code) (otherCoded : other.segmentCode? = some code) :
    byte = other := by
  cases byte <;> cases coded <;> cases other <;> first | rfl | cases otherCoded

theorem eq_of_repeatCode?_eq {byte other : PrefixByte} {code : Nat}
    (coded : byte.repeatCode? = some code) (otherCoded : other.repeatCode? = some code) :
    byte = other := by
  cases byte <;> cases coded <;> cases other <;> first | rfl | cases otherCoded

variable {code? : PrefixByte → Option Nat}

/-- Where no two bytes have a number, the first number that is found tells which byte is in the list. -/
theorem SingleCode.mem_iff (single : SingleCode code? prefixes)
    (injective : ∀ {byte other : PrefixByte} {code : Nat},
      code? byte = some code → code? other = some code → byte = other)
    {byte : PrefixByte} {code : Nat} (coded : code? byte = some code) :
    byte ∈ prefixes ↔ prefixes.findSome? code? = some code := by
  constructor
  · intro byteMem
    have found : (prefixes.findSome? code?).isSome = true := by
      rw [List.findSome?_isSome_iff]
      exact ⟨byte, byteMem, by simp [coded]⟩
    obtain ⟨first, firstEq⟩ := Option.isSome_iff_exists.mp found
    obtain ⟨other, otherMem, otherCoded⟩ := List.exists_of_findSome?_eq_some firstEq
    have same : byte = other :=
      single byte byteMem other otherMem (by simp [coded]) (by simp [otherCoded])
    rw [firstEq, ← otherCoded, ← same, coded]
  · intro found
    obtain ⟨other, otherMem, otherCoded⟩ := List.exists_of_findSome?_eq_some found
    rw [injective coded otherCoded]
    exact otherMem

/-- The number that stands in a packed byte, zero where no byte of the list has one. -/
private theorem getD_findSome?_lt {bound : Nat} (positive : 0 < bound)
    (bounds : ∀ {byte : PrefixByte} {code : Nat}, code? byte = some code → 0 < code ∧ code < bound)
    (prefixes : List PrefixByte) : (prefixes.findSome? code?).getD 0 < bound := by
  cases found : prefixes.findSome? code? with
  | none => exact positive
  | some code =>
      obtain ⟨byte, _, coded⟩ := List.exists_of_findSome?_eq_some found
      exact (bounds coded).2

private theorem findSome?_eq_of_getD_eq {bound : Nat}
    (bounds : ∀ {byte : PrefixByte} {code : Nat}, code? byte = some code → 0 < code ∧ code < bound)
    (same : (prefixes.findSome? code?).getD 0 = (others.findSome? code?).getD 0) :
    prefixes.findSome? code? = others.findSome? code? := by
  have positive {list : List PrefixByte} {code : Nat} (found : list.findSome? code? = some code) :
      0 < code := by
    obtain ⟨byte, _, coded⟩ := List.exists_of_findSome?_eq_some found
    exact (bounds coded).1
  cases found : prefixes.findSome? code? with
  | none =>
      cases otherFound : others.findSome? code? with
      | none => rfl
      | some code =>
          have := positive otherFound
          simp only [found, otherFound, Option.getD_none, Option.getD_some] at same
          omega
  | some code =>
      cases otherFound : others.findSome? code? with
      | none =>
          have := positive found
          simp only [found, otherFound, Option.getD_none, Option.getD_some] at same
          omega
      | some other =>
          simp only [found, otherFound, Option.getD_some] at same
          rw [same]

private theorem segment_lt (prefixes : List PrefixByte) :
    (prefixes.findSome? PrefixByte.segmentCode?).getD 0 < 7 :=
  getD_findSome?_lt (by decide) segmentCode?_bounds prefixes

private theorem repeat_lt (prefixes : List PrefixByte) :
    (prefixes.findSome? PrefixByte.repeatCode?).getD 0 < 4 :=
  getD_findSome?_lt (by decide) repeatCode?_bounds prefixes

theorem packPrefixes_lt (prefixes : List PrefixByte) : packPrefixes prefixes < 256 := by
  have segmentLt := segment_lt prefixes
  have repeatLt := repeat_lt prefixes
  unfold packPrefixes
  split_ifs <;> omega

/-- Lists with the same prefix byte have the same members, if in neither two bytes claim the same
bits. -/
theorem mem_iff_of_packPrefixes_eq (segments : SingleCode PrefixByte.segmentCode? prefixes)
    (otherSegments : SingleCode PrefixByte.segmentCode? others)
    (repeats : SingleCode PrefixByte.repeatCode? prefixes)
    (otherRepeats : SingleCode PrefixByte.repeatCode? others)
    (same : packPrefixes prefixes = packPrefixes others) (byte : PrefixByte) :
    byte ∈ prefixes ↔ byte ∈ others := by
  have segmentLt := segment_lt prefixes
  have otherSegmentLt := segment_lt others
  have repeatLt := repeat_lt prefixes
  have otherRepeatLt := repeat_lt others
  have addressLe := (prefixes.contains .addressSize).toNat_le
  have otherAddressLe := (others.contains .addressSize).toNat_le
  have operandLe := (prefixes.contains .operandSize).toNat_le
  have otherOperandLe := (others.contains .operandSize).toNat_le
  simp only [packPrefixes, ite_eq_mul_toNat] at same
  have addressEq : prefixes.contains .addressSize = others.contains .addressSize :=
    eq_of_toNat_eq (by omega)
  have operandEq : prefixes.contains .operandSize = others.contains .operandSize :=
    eq_of_toNat_eq (by omega)
  have segmentEq : (prefixes.findSome? PrefixByte.segmentCode?).getD 0 =
      (others.findSome? PrefixByte.segmentCode?).getD 0 := by omega
  have repeatEq : (prefixes.findSome? PrefixByte.repeatCode?).getD 0 =
      (others.findSome? PrefixByte.repeatCode?).getD 0 := by omega
  have segmentsEq := findSome?_eq_of_getD_eq segmentCode?_bounds segmentEq
  have repeatsEq := findSome?_eq_of_getD_eq repeatCode?_bounds repeatEq
  have segmentCase {code : Nat} (coded : byte.segmentCode? = some code) :
      byte ∈ prefixes ↔ byte ∈ others := by
    rw [segments.mem_iff eq_of_segmentCode?_eq coded, segmentsEq,
      ← otherSegments.mem_iff eq_of_segmentCode?_eq coded]
  have repeatCase {code : Nat} (coded : byte.repeatCode? = some code) :
      byte ∈ prefixes ↔ byte ∈ others := by
    rw [repeats.mem_iff eq_of_repeatCode?_eq coded, repeatsEq,
      ← otherRepeats.mem_iff eq_of_repeatCode?_eq coded]
  cases byte with
  | addressSize => rw [← List.contains_iff_mem, addressEq, List.contains_iff_mem]
  | operandSize => rw [← List.contains_iff_mem, operandEq, List.contains_iff_mem]
  | lock => exact repeatCase rfl
  | repne => exact repeatCase rfl
  | rep => exact repeatCase rfl
  | cs => exact segmentCase rfl
  | ss => exact segmentCase rfl
  | ds => exact segmentCase rfl
  | es => exact segmentCase rfl
  | fs => exact segmentCase rfl
  | gs => exact segmentCase rfl

end Codes

section Flags

theorem ModRM.code_bounds (use : ModRM) : 0 < use.code ∧ use.code < 11 := by
  cases use <;> simp only [code] <;> omega

theorem ModRM.code_injective {use other : ModRM} (same : use.code = other.code) : use = other := by
  cases use <;> cases other <;> simp only [code] at same
  case digit.digit value otherValue => exact congrArg digit (Fin.ext (Nat.succ.inj same))
  all_goals first | rfl | omega

private theorem modRM_eq_of_getD_eq {use other : Option ModRM}
    (same : (use.map ModRM.code).getD 0 = (other.map ModRM.code).getD 0) : use = other := by
  cases use with
  | none =>
      cases other with
      | none => rfl
      | some other => exact absurd same (Nat.ne_of_lt other.code_bounds.1)
  | some use =>
      cases other with
      | none => exact absurd same.symm (Nat.ne_of_lt use.code_bounds.1)
      | some other => exact congrArg some (ModRM.code_injective same)

theorem ModRM.getD_code_lt (use : Option ModRM) : (use.map ModRM.code).getD 0 < 11 := by
  cases use with
  | none => decide
  | some use => exact use.code_bounds.2

private theorem fold_eq_of_isSome_eq {fold other : Option Fold} (given : fold.isSome = other.isSome)
    (stack : (fold == some .stack) = (other == some .stack)) : fold = other := by
  revert given stack
  rcases fold with _ | _ | _ <;> rcases other with _ | _ | _ <;> decide

namespace Encoding

/-- The vector group has its W bit set. -/
def isWide (encoding : Encoding) : Bool :=
  encoding.vector.any fun group => group.wide == .one

theorem flagBits_eq (encoding : Encoding) :
    encoding.flagBits =
      (if encoding.rexW then 0x01 else 0) + (encoding.modRM.map ModRM.code).getD 0 * 2 +
        (if encoding.fold.isSome then 0x20 else 0) + (if encoding.isWide then 0x40 else 0) +
        (if encoding.fold == some .stack then 0x80 else 0) :=
  rfl

theorem flagBits_lt (encoding : Encoding) : encoding.flagBits < 256 := by
  have modRMLt := ModRM.getD_code_lt encoding.modRM
  unfold flagBits
  split_ifs <;> omega

theorem flagBits_inj {first second : Encoding} (same : first.flagBits = second.flagBits) :
    first.rexW = second.rexW ∧ first.modRM = second.modRM ∧ first.fold = second.fold ∧
      first.isWide = second.isWide := by
  have useLt := ModRM.getD_code_lt first.modRM
  have otherUseLt := ModRM.getD_code_lt second.modRM
  have rexWLe := first.rexW.toNat_le
  have otherRexWLe := second.rexW.toNat_le
  have foldedLe := first.fold.isSome.toNat_le
  have otherFoldedLe := second.fold.isSome.toNat_le
  have wideLe := first.isWide.toNat_le
  have otherWideLe := second.isWide.toNat_le
  have stackLe := (first.fold == some .stack).toNat_le
  have otherStackLe := (second.fold == some .stack).toNat_le
  simp only [flagBits_eq, ite_eq_mul_toNat] at same
  refine ⟨eq_of_toNat_eq (by omega), modRM_eq_of_getD_eq (by omega), ?_, eq_of_toNat_eq (by omega)⟩
  exact fold_eq_of_isSome_eq (eq_of_toNat_eq (by omega)) (eq_of_toNat_eq (by omega))

end Encoding

end Flags

end OpcodeTable
