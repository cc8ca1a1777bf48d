import Mathlib.Algebra.Group.Nat.Defs
import Mathlib.Data.Nat.Digits.Defs
import Mathlib.Tactic.SplitIfs
import OpcodeTable.Text.Hex

/-!
# Hexadecimal text is read as it is written

The hexadecimal digits are the sixteen characters that numbers below sixteen are written with, and the
words that read as a byte are exactly the texts that bytes are written as. The text of several bytes can be
read as bytes again, two digits at a time, or digit by digit as one number.
-/

namespace OpcodeTable.Text

theorem hexDigitValue?_hexDigit {value : Nat} (bounded : value < 16) :
    hexDigitValue? (hexDigit value) = some value := by
  have allDigits : ∀ digit < 16, hexDigitValue? (hexDigit digit) = some digit := by decide
  exact allDigits value bounded

theorem eq_hexDigit_of_hexDigitValue? {c : Char} {value : Nat} (digit : hexDigitValue? c = some value) :
    value < 16 ∧ c = hexDigit value := by
  unfold hexDigitValue? at digit
  split_ifs at digit with decimal letter
  · have lower : 48 ≤ c.toNat := decimal.1
    have upper : c.toNat ≤ 57 := decimal.2
    obtain rfl := Option.some.inj digit
    have codeEq : 48 + (c.toNat - 48) = c.toNat := by omega
    refine ⟨by omega, ?_⟩
    rw [hexDigit, if_pos (by omega), codeEq, Char.ofNat_toNat]
  · have lower : 65 ≤ c.toNat := letter.1
    have upper : c.toNat ≤ 70 := letter.2
    obtain rfl := Option.some.inj digit
    have codeEq : 55 + (c.toNat - 55) = c.toNat := by omega
    refine ⟨by omega, ?_⟩
    rw [hexDigit, if_neg (by omega), codeEq, Char.ofNat_toNat]

theorem hexFixed_inj {width value other : Nat} (bounded : value < 16 ^ width)
    (otherBounded : other < 16 ^ width) (same : hexFixed width value = hexFixed width other) :
    value = other := by
  induction width generalizing value other with
  | zero =>
      rw [pow_zero] at bounded otherBounded
      omega
  | succ width ih =>
      rw [pow_succ] at bounded otherBounded
      have lastLt (number : Nat) : number % 16 < 16 := Nat.mod_lt _ (by decide)
      obtain ⟨frontEq, lastEq⟩ := List.append_inj' same rfl
      have quotientEq : value / 16 = other / 16 := ih (by omega) (by omega) frontEq
      have digitEq := congrArg hexDigitValue? (List.singleton_inj.mp lastEq)
      rw [hexDigitValue?_hexDigit (lastLt value), hexDigitValue?_hexDigit (lastLt other)] at digitEq
      have remainderEq : value % 16 = other % 16 := Option.some.inj digitEq
      omega

private theorem high_lt (byte : UInt8) : byte.toNat / 16 < 16 := by
  have := byte.toNat_lt
  omega

private theorem low_lt (byte : UInt8) : byte.toNat % 16 < 16 :=
  Nat.mod_lt _ (by decide)

theorem hexByte_eq (byte : UInt8) :
    hexByte byte = [hexDigit (byte.toNat / 16), hexDigit (byte.toNat % 16)] := by
  simp [hexByte, hexFixed, Nat.mod_eq_of_lt (high_lt byte)]

theorem not_mem_hexByte {c : Char} (noDigit : hexDigitValue? c = none) (byte : UInt8) :
    c ∉ hexByte byte := by
  have absent {value : Nat} (bounded : value < 16) : c ≠ hexDigit value := by
    rintro rfl
    rw [hexDigitValue?_hexDigit bounded] at noDigit
    cases noDigit
  rw [hexByte_eq]
  simp [absent (high_lt byte), absent (low_lt byte)]

theorem readHexByte?_eq_some_iff {word : List Char} {byte : UInt8} :
    readHexByte? word = some byte ↔ word = hexByte byte := by
  rw [hexByte_eq]
  constructor
  · intro read
    unfold readHexByte? at read
    split at read
    · split at read
      · rename_i high low _ _ highValue lowValue highDigit lowDigit
        obtain ⟨highBounded, rfl⟩ := eq_hexDigit_of_hexDigitValue? highDigit
        obtain ⟨lowBounded, rfl⟩ := eq_hexDigit_of_hexDigitValue? lowDigit
        obtain rfl := Option.some.inj read
        have bounded : 16 * highValue + lowValue < 256 := by omega
        have valueEq : (UInt8.ofNat (16 * highValue + lowValue)).toNat = 16 * highValue + lowValue :=
          UInt8.toNat_ofNat_of_lt' bounded
        rw [valueEq, Nat.mul_add_div (by decide), Nat.mul_add_mod_self_left,
          Nat.div_eq_of_lt lowBounded, Nat.mod_eq_of_lt lowBounded, Nat.add_zero]
      · cases read
    · cases read
  · rintro rfl
    rw [readHexByte?, hexDigitValue?_hexDigit (high_lt byte), hexDigitValue?_hexDigit (low_lt byte)]
    simp only [Nat.div_add_mod, UInt8.ofNat_toNat]

theorem hexByte_injective {byte other : UInt8} (same : hexByte byte = hexByte other) : byte = other := by
  have read := readHexByte?_eq_some_iff.mpr same
  rw [readHexByte?_eq_some_iff.mpr rfl] at read
  exact Option.some.inj read

theorem hexBytes_injective {bytes others : List UInt8} (same : hexBytes bytes = hexBytes others) :
    bytes = others := by
  induction bytes generalizing others with
  | nil =>
      cases others with
      | nil => rfl
      | cons other otherRest => simp [hexBytes, hexByte_eq] at same
  | cons byte rest ih =>
      cases others with
      | nil => simp [hexBytes, hexByte_eq] at same
      | cons other otherRest =>
          have lengthEq : (hexByte byte).length = (hexByte other).length := by
            rw [hexByte_eq, hexByte_eq]
            rfl
          obtain ⟨firstEq, restEq⟩ := List.append_inj same lengthEq
          rw [hexByte_injective firstEq, ih restEq]

/-- The upper-case hexadecimal digits. -/
def hexDigits : List Char :=
  "0123456789ABCDEF".toList

/-- Read bytes from two digits each. -/
def readHexBytes? : List Char → Option (List UInt8)
  | [] => some []
  | [_] => none
  | high :: low :: rest =>
      match readHexByte? [high, low], readHexBytes? rest with
      | some byte, some bytes => some (byte :: bytes)
      | _, _ => none

/-- The number that hexadecimal digits write, the first digit highest. -/
def hexNumber? (text : List Char) : Option Nat :=
  (text.mapM hexDigitValue?).map fun digits => Nat.ofDigits 16 digits.reverse

theorem hexBytes_cons (byte : UInt8) (rest : List UInt8) :
    hexBytes (byte :: rest) =
      hexDigit (byte.toNat / 16) :: hexDigit (byte.toNat % 16) :: hexBytes rest := by
  rw [hexBytes, List.flatMap_cons, hexByte_eq]
  rfl

theorem length_hexBytes (bytes : List UInt8) : (hexBytes bytes).length = 2 * bytes.length := by
  induction bytes with
  | nil => rfl
  | cons byte rest ih =>
      rw [hexBytes_cons, List.length_cons, List.length_cons, ih, List.length_cons]
      omega

theorem mem_hexDigits_of_mem_hexBytes {bytes : List UInt8} {c : Char} (written : c ∈ hexBytes bytes) :
    c ∈ hexDigits := by
  have allDigits : ∀ digit < 16, hexDigit digit ∈ hexDigits := by decide
  induction bytes with
  | nil => cases written
  | cons byte rest ih =>
      rw [hexBytes_cons, List.mem_cons, List.mem_cons] at written
      rcases written with rfl | rfl | later
      · exact allDigits _ (high_lt byte)
      · exact allDigits _ (low_lt byte)
      · exact ih later

theorem readHexBytes?_hexBytes (bytes : List UInt8) : readHexBytes? (hexBytes bytes) = some bytes := by
  induction bytes with
  | nil => rfl
  | cons byte rest ih =>
      have first := readHexByte?_eq_some_iff.mpr (hexByte_eq byte).symm
      rw [hexBytes_cons, readHexBytes?, first, ih]

theorem mapM_hexBytes (bytes : List UInt8) :
    (hexBytes bytes).mapM hexDigitValue? =
      some (bytes.flatMap fun byte => [byte.toNat / 16, byte.toNat % 16]) := by
  induction bytes with
  | nil => rfl
  | cons byte rest ih =>
      have high := hexDigitValue?_hexDigit (high_lt byte)
      have low := hexDigitValue?_hexDigit (low_lt byte)
      simp [hexBytes_cons, high, low, ih]

end OpcodeTable.Text
