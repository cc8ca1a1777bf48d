import Mathlib.Data.List.Lex
import Mathlib.Order.Compare
import OpcodeTable.Text.Order
import OpcodeTable.Text.Utf8

/-!
# The order of texts is the order of their bytes

Texts are compared by the code points of their characters. UTF-8 writes a character with a larger code
point as bytes that come later in the lexicographic order, whatever follows on either side, so the
comparison of two texts is the lexicographic comparison of their bytes.
-/

namespace OpcodeTable

/-- What two lists have in common in front does not change how they compare. -/
theorem compares_append_left {order : Ordering} {left right : List Nat} (common : List Nat)
    (compares : order.Compares left right) :
    order.Compares (common ++ left) (common ++ right) := by
  cases order with
  | lt => exact List.append_left_lt compares
  | eq => exact congrArg (common ++ ·) compares
  | gt => exact List.append_left_lt compares

namespace Text

/-- The values of the bytes of a character. -/
def charBytes (character : Char) : List Nat :=
  (String.utf8EncodeChar character).map UInt8.toNat

/-- The values of the bytes of a text. -/
def byteValues (text : String) : List Nat :=
  (utf8 text).map UInt8.toNat

private theorem byteValues_eq (text : String) :
    byteValues text = text.toList.flatMap charBytes := by
  rw [byteValues, utf8, List.map_flatMap]
  rfl

/-- The bytes of a character hold the digits of its code point to base 64, behind marks that grow with
the number of bytes. -/
private theorem charBytes_eq (character : Char) :
    charBytes character =
      if character.toNat ≤ 0x7F then
        [character.toNat]
      else if character.toNat ≤ 0x7FF then
        [character.toNat / 64 + 192, character.toNat % 64 + 128]
      else if character.toNat ≤ 0xFFFF then
        [character.toNat / 4096 + 224, character.toNat / 64 % 64 + 128, character.toNat % 64 + 128]
      else
        [character.toNat / 262144 + 240, character.toNat / 4096 % 64 + 128,
          character.toNat / 64 % 64 + 128, character.toNat % 64 + 128] := by
  have valid : character.toNat < 0x110000 := by
    rcases character.valid with low | high
    · exact low.trans (by decide)
    · exact high.2
  simp only [charBytes, String.utf8EncodeChar, Char.toNat_val]
  generalize character.toNat = value at valid ⊢
  split
  · simp
    omega
  · split
    · simp
      omega
    · split
      · simp
        omega
      · simp
        omega

/-- A smaller code point gives smaller bytes, and the difference shows inside the character. -/
private theorem charBytes_append_lt {left right : Char} (before : left.toNat < right.toNat)
    (leftRest rightRest : List Nat) :
    charBytes left ++ leftRest < charBytes right ++ rightRest := by
  rw [charBytes_eq, charBytes_eq]
  split_ifs <;> simp only [List.cons_append, List.nil_append, List.cons_lt_cons_iff] <;> omega

private theorem nil_lt_charBytes_append (character : Char) (rest : List Nat) :
    [] < charBytes character ++ rest := by
  cases bytesEq : charBytes character with
  | nil => exact absurd (List.map_eq_nil_iff.mp bytesEq) String.utf8EncodeChar_ne_nil
  | cons byte bytes => exact List.nil_lt_cons byte (bytes ++ rest)

private theorem compareChars_compares (left right : List Char) :
    (compareChars left right).Compares (left.flatMap charBytes) (right.flatMap charBytes) := by
  induction left generalizing right with
  | nil =>
      cases right with
      | nil => rfl
      | cons rightHead rightTail => exact nil_lt_charBytes_append rightHead _
  | cons leftHead leftTail ih =>
      cases right with
      | nil => exact nil_lt_charBytes_append leftHead _
      | cons rightHead rightTail =>
          simp only [compareChars, List.flatMap_cons]
          split_ifs with before after
          · exact charBytes_append_lt before _ _
          · exact charBytes_append_lt after _ _
          · have same : leftHead = rightHead := Char.toNat_inj.mp (by omega)
            subst same
            exact compares_append_left (charBytes leftHead) (ih rightTail)

/-- A text can be told from its bytes. -/
theorem byteValues_injective : Function.Injective byteValues := by
  intro left right bytesEq
  have utf8Eq : utf8 left = utf8 right :=
    List.map_injective_iff.mpr (fun _ _ => UInt8.toNat_inj.mp) bytesEq
  apply String.toByteArray_inj.mp
  rw [← String.utf8Encode_toList, ← String.utf8Encode_toList]
  exact congrArg List.toByteArray utf8Eq

/-- Comparing texts compares their bytes. -/
theorem compare_compares (left right : String) :
    (compare left right).Compares (byteValues left) (byteValues right) := by
  rw [byteValues_eq, byteValues_eq]
  exact compareChars_compares left.toList right.toList

end Text

end OpcodeTable
