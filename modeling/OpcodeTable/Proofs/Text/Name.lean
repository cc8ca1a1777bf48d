import OpcodeTable.Text.Blank
import OpcodeTable.Text.Hex
import OpcodeTable.Text.Name

/-!
# Characters of names

The characters of names are printable, and none of them is a comma. Names in either letter case and
numbers in decimal or hexadecimal digits have no other characters.
-/

namespace OpcodeTable.Text

variable {c : Char}

theorem isNameChar_bounds (named : isNameChar c = true) : 48 ≤ c.toNat ∧ c.toNat ≤ 122 := by
  have classes : (((c.isUpper || c.isLower) || c.isDigit) || c == '_') = true := named
  simp only [Bool.or_eq_true, beq_iff_eq] at classes
  rcases classes with ((isUpper | isLower) | isDigit) | rfl
  · obtain ⟨lower, upper⟩ := of_decide_eq_true isUpper
    have lower : 65 ≤ c.toNat := lower
    have upper : c.toNat ≤ 90 := upper
    omega
  · obtain ⟨lower, upper⟩ := Bool.and_eq_true_iff.mp isLower
    have lower : 97 ≤ c.toNat := of_decide_eq_true lower
    have upper : c.toNat ≤ 122 := of_decide_eq_true upper
    omega
  · obtain ⟨lower, upper⟩ := Bool.and_eq_true_iff.mp isDigit
    have lower : 48 ≤ c.toNat := of_decide_eq_true lower
    have upper : c.toNat ≤ 57 := of_decide_eq_true upper
    omega
  · decide

theorem isBlank_of_isNameChar (named : isNameChar c = true) : isBlank c = false := by
  have bounds := isNameChar_bounds named
  simp only [isBlank, Bool.or_eq_false_iff, Bool.and_eq_false_iff, decide_eq_false_iff_not,
    beq_eq_false_iff_ne]
  omega

/-- What holds of the name characters among the first codes holds of all of them. -/
theorem of_isNameChar {property : Char → Prop}
    (checked : ∀ code < 123, isNameChar (Char.ofNat code) = true → property (Char.ofNat code))
    (named : isNameChar c = true) : property c := by
  have bounds := isNameChar_bounds named
  have holds := checked c.toNat (by omega)
  rw [Char.ofNat_toNat] at holds
  exact holds named

theorem isNameChar_toUpper (named : isNameChar c = true) : isNameChar c.toUpper = true := by
  apply of_isNameChar _ named
  decide

/-- The character may stand in a name in lower case. -/
def isLowerNameChar (c : Char) : Bool :=
  c.isLower || c.isDigit || c == '_'

theorem isLowerNameChar_toLower (named : isNameChar c = true) : isLowerNameChar c.toLower = true := by
  apply of_isNameChar _ named
  decide

theorem isNameChar_of_isLowerNameChar (lower : isLowerNameChar c = true) : isNameChar c = true := by
  change (((c.isUpper || c.isLower) || c.isDigit) || c == '_') = true
  rw [Bool.or_assoc, Bool.or_assoc, ← Bool.or_assoc c.isLower]
  exact (congrArg _ lower).trans (Bool.or_true _)

theorem toLower_eq_self (lower : isLowerNameChar c = true) : c.toLower = c := by
  have named := isNameChar_of_isLowerNameChar lower
  revert lower
  apply of_isNameChar _ named
  decide

variable {text : List Char}

theorem isName_iff : isName text = true ↔ text ≠ [] ∧ ∀ c ∈ text, isNameChar c = true := by
  rw [isName, Bool.and_eq_true, Bool.not_eq_true', List.isEmpty_eq_false_iff, List.all_eq_true]

theorem not_mem_of_all_isNameChar (noName : isNameChar c = false) (named : text.all isNameChar = true) :
    c ∉ text := by
  intro charMem
  have isNamed := List.all_eq_true.mp named c charMem
  rw [noName] at isNamed
  cases isNamed

theorem comma_not_mem_of_all_isNameChar (named : text.all isNameChar = true) : ',' ∉ text :=
  not_mem_of_all_isNameChar (by decide) named

theorem all_isNameChar_toUpper {name : String} (named : name.toList.all isNameChar = true) :
    name.toUpper.toList.all isNameChar = true := by
  have charsEq : name.toUpper.toList = name.toList.map Char.toUpper := String.toList_map
  simp only [charsEq, List.all_map, List.all_eq_true] at named ⊢
  exact fun c charMem => isNameChar_toUpper (named c charMem)

theorem all_isNameChar_toString (value : Nat) : (toString value).toList.all isNameChar = true := by
  rw [Nat.toString_eq_repr, Nat.toList_repr, List.all_eq_true]
  intro c digitMem
  have digit := Nat.isDigit_of_mem_toDigits (by decide) (by decide) digitMem
  simp [isNameChar, Char.isAlphanum, digit]

theorem all_isNameChar_hexFixed (width value : Nat) : (hexFixed width value).all isNameChar = true := by
  have allDigits : ∀ digit < 16, isNameChar (hexDigit digit) = true := by decide
  induction width generalizing value with
  | zero => rfl
  | succ width ih =>
      have last := allDigits (value % 16) (Nat.mod_lt _ (by decide))
      simp [hexFixed, ih, last]

theorem all_isNameChar_hexBytes (bytes : List UInt8) : (hexBytes bytes).all isNameChar = true := by
  rw [hexBytes, List.all_flatMap, List.all_eq_true]
  exact fun byte _ => all_isNameChar_hexFixed 2 byte.toNat

end OpcodeTable.Text
