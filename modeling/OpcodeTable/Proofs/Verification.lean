import Mathlib.Data.Nat.Digits.Defs
import Mathlib.Tactic.MkIffOfInductiveProp
import Mathlib.Tactic.SplitIfs
import OpcodeTable.Encoding.Reader
import OpcodeTable.Verification

/-!
# What accepted bytes have in common with the row

Bytes are accepted if the instruction that is seen in them passes all comparisons with the row. The opcodes
are compared by their last byte alone, up to the number that a fold adds. Where the row and the instruction
have one opcode byte behind the map escape, this fixes the whole opcode; where they have more, other
instructions of the map can share the last byte. A `wait` instruction in front of a row that opens with its
byte may be there or not.
-/

namespace OpcodeTable

/-- The number that bytes write, the first byte highest. -/
def bigEndian (bytes : List UInt8) : Nat :=
  Nat.ofDigits 256 (bytes.map UInt8.toNat).reverse

theorem bigEndian_concat (bytes : List UInt8) (byte : UInt8) :
    bigEndian (bytes ++ [byte]) = byte.toNat + 256 * bigEndian bytes := by
  simp [bigEndian, Nat.ofDigits_cons]

theorem bigEndian_mod {bytes : List UInt8} {last : UInt8} (lastEq : bytes.getLast? = some last) :
    bigEndian bytes % 256 = last.toNat := by
  obtain ⟨others, rfl⟩ := List.getLast?_eq_some_iff.mp lastEq
  rw [bigEndian_concat, Nat.add_mul_mod_self_left, Nat.mod_eq_of_lt last.toNat_lt]

theorem bigEndian_lt {bytes : List UInt8} (single : bytes.length = 1) : bigEndian bytes < 256 := by
  obtain ⟨byte, rfl⟩ := List.length_eq_one_iff.mp single
  have bounded := byte.toNat_lt
  simpa [bigEndian] using bounded

theorem toNat_and_div_eight (byte : UInt8) : (byte &&& 0xF8).toNat / 8 = byte.toNat / 8 := by
  have bounded := byte.toNat_lt
  have high : (byte.toNat &&& 0xF8) >>> 3 = byte.toNat >>> 3 % 2 ^ 5 := by
    rw [Nat.shiftRight_and_distrib, ← Nat.and_two_pow_sub_one_eq_mod]
    rfl
  rw [Nat.shiftRight_eq_div_pow, Nat.shiftRight_eq_div_pow] at high
  rw [UInt8.toNat_and, show (0xF8 : UInt8).toNat = 0xF8 from rfl]
  omega

namespace Encoding

/-- The instruction, which ends behind the given number of bytes, passes all comparisons with the row. -/
@[mk_iff]
structure Matches (encoding : Encoding) (bytes : List UInt8) (instruction : DecodedInstruction)
    (consumed : Nat) : Prop where
  valid : instruction.isInvalid = false
  length : consumed = bytes.length
  kind : instruction.kind = encoding.expectedKind
  map : instruction.map = encoding.expectedMap
  opcode : encoding.endsWith (UInt8.ofNat (instruction.opcode % 256)) = true
  digit : ∀ expected found, encoding.modRM = some (.digit expected) → instruction.digit = some found →
    found = expected.val
  rexW : encoding.rexW = true → encoding.vector = none → hasRexW bytes = true

private theorem guard_eq_ok_iff {fault : Mismatch} {failed : Prop} [Decidable failed]
    {rest : Except Mismatch Unit} :
    (if failed then .error fault else rest) = .ok () ↔ ¬failed ∧ rest = .ok () := by
  split_ifs with bad <;> simp [bad]

variable {encoding : Encoding} {bytes : List UInt8} {seen : List DecodedInstruction}
  {instruction : DecodedInstruction} {consumed : Nat}

theorem verify_eq_ok_iff_of_seen
    (chosen : encoding.seenInstruction? seen = some (instruction, consumed)) :
    encoding.verify bytes seen = .ok () ↔ encoding.Matches bytes instruction consumed := by
  have rexWIff : ¬(encoding.rexW && encoding.vector.isNone && !hasRexW bytes) = true ↔
      (encoding.rexW = true → encoding.vector = none → hasRexW bytes = true) := by
    cases encoding.rexW <;> cases encoding.vector <;> cases hasRexW bytes <;> simp
  rw [matches_iff, verify, chosen]
  simp only [bind, Except.bind, pure, Except.pure, throw, throwThe, MonadExceptOf.throw,
    guard_eq_ok_iff, ne_eq, Decidable.not_not, Bool.not_eq_true, Bool.not_eq_eq_eq_not, Bool.not_true,
    Bool.not_eq_false]
  -- Digits are compared only if both sides have one.
  rcases encoding.modRM with _ | expected | _ | _ <;> rcases instruction.digit with _ | found <;>
    simp only [guard_eq_ok_iff, rexWIff] <;> simp

theorem verify_eq_ok_iff :
    encoding.verify bytes seen = .ok () ↔
      ∃ instruction consumed, encoding.seenInstruction? seen = some (instruction, consumed) ∧
        encoding.Matches bytes instruction consumed := by
  constructor
  · intro accepted
    cases chosen : encoding.seenInstruction? seen with
    | none =>
        rw [verify, chosen] at accepted
        cases accepted
    | some pair => exact ⟨pair.1, pair.2, rfl, (verify_eq_ok_iff_of_seen chosen).mp accepted⟩
  · rintro ⟨instruction, consumed, chosen, passes⟩
    exact (verify_eq_ok_iff_of_seen chosen).mpr passes

/-- The opcode bytes of a row without vector group that choose its map. -/
def mapEscape (encoding : Encoding) : List UInt8 :=
  match encoding.vector, encoding.opcode with
  | none, 0x0F :: 0x38 :: _ => [0x0F, 0x38]
  | none, 0x0F :: 0x3A :: _ => [0x0F, 0x3A]
  | none, 0x0F :: _ => [0x0F]
  | _, _ => []

/-- The first instruction is a `wait` instruction that the row opens with. -/
def skipsWait (encoding : Encoding) : List DecodedInstruction → Bool
  | first :: _ :: _ => first.isWait && encoding.opcode.head? == some 0x9B
  | _ => false

/-- The opcode bytes of a row behind its map escape and behind the byte of a `wait` instruction that was
skipped. -/
def ownOpcode (encoding : Encoding) (seen : List DecodedInstruction) : List UInt8 :=
  encoding.opcode.drop (encoding.mapEscape.length + (encoding.skipsWait seen).toNat)

/-- Two opcodes of the row are the same, up to the three low bits if the row has a fold. -/
def SameOpcode (encoding : Encoding) (found expected : Nat) : Prop :=
  if encoding.fold.isSome then found / 8 = expected / 8 else found = expected

instance (encoding : Encoding) (found expected : Nat) : Decidable (encoding.SameOpcode found expected) :=
  inferInstanceAs (Decidable (if encoding.fold.isSome then found / 8 = expected / 8 else found = expected))

theorem sameOpcode_of_endsWith {byte : UInt8} (ends : encoding.endsWith byte = true) :
    ∃ last, encoding.opcode.getLast? = some last ∧ encoding.SameOpcode byte.toNat last.toNat := by
  rw [endsWith, Bool.or_eq_true, Bool.and_eq_true, beq_iff_eq, beq_iff_eq] at ends
  rcases ends with lastEq | ⟨folded, lastEq⟩
  · refine ⟨byte, lastEq, ?_⟩
    rw [SameOpcode]
    split_ifs <;> rfl
  · refine ⟨byte &&& 0xF8, lastEq, ?_⟩
    rw [SameOpcode, if_pos folded, toNat_and_div_eight]

theorem getLast?_ownOpcode (nonempty : encoding.ownOpcode seen ≠ []) :
    (encoding.ownOpcode seen).getLast? = encoding.opcode.getLast? := by
  rw [ownOpcode] at nonempty ⊢
  rw [List.getLast?_drop, if_neg (by simpa using nonempty)]

theorem verify_wait_iff {wait : DecodedInstruction} (opens : encoding.opcode.head? = some 0x9B)
    (noRexW : encoding.rexW = false) (isWait : wait.isWait = true) (single : wait.length = 1) :
    encoding.verify (0x9B :: bytes) [wait, instruction] = .ok () ↔
      encoding.verify bytes [instruction] = .ok () := by
  have behind : encoding.seenInstruction? [wait, instruction] =
      some (instruction, wait.length + instruction.length) := by
    simp [seenInstruction?, isWait, opens]
  have alone : encoding.seenInstruction? [instruction] = some (instruction, instruction.length) := rfl
  have lengthIff : 1 + instruction.length = bytes.length + 1 ↔ instruction.length = bytes.length := by
    omega
  rw [verify_eq_ok_iff_of_seen behind, verify_eq_ok_iff_of_seen alone, matches_iff, matches_iff, single,
    List.length_cons, lengthIff]
  simp [noRexW]

/-- Accepted bytes have the last opcode byte of the row, and so its opcode where there is only this byte
behind the map escape and a skipped `wait` instruction. A row that opens with the byte of a `wait`
instruction accepts bytes with and without it. -/
theorem verify_last_byte (encoding : Encoding) :
    (∀ bytes seen, encoding.verify bytes seen = .ok () →
      ∃ instruction consumed, encoding.seenInstruction? seen = some (instruction, consumed) ∧
        (∃ last, encoding.opcode.getLast? = some last ∧
          encoding.SameOpcode (instruction.opcode % 256) last.toNat) ∧
        (encoding.ownOpcode seen ≠ [] →
          encoding.SameOpcode (instruction.opcode % 256) (bigEndian (encoding.ownOpcode seen) % 256)) ∧
        ((encoding.ownOpcode seen).length = 1 → instruction.opcode < 256 →
          encoding.SameOpcode instruction.opcode (bigEndian (encoding.ownOpcode seen)))) ∧
    (encoding.opcode.head? = some 0x9B → encoding.rexW = false →
      ∀ bytes wait instruction, wait.isWait = true → wait.length = 1 →
        (encoding.verify (0x9B :: bytes) [wait, instruction] = .ok () ↔
          encoding.verify bytes [instruction] = .ok ())) := by
  refine ⟨?_, fun opens noRexW _ _ _ isWait single => verify_wait_iff opens noRexW isWait single⟩
  intro bytes seen accepted
  obtain ⟨instruction, consumed, chosen, passes⟩ := verify_eq_ok_iff.mp accepted
  obtain ⟨last, lastEq, same⟩ := sameOpcode_of_endsWith passes.opcode
  have foundEq : (UInt8.ofNat (instruction.opcode % 256)).toNat = instruction.opcode % 256 := by simp
  rw [foundEq] at same
  have ownSame (nonempty : encoding.ownOpcode seen ≠ []) :
      encoding.SameOpcode (instruction.opcode % 256) (bigEndian (encoding.ownOpcode seen) % 256) := by
    rwa [bigEndian_mod ((getLast?_ownOpcode nonempty).trans lastEq)]
  refine ⟨instruction, consumed, chosen, ⟨last, lastEq, same⟩, ownSame, ?_⟩
  intro single small
  have wholeSame := ownSame (List.ne_nil_of_length_eq_add_one single)
  rwa [Nat.mod_eq_of_lt small, Nat.mod_eq_of_lt (bigEndian_lt single)] at wholeSame

/-- The environment of the floating-point unit is stored behind a `wait` instruction and without one. -/
theorem verify_last_byte_environment :
    ∃ encoding, parse "9B D9 /6" = .ok encoding ∧
      ∃ wait store : DecodedInstruction,
        encoding.verify [0x9B, 0xD9, 0x30] [wait, store] = .ok () ∧
        (encoding.ownOpcode [wait, store]).length = 1 ∧ store.opcode < 256 ∧
        encoding.SameOpcode store.opcode (bigEndian (encoding.ownOpcode [wait, store])) ∧
        encoding.opcode.head? = some 0x9B ∧ encoding.rexW = false ∧
        wait.isWait = true ∧ wait.length = 1 ∧ encoding.verify [0xD9, 0x30] [store] = .ok () := by
  let row : Encoding :=
    ⟨"NORMAL", .empty, [0x9B, 0xD9], false, none, some (.digit ⟨6, by decide⟩), none, []⟩
  let wait : DecodedInstruction := ⟨1, true, false, .legacy, .normal, 0x9B, none⟩
  let store : DecodedInstruction := ⟨2, false, false, .legacy, .normal, 0xD9, some 6⟩
  have parsed : parse "9B D9 /6" = .ok row := by decide +kernel
  have accepted : row.verify [0x9B, 0xD9, 0x30] [wait, store] = .ok () := by decide +kernel
  have seenEq : row.seenInstruction? [wait, store] = some (store, 3) := by decide +kernel
  obtain ⟨lastByte, optionalWait⟩ := verify_last_byte row
  obtain ⟨instruction, consumed, chosen, -, -, whole⟩ := lastByte _ _ accepted
  rw [seenEq] at chosen
  obtain ⟨rfl, rfl⟩ := Prod.mk.inj (Option.some.inj chosen)
  exact ⟨row, parsed, wait, store, accepted, by decide +kernel, by decide,
    whole (by decide +kernel) (by decide), rfl, rfl, rfl, rfl,
    (optionalWait rfl rfl [0xD9, 0x30] wait store rfl rfl).mp accepted⟩

/-- Bytes of another opcode with the same last byte are accepted, and bytes without the first opcode byte of
a row that opens with a `wait` instruction. -/
theorem verify_shared_last_byte :
    (∃ encoding, parse "DC C0+i" = .ok encoding ∧
      encoding.verify [0xD8, 0xC3] [⟨2, false, false, .legacy, .normal, 0xD8C0, none⟩] = .ok () ∧
      bigEndian (encoding.ownOpcode [⟨2, false, false, .legacy, .normal, 0xD8C0, none⟩]) = 0xDCC0 ∧
      ¬encoding.SameOpcode 0xD8C0 0xDCC0) ∧
    ∃ encoding, parse "9B D9 /6" = .ok encoding ∧ encoding.opcode = [0x9B, 0xD9] ∧
      encoding.verify [0xD9, 0x30] [⟨2, false, false, .legacy, .normal, 0xD9, some 6⟩] = .ok () := by
  constructor
  · refine ⟨⟨"NORMAL", .empty, [0xDC, 0xC0], false, none, none, some .stack, []⟩, ?_, ?_, ?_, ?_⟩
    all_goals decide +kernel
  · refine ⟨⟨"NORMAL", .empty, [0x9B, 0xD9], false, none, some (.digit ⟨6, by decide⟩), none, []⟩,
      ?_, rfl, ?_⟩
    all_goals decide +kernel

end Encoding

end OpcodeTable
