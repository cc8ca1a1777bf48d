import Mathlib.Data.Nat.Digits.Lemmas
import OpcodeTable.Encoding.Packed
import OpcodeTable.Proofs.Encoding.Grammar
import OpcodeTable.Proofs.Text.Hex
import OpcodeTable.Proofs.Verification

/-!
# The opcode as a number

The full opcode of an encoding is kept as bytes, written in hexadecimal digits and packed into a machine
word. An encoding that was read has at most four opcode bytes behind at most two bytes of a map escape, so
the word has room for all of them: the three forms tell the same number, and packing loses no bit.
-/

namespace OpcodeTable

theorem bigEndian_lt_pow (bytes : List UInt8) : bigEndian bytes < 256 ^ bytes.length := by
  have digitsBounded : ∀ digit ∈ (bytes.map UInt8.toNat).reverse, digit < 256 := by
    intro digit digitMem
    obtain ⟨byte, -, rfl⟩ := List.mem_map.mp (List.mem_reverse.mp digitMem)
    exact byte.toNat_lt
  simpa [bigEndian] using Nat.ofDigits_lt_base_pow_length (by decide : 1 < 256) digitsBounded

theorem hexNumber?_hexBytes (bytes : List UInt8) :
    Text.hexNumber? (Text.hexBytes bytes) = some (bigEndian bytes) := by
  rw [Text.hexNumber?, Text.mapM_hexBytes, Option.map_some, Option.some_inj]
  induction bytes using List.reverseRecOn with
  | nil => rfl
  | append_singleton bytes byte ih =>
      rw [List.flatMap_append, List.flatMap_singleton, List.reverse_append, bigEndian_concat, ← ih]
      simp only [List.reverse_cons, List.reverse_nil, List.nil_append, List.cons_append,
        Nat.ofDigits_cons]
      omega

/-- Bytes shifted into a machine word, the first byte highest. -/
def packBytes (bytes : List UInt8) : UInt64 :=
  bytes.foldl (fun value byte => value <<< 8 ||| byte.toUInt64) 0

theorem packBytes_concat (bytes : List UInt8) (byte : UInt8) :
    packBytes (bytes ++ [byte]) = packBytes bytes <<< 8 ||| byte.toUInt64 := by
  rw [packBytes, List.foldl_concat, packBytes]

theorem toNat_shiftLeft_eight {value : UInt64} (room : value.toNat < 2 ^ 56) :
    (value <<< 8).toNat = value.toNat <<< 8 := by
  rw [UInt64.toNat_shiftLeft]
  apply Nat.mod_eq_of_lt
  change value.toNat <<< 8 < 2 ^ 64
  rw [Nat.shiftLeft_eq]
  omega

theorem toNat_shiftLeft_or {value : UInt64} (room : value.toNat < 2 ^ 56) (byte : UInt8) :
    (value <<< 8 ||| byte.toUInt64).toNat = byte.toNat + 256 * value.toNat := by
  rw [UInt64.toNat_or, toNat_shiftLeft_eight room, UInt8.toNat_toUInt64,
    ← Nat.shiftLeft_add_eq_or_of_lt byte.toNat_lt, Nat.shiftLeft_eq]
  omega

theorem bigEndian_lt_of_length_le {bytes : List UInt8} {count : Nat} (short : bytes.length ≤ count) :
    bigEndian bytes < 2 ^ (8 * count) := by
  calc bigEndian bytes < 256 ^ bytes.length := bigEndian_lt_pow bytes
    _ ≤ 256 ^ count := Nat.pow_le_pow_right (by decide) short
    _ = 2 ^ (8 * count) := (Nat.pow_mul 2 8 count).symm

/-- Up to eight bytes are packed without loss. -/
theorem toNat_packBytes {bytes : List UInt8} (short : bytes.length ≤ 8) :
    (packBytes bytes).toNat = bigEndian bytes := by
  induction bytes using List.reverseRecOn with
  | nil => rfl
  | append_singleton bytes byte ih =>
      rw [List.length_append, List.length_singleton] at short
      have valueEq := ih (by omega)
      have room : (packBytes bytes).toNat < 2 ^ 56 := by
        rw [valueEq]
        exact bigEndian_lt_of_length_le (Nat.le_of_succ_le_succ short)
      rw [packBytes_concat, toNat_shiftLeft_or room, valueEq, bigEndian_concat]

namespace Encoding

theorem length_escape_le (map : OpcodeMap) : map.escape.length ≤ 2 := by
  cases map <;> decide

theorem length_fullOpcode_of_parse {text : String} {encoding : Encoding}
    (parsed : parse text = .ok encoding) :
    1 ≤ encoding.fullOpcode.length ∧ encoding.fullOpcode.length ≤ 6 := by
  obtain ⟨tokens, accepted, described⟩ := parse_eq_ok_iff.mp parsed
  have positive : 1 ≤ encoding.opcode.length := described.opcode ▸ accepted.opcode_pos
  have short : encoding.opcode.length ≤ 4 := described.opcode ▸ accepted.opcode_le
  unfold fullOpcode
  split
  · omega
  · rename_i group _
    have escapeShort := length_escape_le group.map
    rw [List.length_append]
    omega

/-- The full opcode of an encoding that was read has one to six bytes. Its text has two upper-case digits
for each byte and is read as these bytes again. The packed opcode is the number that the bytes write and
that the digits write, in 48 bits; where a byte is shifted in, the word before it is shifted as a number
without limit would be. -/
theorem opcode_packed_whole {text : String} {encoding : Encoding} (parsed : parse text = .ok encoding) :
    (1 ≤ encoding.fullOpcode.length ∧ encoding.fullOpcode.length ≤ 6) ∧
    (encoding.opcodeHex.toList.length = 2 * encoding.fullOpcode.length ∧
      (∀ c ∈ encoding.opcodeHex.toList, c ∈ Text.hexDigits) ∧
      Text.readHexBytes? encoding.opcodeHex.toList = some encoding.fullOpcode) ∧
    encoding.opcodeValue = packBytes encoding.fullOpcode ∧
    encoding.opcodeValue.toNat = bigEndian encoding.fullOpcode ∧
    Text.hexNumber? encoding.opcodeHex.toList = some encoding.opcodeValue.toNat ∧
    encoding.opcodeValue.toNat < 2 ^ 48 ∧
    ∀ front byte back, encoding.fullOpcode = front ++ byte :: back →
      (packBytes front <<< 8).toNat = (packBytes front).toNat <<< 8 := by
  have lengths := length_fullOpcode_of_parse parsed
  have valueEq : encoding.opcodeValue.toNat = bigEndian encoding.fullOpcode :=
    toNat_packBytes (by omega)
  rw [opcodeHex, String.toList_ofList]
  refine ⟨lengths, ⟨Text.length_hexBytes _, ?_, Text.readHexBytes?_hexBytes _⟩, rfl, valueEq, ?_, ?_, ?_⟩
  · intro c written
    exact Text.mem_hexDigits_of_mem_hexBytes written
  · rw [hexNumber?_hexBytes, valueEq]
  · rw [valueEq]
    exact bigEndian_lt_of_length_le lengths.2
  · intro front byte back cut
    rw [cut, List.length_append, List.length_cons] at lengths
    apply toNat_shiftLeft_eight
    rw [toNat_packBytes (by omega)]
    exact bigEndian_lt_of_length_le (by omega : front.length ≤ 7)

/-- The longest opcode, with a first byte that has leading zeros and a byte that is zero. -/
theorem opcode_packed_whole_longest :
    ∃ encoding, parse "EVEX.512.66.0F38.W1 FF 00 FE 80 /r" = .ok encoding ∧
      encoding.fullOpcode.length = 6 ∧ encoding.opcodeHex = "0F38FF00FE80" ∧
      Text.readHexBytes? "0F38FF00FE80".toList = some [0x0F, 0x38, 0xFF, 0x00, 0xFE, 0x80] ∧
      encoding.opcodeValue = 0x0F38FF00FE80 ∧ encoding.opcodeValue.toNat < 2 ^ 48 := by
  have parsed : parse "EVEX.512.66.0F38.W1 FF 00 FE 80 /r" = .ok
      ⟨"EVEX", .empty, [0xFF, 0x00, 0xFE, 0x80], false,
        some ⟨.evex, .bits512, .map0F38, some .operandSize, .one⟩, some .register, none, []⟩ := by
    decide +kernel
  obtain ⟨-, ⟨-, -, readBack⟩, -, -, -, bounded, -⟩ := opcode_packed_whole parsed
  have hexEq : (Encoding.mk "EVEX" .empty [0xFF, 0x00, 0xFE, 0x80] false
      (some ⟨.evex, .bits512, .map0F38, some .operandSize, .one⟩) (some .register) none []).opcodeHex =
      "0F38FF00FE80" := by decide +kernel
  rw [hexEq] at readBack
  exact ⟨_, parsed, rfl, hexEq, readBack, by decide +kernel, bounded⟩

end Encoding

end OpcodeTable
