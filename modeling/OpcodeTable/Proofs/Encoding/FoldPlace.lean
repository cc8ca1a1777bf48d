import OpcodeTable.Proofs.Encoding.Grammar

/-!
# Where a fold stands

A number that is folded into an opcode byte must not carry into its high bits, so a byte with a fold has its
three low bits free. The fold of an encoding comes from the last such byte of the text, and the opcode goes on
behind it with the bytes that follow in the text. Only if there are none is the byte with the fold also the
last opcode byte, which the text of the encoding and its comparison with decoded bytes take it for.
-/

namespace OpcodeTable

/-- The last value that parts give is given by a part, and the parts behind it give none. -/
theorem exists_last_of_lastGiven? {Part Value : Type} {value? : Part → Option Value} {parts : List Part}
    {value : Value} (given : lastGiven? value? parts = some value) :
    ∃ before part after, parts = before ++ part :: after ∧ value? part = some value ∧
      ∀ later ∈ after, value? later = none := by
  induction parts with
  | nil => cases given
  | cons first rest ih =>
      rw [lastGiven?_cons, Option.or_eq_some_iff] at given
      rcases given with later | ⟨absent, here⟩
      · obtain ⟨before, part, after, rfl, partGives, behind⟩ := ih later
        exact ⟨first :: before, part, after, rfl, partGives, behind⟩
      · exact ⟨[], first, rest, rfl, here, lastGiven?_eq_none_iff.mp absent⟩

namespace Encoding

/-- From a token on that cannot stand among the prefixes, all bytes are opcode bytes. -/
theorem opcodeBytes_append_of_endsPrefixes {token : Token} (ends : token.endsPrefixes = true)
    (before after : List Token) :
    opcodeBytes (before ++ token :: after) =
      opcodeBytes before ++ (token :: after).filterMap Token.byte? := by
  unfold opcodeBytes
  rw [List.dropWhile_append]
  split
  · rename_i noFront
    rw [List.isEmpty_iff.mp noFront, List.dropWhile_cons_of_neg (by simp [ends])]
    rfl
  · exact List.filterMap_append

theorem exists_fold_of_lastGiven? {tokens : List Token} {fold : Fold}
    (given : lastGiven? Token.fold? tokens = some fold) :
    ∃ before byte after, tokens = before ++ .folded byte fold :: after ∧
      ∀ token ∈ after, token.fold? = none := by
  obtain ⟨before, token, after, rfl, tokenGives, behind⟩ := exists_last_of_lastGiven? given
  cases token with
  | folded byte found =>
      obtain rfl := Option.some.inj tokenGives
      exact ⟨before, byte, after, rfl, behind⟩
  | _ => cases tokenGives

theorem aligned_of_spells {words : List (List Char)} {tokens : List Token}
    (spelled : List.Forall₂ Spells words tokens) {byte : UInt8} {fold : Fold}
    (tokenMem : .folded byte fold ∈ tokens) : byte.toNat % 8 = 0 := by
  obtain ⟨word, written⟩ := exists_spelling spelled tokenMem
  cases written with
  | folded _ aligned => exact aligned

/-- An encoding with a fold has it from the last byte with a fold in its text. The three low bits of this
byte are zero, so that no number below eight carries when it is added. The opcode has the bytes up to this
one and then all that follow it in the text; if none follow, this byte is the last of the opcode. -/
theorem fold_place {text : String} {encoding : Encoding} {fold : Fold}
    (parsed : parse text = .ok encoding) (folded : encoding.fold = some fold) :
    ∃ before byte after,
      List.Forall₂ Spells (Text.words text.toList) (before ++ .folded byte fold :: after) ∧
      (∀ token ∈ after, token.fold? = none) ∧
      byte.toNat % 8 = 0 ∧
      (∀ number < 8, byte.toNat + number < 256 ∧ (byte.toNat + number) / 8 = byte.toNat / 8) ∧
      encoding.opcode = opcodeBytes before ++ byte :: after.filterMap Token.byte? ∧
      ((∀ token ∈ after, token.byte? = none) → encoding.opcode.getLast? = some byte) := by
  obtain ⟨tokens, accepted, described⟩ := parse_eq_ok_iff.mp parsed
  have given : lastGiven? Token.fold? tokens = some fold := described.fold.symm.trans folded
  obtain ⟨before, byte, after, rfl, noLaterFold⟩ := exists_fold_of_lastGiven? given
  have aligned : byte.toNat % 8 = 0 :=
    aligned_of_spells accepted.spelled (List.mem_append_right before List.mem_cons_self)
  have opcodeEq : encoding.opcode = opcodeBytes before ++ byte :: after.filterMap Token.byte? :=
    described.opcode.trans (opcodeBytes_append_of_endsPrefixes rfl before after)
  refine ⟨before, byte, after, accepted.spelled, noLaterFold, aligned, ?_, opcodeEq, ?_⟩
  · intro number small
    have bounded := byte.toNat_lt
    omega
  · intro noLaterByte
    rw [opcodeEq, List.filterMap_eq_nil_iff.mpr noLaterByte]
    exact List.getLast?_concat

/-- Two opcode bytes, the second of them with a fold. -/
theorem fold_place_exchange :
    ∃ encoding, parse "0F C8+r" = .ok encoding ∧ encoding.fold = some .register ∧
      ∃ before byte after,
        List.Forall₂ Spells (Text.words "0F C8+r".toList) (before ++ .folded byte .register :: after) ∧
        byte.toNat % 8 = 0 ∧
        encoding.opcode = opcodeBytes before ++ byte :: after.filterMap Token.byte? := by
  have parsed : parse "0F C8+r" = .ok
      ⟨"NORMAL", .empty, [0x0F, 0xC8], false, none, none, some .register, []⟩ := by decide +kernel
  obtain ⟨before, byte, after, spelled, _, aligned, _, opcodeEq, _⟩ := fold_place parsed rfl
  exact ⟨_, parsed, rfl, before, byte, after, spelled, aligned, opcodeEq⟩

/-- A byte behind the only fold is the last one of the opcode, with low bits that are not free. -/
theorem fold_before_byte :
    ∃ encoding, parse "50+r 91" = .ok encoding ∧ encoding.fold = some .register ∧
      encoding.opcode = [0x50, 0x91] ∧ (0x91 : UInt8).toNat % 8 ≠ 0 ∧
      ((0x91 : UInt8).toNat + 7) / 8 ≠ (0x91 : UInt8).toNat / 8 := by
  refine ⟨⟨"NORMAL", .empty, [0x50, 0x91], false, none, none, some .register, []⟩, ?_, rfl, rfl, ?_⟩
  · decide +kernel
  · decide

end Encoding

end OpcodeTable
