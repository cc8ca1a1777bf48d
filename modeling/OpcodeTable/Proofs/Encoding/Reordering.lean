import OpcodeTable.Proofs.Encoding.Grammar

/-!
# Words that may change places

The words of an encoding text fall into lanes: bytes, folds and vector groups in one, ModRM words, scheme
names and immediate markers in one each. A word fills in only what belongs to its lane, and how it does so
depends only on the words of its lane that stand before it. So the words of a text can be put into any other
order in which every lane keeps its own: the text then has the same encoding, or is refused as before.
-/

namespace OpcodeTable.Encoding

/-- Tokens of one lane are read in their order. -/
inductive Lane where
  | opcode | modRM | scheme | immediates
deriving DecidableEq, Repr

/-- The lane of a token, for the tokens whose place matters. -/
def Token.lane? : Token → Option Lane
  | .scheme _ => some .scheme
  | .vector _ => some .opcode
  | .rexW => none
  | .neutral => none
  | .modRM _ => some .modRM
  | .folded _ _ => some .opcode
  | .byte _ => some .opcode
  | .immediate _ => some .immediates

namespace Draft

/-- The part of a draft that the tokens of one lane fill in. -/
def face (draft : Draft) : Lane → Draft
  | .opcode =>
      { prefixes := draft.prefixes, opcode := draft.opcode, vector := draft.vector, fold := draft.fold }
  | .modRM => { modRM := draft.modRM }
  | .scheme => { scheme := draft.scheme }
  | .immediates => { immediates := draft.immediates }

variable {first second : Draft} {lane : Lane} {token : Token}

theorem eq_of_faces (faces : ∀ lane, first.face lane = second.face lane)
    (rexW : first.rexW = second.rexW) : first = second := by
  have opcodeFace := faces .opcode
  have modRMFace := faces .modRM
  have schemeFace := faces .scheme
  have immediatesFace := faces .immediates
  cases first
  cases second
  simp_all [face]

theorem face_addByte_of_ne (draft : Draft) (value : UInt8) (elsewhere : lane ≠ .opcode) :
    (draft.addByte value).face lane = draft.face lane := by
  cases lane with
  | opcode => exact absurd rfl elsewhere
  | _ =>
      cases found : PrefixByte.ofByte? value with
      | none =>
          rw [addByte_of_none found]
          rfl
      | some byte =>
          rw [addByte_of_some found]
          split_ifs <;> rfl

/-- A token does not touch what another lane fills in. -/
theorem face_add_of_ne (draft : Draft) (elsewhere : token.lane? ≠ some lane) :
    (draft.add token).face lane = draft.face lane := by
  cases token with
  | byte value => exact face_addByte_of_ne draft value fun same => elsewhere (congrArg some same.symm)
  | _ => cases lane <;> first | rfl | exact absurd rfl elsewhere

theorem face_addByte (value : UInt8) (same : first.face .opcode = second.face .opcode) :
    (first.addByte value).face .opcode = (second.addByte value).face .opcode := by
  simp only [face, mk.injEq, true_and, and_true] at same
  obtain ⟨prefixesEq, opcodeEq, vectorEq, foldEq⟩ := same
  cases found : PrefixByte.ofByte? value with
  | none => simp [addByte_of_none found, face, prefixesEq, opcodeEq, vectorEq, foldEq]
  | some byte =>
      have freshEq : first.isFresh = second.isFresh := by rw [isFresh, isFresh, opcodeEq, vectorEq]
      rw [addByte_of_some found, addByte_of_some found, freshEq]
      cases second.isFresh <;> simp [face, prefixesEq, opcodeEq, vectorEq, foldEq]

/-- What a token fills in depends only on what its lane has filled in. -/
theorem face_add (token : Token) (same : first.face lane = second.face lane) :
    (first.add token).face lane = (second.add token).face lane := by
  by_cases inLane : token.lane? = some lane
  · cases token with
    | byte value =>
        obtain rfl := Option.some.inj inLane
        exact face_addByte value same
    | rexW => cases inLane
    | neutral => cases inLane
    | _ =>
        obtain rfl := Option.some.inj inLane
        simp only [face, mk.injEq, true_and, and_true] at same
        simp [add, face, same]
  · rw [face_add_of_ne first inLane, face_add_of_ne second inLane, same]

theorem face_foldl_add (draft : Draft) (tokens : List Token) :
    (tokens.foldl add draft).face lane =
      ((tokens.filter (·.lane? == some lane)).foldl add draft).face lane := by
  induction tokens using List.reverseRecOn with
  | nil => rfl
  | append_singleton tokens token ih =>
      rw [List.foldl_concat, List.filter_append]
      by_cases inLane : token.lane? = some lane
      · rw [List.filter_cons_of_pos (by simp [inLane]), List.filter_nil, List.foldl_concat]
        exact face_add token ih
      · rw [List.filter_cons_of_neg (by simp [inLane]), List.filter_nil, List.append_nil,
          face_add_of_ne _ inLane, ih]

theorem foldl_add_eq_of_lanes {tokens others : List Token} (perm : tokens.Perm others)
    (lanes : ∀ lane, tokens.filter (·.lane? == some lane) = others.filter (·.lane? == some lane)) :
    tokens.foldl add {} = others.foldl add {} := by
  apply eq_of_faces
  · intro lane
    rw [face_foldl_add, lanes lane, ← face_foldl_add]
  · rw [Bool.eq_iff_iff, rexW_foldl_add, rexW_foldl_add, perm.mem_iff]

end Draft

/-- The token that a word spells. -/
def wordToken? (word : List Char) : Option Token :=
  (readToken "" word).toOption

/-- The lane of a word. A word that spells no token has none. -/
def wordLane? (word : List Char) : Option Lane :=
  (wordToken? word).bind Token.lane?

theorem wordToken?_eq_some_iff {word : List Char} {token : Token} :
    wordToken? word = some token ↔ Spells word token := by
  rw [← readToken_eq_ok_iff, wordToken?]
  cases readToken "" word <;> simp [Except.toOption]

theorem forall₂_spells_iff {words : List (List Char)} {tokens : List Token} :
    List.Forall₂ Spells words tokens ↔
      (∀ word ∈ words, ∃ token, Spells word token) ∧ words.filterMap wordToken? = tokens := by
  induction words generalizing tokens with
  | nil => simp [eq_comm]
  | cons word rest ih =>
      constructor
      · intro spelled
        obtain ⟨token, others, first, later, rfl⟩ := List.forall₂_cons_left_iff.mp spelled
        obtain ⟨allSpelled, rfl⟩ := ih.mp later
        refine ⟨List.forall_mem_cons.mpr ⟨⟨token, first⟩, allSpelled⟩, ?_⟩
        rw [List.filterMap_cons_some (wordToken?_eq_some_iff.mpr first)]
      · rintro ⟨allSpelled, rfl⟩
        obtain ⟨⟨token, first⟩, later⟩ := List.forall_mem_cons.mp allSpelled
        rw [List.filterMap_cons_some (wordToken?_eq_some_iff.mpr first)]
        exact .cons first (ih.mpr ⟨later, rfl⟩)

theorem filter_lane_filterMap_wordToken? (words : List (List Char)) (lane : Lane) :
    (words.filterMap wordToken?).filter (·.lane? == some lane) =
      (words.filter (wordLane? · == some lane)).filterMap wordToken? := by
  induction words with
  | nil => rfl
  | cons word rest ih =>
      cases read : wordToken? word with
      | none =>
          have noLane : (wordLane? word == some lane) = false := by simp [wordLane?, read]
          rw [List.filterMap_cons_none read, List.filter_cons_of_neg (by simp [noLane]), ih]
      | some token =>
          have sameLane : wordLane? word = token.lane? := by simp [wordLane?, read]
          rw [List.filterMap_cons_some read, List.filter_cons, List.filter_cons, sameLane, ih]
          split
          · rw [List.filterMap_cons_some read]
          · rfl

/-- The second list has the words of the first, and the words of each lane stand in the same order in
both. -/
structure Reordered (first second : List (List Char)) : Prop where
  perm : first.Perm second
  lanes : ∀ lane, first.filter (wordLane? · == some lane) = second.filter (wordLane? · == some lane)

namespace Reordered

variable {words others : List (List Char)}

theorem symm (reordered : Reordered words others) : Reordered others words :=
  ⟨reordered.perm.symm, fun lane => (reordered.lanes lane).symm⟩

theorem foldl_add_eq (reordered : Reordered words others) :
    (words.filterMap wordToken?).foldl Draft.add {} = (others.filterMap wordToken?).foldl Draft.add {} := by
  apply Draft.foldl_add_eq_of_lanes (reordered.perm.filterMap wordToken?)
  intro lane
  rw [filter_lane_filterMap_wordToken?, filter_lane_filterMap_wordToken?, reordered.lanes lane]

variable {first second : String}

theorem parse_eq_ok (reordered : Reordered (Text.words first.toList) (Text.words second.toList))
    {encoding : Encoding} (parsed : parse first = .ok encoding) : parse second = .ok encoding := by
  obtain ⟨tokens, accepted, described⟩ := parse_eq_ok_iff.mp parsed
  obtain ⟨allSpelled, rfl⟩ := forall₂_spells_iff.mp accepted.spelled
  have otherSpelled : ∀ word ∈ Text.words second.toList, ∃ token, Spells word token :=
    fun word wordMem => allSpelled word (reordered.perm.mem_iff.mpr wordMem)
  -- Both texts fill in the same draft, so they agree on the number of opcode bytes as well.
  have filledEq := reordered.foldl_add_eq
  have bytesEq := congrArg Draft.opcode filledEq
  rw [Draft.opcode_foldl_add, Draft.opcode_foldl_add] at bytesEq
  have encodingEq := described.unique (Draft.finish_foldl_add _)
  rw [filledEq] at encodingEq
  refine parse_eq_ok_iff.mpr ⟨_, ⟨forall₂_spells_iff.mpr ⟨otherSpelled, rfl⟩, ?_, ?_⟩, ?_⟩
  · exact bytesEq ▸ accepted.opcode_pos
  · exact bytesEq ▸ accepted.opcode_le
  · exact encodingEq ▸ Draft.finish_foldl_add _

end Reordered

/-- Texts with the same words, in orders that differ only between lanes, have the same encoding or are
both refused. -/
theorem parse_reordered {first second : String}
    (reordered : Reordered (Text.words first.toList) (Text.words second.toList)) :
    (∃ encoding, parse first = .ok encoding ∧ parse second = .ok encoding) ∨
      ∃ fault otherFault, parse first = .error fault ∧ parse second = .error otherFault := by
  cases parsed : parse first with
  | ok encoding => exact .inl ⟨encoding, rfl, reordered.parse_eq_ok parsed⟩
  | error fault =>
      cases otherParsed : parse second with
      | ok encoding =>
          rw [reordered.symm.parse_eq_ok otherParsed] at parsed
          cases parsed
      | error otherFault => exact .inr ⟨fault, otherFault, rfl, rfl⟩

/-- Every lane keeps its order: prefix, group and opcode byte, two ModRM words, two immediates. -/
theorem parse_reordered_scattered :
    Reordered (Text.words "66 VEX.128.0F.W0 66 /r /3 ab: REX.W ib id".toList)
        (Text.words "ib /r 66 REX.W id VEX.128.0F.W0 /3 66 ab:".toList) ∧
      ∃ encoding, parse "66 VEX.128.0F.W0 66 /r /3 ab: REX.W ib id" = .ok encoding ∧
        parse "ib /r 66 REX.W id VEX.128.0F.W0 /3 66 ab:" = .ok encoding := by
  have reordered : Reordered (Text.words "66 VEX.128.0F.W0 66 /r /3 ab: REX.W ib id".toList)
      (Text.words "ib /r 66 REX.W id VEX.128.0F.W0 /3 66 ab:".toList) := by
    constructor
    · decide +kernel
    · intro lane
      cases lane <;> decide +kernel
  refine ⟨reordered, ?_⟩
  rcases parse_reordered reordered with same | ⟨fault, _, refused, _⟩
  · exact same
  · have accepted : (parse "66 VEX.128.0F.W0 66 /r /3 ab: REX.W ib id").toOption.isSome = true := by
      decide +kernel
    rw [refused] at accepted
    cases accepted

end OpcodeTable.Encoding
