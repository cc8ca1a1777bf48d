import OpcodeTable.Proofs.Table.Layout
import OpcodeTable.Proofs.Table.Lookup

/-!
# Lookup entries follow the rows

Keys and rows are compared in different ways. Keys go by the whole tuple of operand types, where a tuple
comes before its continuations. Rows go by the first two operands, where a missing one comes before all
others, and then by the EVEX mark. As far as the name and the first two operands tell keys apart, both
ways agree: of two entries of a lookup that differ there, the earlier one has the earlier row. If that
tells all keys apart, the entries list the rows one after the other.
-/

namespace OpcodeTable

private theorem rankPlace_first_le {left right : List Nat} (before : left < right) :
    rankPlace left[0]? ≤ rankPlace right[0]? := by
  cases left with
  | nil => exact bot_le
  | cons first rest =>
      cases right with
      | nil => exact absurd before (List.not_lt_nil _)
      | cons other others =>
          rcases List.cons_lt_cons_iff.mp before with less | ⟨same, _⟩
          · exact WithBot.coe_le_coe.mpr less.le
          · exact WithBot.coe_le_coe.mpr same.le

/-- A tuple that comes before another still does so, or is the same, as far as the first two numbers go.
A missing number is less than all others, as the end of a tuple is. -/
private theorem firstTwo_le {left right : List Nat} (before : left < right) :
    toLex (rankPlace left[0]?, rankPlace left[1]?) ≤
      toLex (rankPlace right[0]?, rankPlace right[1]?) := by
  cases left with
  | nil =>
      apply Prod.Lex.toLex_mono
      exact ⟨bot_le, bot_le⟩
  | cons first rest =>
      cases right with
      | nil => exact absurd before (List.not_lt_nil _)
      | cons other others =>
          apply Prod.Lex.toLex_le_toLex.mpr
          rcases List.cons_lt_cons_iff.mp before with less | ⟨same, restBefore⟩
          · exact .inl (WithBot.coe_lt_coe.mpr less)
          · subst same
            exact .inr ⟨rfl, rankPlace_first_le restBefore⟩

namespace VariantKey

variable {left right : VariantKey}

/-- The part of the place of a key that the name and the first two operands decide. -/
def lead (key : VariantKey) : List Nat ×ₗ WithBot Nat ×ₗ WithBot Nat :=
  let ranks := key.operands.map OperandType.index
  toLex (Text.byteValues key.name, toLex (rankPlace ranks[0]?, rankPlace ranks[1]?))

theorem lead_le_of_place_lt (placeLt : left.place < right.place) : left.lead ≤ right.lead := by
  apply Prod.Lex.toLex_le_toLex.mpr
  rcases Prod.Lex.toLex_lt_toLex.mp placeLt with nameLt | ⟨nameEq, operandsLt⟩
  · exact .inl nameLt
  · exact .inr ⟨nameEq, firstTwo_le operandsLt⟩

theorem lead_eq_lead_iff :
    left.lead = right.lead ↔
      (left.name, left.operands[0]?, left.operands[1]?) =
        (right.name, right.operands[0]?, right.operands[1]?) := by
  have ranks_inj (position : Nat) :
      (left.operands.map OperandType.index)[position]? =
          (right.operands.map OperandType.index)[position]? ↔
        left.operands[position]? = right.operands[position]? := by
    rw [List.getElem?_map, List.getElem?_map]
    exact (Option.map_injective OperandType.index_injective).eq_iff
  simp only [lead, EmbeddingLike.apply_eq_iff_eq, Prod.mk.injEq, Text.byteValues_injective.eq_iff,
    rankPlace_injective.eq_iff, ranks_inj]

/-- With at most two operands there is nothing else in a key. -/
theorem eq_of_lead_eq (leftShort : left.operands.length ≤ 2) (rightShort : right.operands.length ≤ 2)
    (leadEq : left.lead = right.lead) : left = right := by
  obtain ⟨nameEq, operandsEq⟩ := Prod.mk.inj (lead_eq_lead_iff.mp leadEq)
  obtain ⟨firstEq, secondEq⟩ := Prod.mk.inj operandsEq
  have sameOperands : left.operands = right.operands := by
    apply List.ext_getElem?
    intro position
    match position with
    | 0 => exact firstEq
    | 1 => exact secondEq
    | later + 2 => rw [List.getElem?_eq_none (by omega), List.getElem?_eq_none (by omega)]
  cases left
  cases right
  exact congrArg₂ VariantKey.mk nameEq sameOperands

end VariantKey

/-- The place of a row is decided by the lead of its key, and only if that is the same by the EVEX
mark. -/
theorem Variant.place_lt_of_lead_lt {upper lower : Variant}
    (leadLt : upper.key.lead < lower.key.lead) : upper.place < lower.place := by
  have rankAt_eq (variant : Variant) (position : Nat) :
      (variant.key.operands.map OperandType.index)[position]? = variant.rankAt position :=
    List.getElem?_map
  simp only [VariantKey.lead, rankAt_eq, Prod.Lex.toLex_lt_toLex] at leadLt
  simp only [Variant.place, Prod.Lex.toLex_lt_toLex]
  rcases leadLt with nameLt | ⟨nameEq, firstLt | ⟨firstEq, secondLt⟩⟩
  · exact .inl nameLt
  · exact .inr ⟨nameEq, .inl firstLt⟩
  · exact .inr ⟨nameEq, .inr ⟨firstEq, .inl secondLt⟩⟩

namespace RowArrangement

variable {variants rows : List Variant}

theorem row_lt_of_lead_lt (arrangement : RowArrangement variants rows) {upper lower : Nat}
    {upperVariant lowerVariant : Variant} (upperAt : rows[upper]? = some upperVariant)
    (lowerAt : rows[lower]? = some lowerVariant)
    (leadLt : upperVariant.key.lead < lowerVariant.key.lead) : upper < lower := by
  obtain ⟨upperInside, rfl⟩ := List.getElem?_eq_some_iff.mp upperAt
  obtain ⟨lowerInside, rfl⟩ := List.getElem?_eq_some_iff.mp lowerAt
  by_contra notAbove
  have placeLe : rows[lower].place ≤ rows[upper].place :=
    @place_le _ _ arrangement ⟨lower, lowerInside⟩ ⟨upper, upperInside⟩ (Nat.not_lt.mp notAbove)
  exact absurd (Variant.place_lt_of_lead_lt leadLt) (not_lt.mpr placeLe)

/-- Of two entries whose keys have different leads, the earlier one has the earlier row. -/
theorem entries_follow_rows (arrangement : RowArrangement variants rows) :
    (Lookup.ofRows rows).entries.toList.Pairwise fun earlier later =>
      earlier.key.lead ≠ later.key.lead → earlier.row < later.row := by
  have rowOf {entry : LookupEntry} (entryMem : entry ∈ (Lookup.ofRows rows).entries.toList) :
      ∃ variant, rows[entry.row]? = some variant ∧ variant.key = entry.key :=
    ((Lookup.find?_ofRows_eq_some_iff_isLeast rows entry.key entry.row).mp
      (Lookup.find?_key_of_mem_entries (Array.mem_toList_iff.mp entryMem))).1
  apply (Lookup.ofRows_ascending rows).imp_of_mem
  intro earlier later earlierMem laterMem placeLt different
  obtain ⟨upper, upperAt, upperKey⟩ := rowOf earlierMem
  obtain ⟨lower, lowerAt, lowerKey⟩ := rowOf laterMem
  apply arrangement.row_lt_of_lead_lt upperAt lowerAt
  rw [upperKey, lowerKey]
  exact lt_of_le_of_ne (VariantKey.lead_le_of_place_lt placeLt) different

/-- Distinct keys of at most two operands are listed in the order of the rows. -/
theorem map_row_entries_eq_range (arrangement : RowArrangement variants rows)
    (distinct : (variants.map Variant.key).Nodup)
    (short : ∀ variant ∈ variants, variant.operands.length ≤ 2) :
    (Lookup.ofRows rows).entries.toList.map LookupEntry.row = List.range rows.length := by
  have rowsDistinct : (rows.map Variant.key).Nodup :=
    (arrangement.perm.map Variant.key).nodup_iff.mpr distinct
  have entryShort {entry : LookupEntry} (entryMem : entry ∈ (Lookup.ofRows rows).entries.toList) :
      entry.key.operands.length ≤ 2 := by
    obtain ⟨variant, variantMem, keyEq⟩ := (Lookup.exists_entry_iff rows entry.key).mp
      ⟨entry, Array.mem_toList_iff.mp entryMem, rfl⟩
    rw [← keyEq]
    exact short variant (arrangement.perm.mem_iff.mp variantMem)
  have rowsAscend :
      ((Lookup.ofRows rows).entries.toList.map LookupEntry.row).Pairwise (· < ·) := by
    apply List.pairwise_map.mpr
    apply (arrangement.entries_follow_rows.and (Lookup.ofRows_ascending rows)).imp_of_mem
    rintro earlier later earlierMem laterMem ⟨follows, placeLt⟩
    apply follows
    intro leadEq
    have keyEq := VariantKey.eq_of_lead_eq (entryShort earlierMem) (entryShort laterMem) leadEq
    exact placeLt.ne (congrArg VariantKey.place keyEq)
  exact (Lookup.map_row_ofRows_perm rowsDistinct).eq_of_pairwise
    (fun _ _ _ _ less greater => absurd less greater.asymm) rowsAscend List.pairwise_lt_range

end RowArrangement

namespace Table

/-- However the variants of a table are given, an entry of the lookup that stands before another has the
smaller row, provided that the two differ in name, first or second operand. So if no two variants have
the same key and none has more than two operands, there is one entry for each row, and the entries have
the rows in order. -/
theorem ofVariants_entries_follow_rows {variants : List Variant} {table : Table}
    (laidOut : ofVariants variants = .ok table) :
    (table.lookup.entries.toList.Pairwise fun earlier later =>
      (earlier.key.name, earlier.key.operands[0]?, earlier.key.operands[1]?) ≠
          (later.key.name, later.key.operands[0]?, later.key.operands[1]?) →
        earlier.row < later.row) ∧
    ((variants.map Variant.key).Nodup → (∀ variant ∈ variants, variant.operands.length ≤ 2) →
      table.lookup.entries.size = table.size ∧
      ∀ position (entry : LookupEntry), table.lookup.entries[position]? = some entry →
        entry.row = position) := by
  have arranged := Variant.mergeSort_rowLE_arranges variants
  rw [ofVariants_eq] at laidOut
  split_ifs at laidOut
  obtain rfl := Except.ok.inj laidOut
  rw [lookup_ofRows, size_ofRows]
  constructor
  · simpa only [ne_eq, VariantKey.lead_eq_lead_iff] using arranged.entries_follow_rows
  · intro distinct short
    have rowsEq := arranged.map_row_entries_eq_range distinct short
    constructor
    · simpa using congrArg List.length rowsEq
    · intro position entry entryAt
      have rowAt := congrArg (·[position]?) rowsEq
      simp only [List.getElem?_map, Array.getElem?_toList, entryAt, Option.map_some] at rowAt
      obtain ⟨_, rowEq⟩ := List.getElem?_eq_some_iff.mp rowAt.symm
      rw [← rowEq, List.getElem_range]

/-- Returns with and without a number of bytes, and an addition that comes before them. -/
def returnVariants : List Variant :=
  let form (name : String) (operands : List OperandType) (opcode : UInt8) : Variant :=
    ⟨name, operands, ⟨"NORMAL", .empty, [opcode], false, none, none, none, []⟩⟩
  [form "ret" [.immediate .word] 0xC2, form "ret" [] 0xC3, form "add" [.fixed .al, .immediate .byte] 0x04]

theorem ofVariants_entries_follow_rows_returns :
    (returnVariants.map Variant.key).Nodup ∧
    (∀ variant ∈ returnVariants, variant.operands.length ≤ 2) ∧
    ∃ table, ofVariants returnVariants = .ok table ∧ table.lookup.entries.size = 3 ∧
      ∀ position (entry : LookupEntry), table.lookup.entries[position]? = some entry →
        entry.row = position := by
  have distinct : (returnVariants.map Variant.key).Nodup := by decide
  have short : ∀ variant ∈ returnVariants, variant.operands.length ≤ 2 := by decide
  have laidOut := ofVariants_eq returnVariants
  rw [if_pos (by decide)] at laidOut
  obtain ⟨sizeEq, inOrder⟩ := (ofVariants_entries_follow_rows laidOut).2 distinct short
  rw [size_ofRows, List.length_mergeSort] at sizeEq
  exact ⟨distinct, short, _, laidOut, sizeEq, inOrder⟩

end Table

end OpcodeTable
