import OpcodeTable.Proofs.Table.Layout
import OpcodeTable.Proofs.Table.Lookup

/-!
# Where links lead

Links are taken from a hash map of first positions and looked up again in an ordered list of entries.
Both give each key its first row, so a linked row and a lookup of its target key agree. The keys that
links lead to are never themselves linked, hence a link leads to another row and no further. Since a
table has fewer rows than the row field of a packed link can count, packing loses nothing.
-/

namespace OpcodeTable

/-- A key should link to another key, for the given reason. -/
inductive LinkRule : VariantKey → LinkContext → VariantKey → Prop where
  | wideImmediate :
      LinkRule ⟨"mov", [.general .qword, .immediate .dword]⟩ .wideImmediate
        ⟨"mov", [.general .dword, .immediate .dword]⟩
  | shiftByOne {name : String} {first count : OperandType}
      (shifts : name ∈ ["rol", "ror", "rcl", "rcr", "shl", "shr", "sal", "sar"])
      (byCount : count ≠ .one) :
      LinkRule ⟨name, [first, count]⟩ .shiftByOne ⟨name, [first, .one]⟩
  | narrowImmediate {first second third : OperandType}
      (wide : third = .immediate .word ∨ third = .immediate .dword) :
      LinkRule ⟨"imul", [first, second, third]⟩ .narrowImmediate
        ⟨"imul", [first, second, .immediate .byte]⟩

namespace LinkRule

variable {key target last : VariantKey} {context second : LinkContext}

/-- The target of a rule is the source of none. -/
theorem target_final (rule : LinkRule key context target) : ¬ LinkRule target second last := by
  intro next
  generalize sourceEq : target = source at next
  -- Within one rule the last operand tells source and target apart, across rules the name or the
  -- number of operands.
  cases rule with
  | wideImmediate =>
      cases next with
      | wideImmediate => simp at sourceEq
      | shiftByOne shifts byCount =>
          obtain ⟨rfl, _⟩ := VariantKey.mk.inj sourceEq
          simp at shifts
      | narrowImmediate wide => simp at sourceEq
  | shiftByOne shifts byCount =>
      cases next with
      | wideImmediate => simp at sourceEq
      | shiftByOne nextShifts nextByCount =>
          simp only [VariantKey.mk.injEq, List.cons.injEq] at sourceEq
          exact nextByCount sourceEq.2.2.1.symm
      | narrowImmediate wide => simp at sourceEq
  | narrowImmediate wide =>
      cases next with
      | wideImmediate => simp at sourceEq
      | shiftByOne shifts byCount => simp at sourceEq
      | narrowImmediate nextWide =>
          simp only [VariantKey.mk.injEq, List.cons.injEq] at sourceEq
          rw [← sourceEq.2.2.2.1] at nextWide
          simp at nextWide

theorem ne_target (rule : LinkRule key context target) : key ≠ target := by
  rintro rfl
  exact rule.target_final rule

end LinkRule

theorem Variant.linkTarget?_eq_some_iff {variant : Variant} {context : LinkContext}
    {key : VariantKey} :
    variant.linkTarget? = some (context, key) ↔ LinkRule variant.key context key := by
  obtain ⟨name, operands, encoding⟩ := variant
  constructor
  · intro found
    unfold linkTarget? at found
    split at found
    case h_1 first count operandsEq =>
      obtain rfl : operands = [first, count] := operandsEq
      split_ifs at found with isMove isShift
      · obtain ⟨rfl, rfl, rfl⟩ := isMove
        cases found
        exact .wideImmediate
      · cases found
        exact .shiftByOne (by simpa [shiftNames] using isShift.1) isShift.2
    case h_2 first second third operandsEq =>
      obtain rfl : operands = [first, second, third] := operandsEq
      split_ifs at found with isMultiplication
      obtain ⟨rfl, wide⟩ := isMultiplication
      cases found
      exact .narrowImmediate wide
    case h_3 => cases found
  · intro rule
    unfold Variant.key at rule
    cases rule with
    | wideImmediate => rfl
    | shiftByOne shifts byCount =>
        have notMove : name ≠ "mov" := by
          rintro rfl
          simp at shifts
        simp [linkTarget?, notMove, byCount, shiftNames, shifts]
    | narrowImmediate wide => simp [linkTarget?, wide]

namespace Link

theorem pack_lt_absent (link : Link) : link.pack < absent := by
  unfold pack rowSpan absent
  have codeLe : link.context.code ≤ 2 := by cases link.context <;> decide
  omega

theorem unpack?_pack {link : Link} (fits : link.row < rowSpan) : unpack? link.pack = some link := by
  have notAbsent : link.pack ≠ absent := link.pack_lt_absent.ne
  have rowEq : link.pack % rowSpan = link.row := by
    rw [pack, Nat.mul_add_mod_self_right, Nat.mod_mod, Nat.mod_eq_of_lt fits]
  have codeEq : link.pack / rowSpan = link.context.code := by
    rw [pack, Nat.mod_eq_of_lt fits, Nat.mul_comm, Nat.mul_add_div (by decide),
      Nat.div_eq_of_lt fits, Nat.add_zero]
  have contextEq : LinkContext.ofCode? link.context.code = some link.context := by
    cases link.context <;> rfl
  rw [unpack?, if_neg notAbsent, rowEq, codeEq, contextEq, Option.map_some]

theorem unpack?_packOption {link? : Option Link} (fits : ∀ link, link? = some link → link.row < rowSpan) :
    unpack? (packOption link?) = link? := by
  cases link? with
  | none => rfl
  | some link => exact unpack?_pack (fits link rfl)

end Link

theorem TableRow.packedLink_eq_absent_iff (row : TableRow) :
    row.packedLink = Link.absent ↔ row.link = none := by
  rw [packedLink, Link.packOption]
  cases row.link with
  | none => simp
  | some link => simp [link.pack_lt_absent.ne]

theorem TableRow.unpack?_packedLink {row : TableRow} {link : Link} (linked : row.link = some link)
    (bounded : link.row < Link.rowLimit) : Link.unpack? row.packedLink = some link := by
  rw [packedLink, Link.packOption, linked]
  exact Link.unpack?_pack (Nat.lt_succ_of_lt bounded)

namespace Table

variable {rows : List Variant}

theorem row?_ofRows (rows : List Variant) (position : Nat) :
    (ofRows rows).row? position =
      rows[position]?.map fun variant => ⟨variant, variant.link? (firstPositions rows)⟩ := by
  rw [row?, ofRows, List.getElem?_map]

theorem link_of_row?_ofRows {position : Nat} {row : TableRow}
    (rowAt : (ofRows rows).row? position = some row) :
    row.link = row.variant.link? (firstPositions rows) := by
  rw [row?_ofRows] at rowAt
  obtain ⟨variant, _, rfl⟩ := Option.map_eq_some_iff.mp rowAt
  rfl

/-- The link of a row leads to the first row of the key that a rule gives, where looking up this key
leads too. -/
theorem link?_firstPositions_eq_some_iff {variant : Variant} {link : Link} :
    variant.link? (firstPositions rows) = some link ↔
      ∃ key, LinkRule variant.key link.context key ∧ (ofRows rows).find? key = some link.row := by
  simp only [Variant.link?_eq_some_iff, Variant.linkTarget?_eq_some_iff, getElem?_firstPositions,
    find?, lookup_ofRows, Lookup.find?_ofRows]

theorem find?_ofRows_eq_some_iff {key : VariantKey} {position : Nat} :
    (ofRows rows).find? key = some position ↔
      rows[position]?.map Variant.key = some key ∧
        ∀ earlier < position, rows[earlier]?.map Variant.key ≠ some key := by
  rw [find?, lookup_ofRows, Lookup.find?_ofRows, List.findIdx?_eq_some_iff_getElem]
  constructor
  · rintro ⟨inside, found, notEarlier⟩
    refine ⟨?_, ?_⟩
    · rw [List.getElem?_eq_getElem inside, Option.map_some, of_decide_eq_true found]
    · intro earlier before
      rw [List.getElem?_eq_getElem (before.trans inside), Option.map_some]
      intro keyEq
      exact notEarlier earlier before (decide_eq_true (Option.some.inj keyEq))
  · rintro ⟨found, notEarlier⟩
    obtain ⟨variant, variantAt, keyEq⟩ := Option.map_eq_some_iff.mp found
    obtain ⟨inside, rfl⟩ := List.getElem?_eq_some_iff.mp variantAt
    refine ⟨inside, decide_eq_true keyEq, ?_⟩
    intro earlier before sameKey
    apply notEarlier earlier before
    rw [List.getElem?_eq_getElem (before.trans inside), Option.map_some, of_decide_eq_true sameKey]

theorem find?_ofRows_isSome_iff {key : VariantKey} :
    ((ofRows rows).find? key).isSome = true ↔ key ∈ rows.map Variant.key := by
  rw [find?, lookup_ofRows, Lookup.find?_ofRows, List.findIdx?_isSome, List.any_eq_true]
  simp [List.mem_map]

theorem isSome_link?_firstPositions_iff {variant : Variant} :
    (variant.link? (firstPositions rows)).isSome = true ↔
      ∃ context key, LinkRule variant.key context key ∧ key ∈ rows.map Variant.key := by
  simp only [Option.isSome_iff_exists, link?_firstPositions_eq_some_iff, ← find?_ofRows_isSome_iff]
  constructor
  · rintro ⟨link, key, rule, found⟩
    exact ⟨link.context, key, rule, link.row, found⟩
  · rintro ⟨context, key, rule, position, found⟩
    exact ⟨⟨context, position⟩, key, rule, found⟩

/-- A link leads to a row with the key that its rule gives. -/
theorem exists_target_of_link {position : Nat} {row : TableRow} {link : Link}
    (rowAt : (ofRows rows).row? position = some row) (linked : row.link = some link) :
    ∃ key target, LinkRule row.variant.key link.context key ∧
      (ofRows rows).find? key = some link.row ∧
      (ofRows rows).row? link.row = some target ∧ target.variant.key = key := by
  rw [link_of_row?_ofRows rowAt, link?_firstPositions_eq_some_iff] at linked
  obtain ⟨key, rule, found⟩ := linked
  obtain ⟨keyAt, _⟩ := find?_ofRows_eq_some_iff.mp found
  obtain ⟨variant, variantAt, keyEq⟩ := Option.map_eq_some_iff.mp keyAt
  refine ⟨key, ⟨variant, variant.link? (firstPositions rows)⟩, rule, found, ?_, keyEq⟩
  rw [row?_ofRows, variantAt, Option.map_some]

/-- A row with the target key of a rule has no link. -/
theorem link_eq_none_of_target {position : Nat} {target : TableRow} {key : VariantKey}
    {context : LinkContext} (targetAt : (ofRows rows).row? position = some target)
    (rule : LinkRule key context target.variant.key) : target.link = none := by
  rw [link_of_row?_ofRows targetAt, Option.eq_none_iff_forall_ne_some]
  intro link linked
  obtain ⟨_, next, _⟩ := link?_firstPositions_eq_some_iff.mp linked
  exact rule.target_final next

/-- In a table of any variants, a row has a link exactly if a rule leads from its key to a key that the
table has. The link has the context of this rule and leads to the first row of the target key, where
looking up that key leads too; this is another row, and it has no link itself. The packed link is
`0xFFFF` exactly if there is no link, and unpacks to the link otherwise. -/
theorem ofVariants_links {variants : List Variant} {table : Table}
    (laidOut : ofVariants variants = .ok table) {position : Nat} {row : TableRow}
    (rowAt : table.row? position = some row) :
    (row.link.isSome = true ↔
      ∃ context key, LinkRule row.variant.key context key ∧ key ∈ table.variants.map Variant.key) ∧
    (∀ link, row.link = some link → ∃ key target,
      LinkRule row.variant.key link.context key ∧
      table.row? link.row = some target ∧ target.variant.key = key ∧
      (∀ earlier < link.row, table.variants[earlier]?.map Variant.key ≠ some key) ∧
      table.find? key = some link.row ∧
      link.row < table.size ∧ link.row ≠ position ∧
      table.linkedRow? position = some target ∧ target.link = none) ∧
    (row.packedLink = 0xFFFF ↔ row.link = none) ∧
    ∀ link, row.link = some link → Link.unpack? row.packedLink = some link := by
  rw [ofVariants_eq] at laidOut
  split_ifs at laidOut with fits
  obtain rfl := Except.ok.inj laidOut
  have sortedLength : (variants.mergeSort Variant.rowLE).length = variants.length :=
    List.length_mergeSort variants
  rw [← sortedLength] at fits
  generalize variants.mergeSort Variant.rowLE = rows at rowAt fits ⊢
  have inside {other : Nat} {found : TableRow} (foundAt : (ofRows rows).row? other = some found) :
      other < (ofRows rows).size :=
    (List.getElem?_eq_some_iff.mp foundAt).1
  rw [variants_ofRows]
  refine ⟨?_, ?_, row.packedLink_eq_absent_iff, ?_⟩
  · rw [link_of_row?_ofRows rowAt]
    exact isSome_link?_firstPositions_iff
  · intro link linked
    obtain ⟨key, target, rule, found, targetAt, rfl⟩ := exists_target_of_link rowAt linked
    have elsewhere : link.row ≠ position := by
      intro samePosition
      rw [samePosition, rowAt] at targetAt
      obtain rfl := Option.some.inj targetAt
      exact rule.ne_target rfl
    have linkedRow : (ofRows rows).linkedRow? position = some target := by
      rw [linkedRow?, rowAt, Option.bind_some, linked, Option.bind_some, targetAt]
    exact ⟨target.variant.key, target, rule, targetAt, rfl, (find?_ofRows_eq_some_iff.mp found).2,
      found, inside targetAt, elsewhere, linkedRow, link_eq_none_of_target targetAt rule⟩
  · intro link linked
    obtain ⟨_, _, _, _, targetAt, _⟩ := exists_target_of_link rowAt linked
    have bounded := inside targetAt
    rw [size_ofRows] at bounded
    exact TableRow.unpack?_packedLink linked (bounded.trans_le fits)

/-- Shifts of a 32-bit register: by a number, and twice by one. -/
def shiftVariants : List Variant :=
  let shift (count : OperandType) (opcode : UInt8) : Variant :=
    ⟨"shl", [.general .dword, count],
      ⟨"NORMAL", .empty, [opcode], false, none, some (.digit ⟨4, by decide⟩), none, []⟩⟩
  [shift (.immediate .byte) 0xC1, shift .one 0xD1, shift .one 0xD0]

theorem ofVariants_links_shift :
    ∃ table position row link target, ofVariants shiftVariants = .ok table ∧
      table.row? position = some row ∧ row.variant.operands = [.general .dword, .immediate .byte] ∧
      row.link = some link ∧ Link.unpack? row.packedLink = some link ∧
      table.linkedRow? position = some target ∧ target.variant.operands = [.general .dword, .one] := by
  have laidOut := ofVariants_eq shiftVariants
  rw [if_pos (by decide)] at laidOut
  have perm := List.mergeSort_perm shiftVariants Variant.rowLE
  obtain ⟨position, variantAt⟩ :=
    List.mem_iff_getElem?.mp (perm.mem_iff.mpr (List.mem_cons_self : _ ∈ shiftVariants))
  have rowAt := row?_ofRows (shiftVariants.mergeSort Variant.rowLE) position
  rw [variantAt, Option.map_some] at rowAt
  obtain ⟨hasLink, leads, _, unpacks⟩ := ofVariants_links laidOut rowAt
  have targetMem : ⟨"shl", [.general .dword, .one]⟩ ∈
      (ofRows (shiftVariants.mergeSort Variant.rowLE)).variants.map Variant.key := by
    rw [variants_ofRows, (perm.map Variant.key).mem_iff]
    decide
  have rule : LinkRule ⟨"shl", [.general .dword, .immediate .byte]⟩ .shiftByOne
      ⟨"shl", [.general .dword, .one]⟩ := .shiftByOne (by decide) (by decide)
  obtain ⟨link, linked⟩ := Option.isSome_iff_exists.mp (hasLink.mpr ⟨_, _, rule, targetMem⟩)
  obtain ⟨key, target, linkRule, _, keyEq, _, _, _, _, linkedRow, _⟩ := leads link linked
  have sameTarget := (Variant.linkTarget?_eq_some_iff.mpr linkRule).symm.trans
    (Variant.linkTarget?_eq_some_iff.mpr rule)
  have operandsEq := congrArg VariantKey.operands
    (keyEq.trans (congrArg Prod.snd (Option.some.inj sameTarget)))
  exact ⟨_, position, _, link, target, laidOut, rowAt, rfl, linked, unpacks link linked, linkedRow,
    operandsEq⟩

end Table

end OpcodeTable
