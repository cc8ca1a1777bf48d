import Mathlib.Data.List.Nodup
import Mathlib.Order.Bounds.Defs
import OpcodeTable.Proofs.Order.Keys
import OpcodeTable.Proofs.Order.Sorting
import OpcodeTable.Table.Lookup

/-!
# Looking up finds the first row of a key

The entries of a lookup ascend strictly by key, so halving the list finds an entry if there is one. The
entry that is kept for a key is the first one of a stable order, which is the one of the first row with
this key. Together, looking up a key gives the first row with this key, and nothing for a key that no
row has. If no two rows have the same key, then every row has its entry.
-/

namespace OpcodeTable

namespace LookupEntry

/-- Where an entry belongs among all entries. -/
def place (entry : LookupEntry) : (List Nat ×ₗ List Nat) ×ₗ Nat :=
  toLex (entry.key.place, entry.row)

theorem le_iff (left right : LookupEntry) : le left right = true ↔ left.place ≤ right.place :=
  isLE_iff_of_compares
    (compares_then (VariantKey.compare_compares left.key right.key)
      (compareNat_compares left.row right.row))

theorem keepFirst_ascending {previous : Option VariantKey} {entries : List LookupEntry}
    (ordered : entries.Pairwise fun left right => left.key.place ≤ right.key.place)
    (above : ∀ key ∈ previous, ∀ entry ∈ entries, key.place ≤ entry.key.place) :
    ((keepFirst previous entries).Pairwise fun left right => left.key.place < right.key.place) ∧
      ∀ key ∈ previous, ∀ entry ∈ keepFirst previous entries, key.place < entry.key.place := by
  induction entries generalizing previous with
  | nil => simp [keepFirst]
  | cons entry rest ih =>
      obtain ⟨entryLe, restOrdered⟩ := List.pairwise_cons.mp ordered
      rw [keepFirst]
      split_ifs with repeated
      · exact ih restOrdered fun key keyMem other otherMem =>
          above key keyMem other (List.mem_cons_of_mem entry otherMem)
      · obtain ⟨restAscending, restAbove⟩ :=
          @ih (some entry.key) restOrdered (by simpa using entryLe)
        have entryLt : ∀ other ∈ keepFirst (some entry.key) rest,
            entry.key.place < other.key.place := restAbove entry.key rfl
        refine ⟨List.pairwise_cons.mpr ⟨entryLt, restAscending⟩, ?_⟩
        intro key keyMem other otherMem
        have keyLt : key.place < entry.key.place := by
          apply lt_of_le_of_ne (above key keyMem entry List.mem_cons_self)
          intro placeEq
          rw [VariantKey.place_injective placeEq] at keyMem
          exact repeated keyMem
        rcases List.mem_cons.mp otherMem with rfl | laterMem
        · exact keyLt
        · exact keyLt.trans (entryLt other laterMem)

/-- Dropping repeated keys keeps the first entry of every key other than the one given before the
list. -/
theorem find?_keepFirst {previous : Option VariantKey} {key : VariantKey}
    (different : previous ≠ some key) (entries : List LookupEntry) :
    (keepFirst previous entries).find? (fun entry => entry.key = key) =
      entries.find? fun entry => entry.key = key := by
  induction entries generalizing previous with
  | nil => rfl
  | cons entry rest ih =>
      rw [keepFirst]
      split_ifs with repeated
      · have entryNe : entry.key ≠ key := by
          rintro rfl
          exact different repeated
        rw [ih different, List.find?_cons_of_neg (by simpa using entryNe)]
      · by_cases found : entry.key = key
        · simp [found]
        · rw [List.find?_cons_of_neg (by simpa using found),
            List.find?_cons_of_neg (by simpa using found)]
          exact ih (by simpa using found)

theorem keepFirst_eq_self {previous : Option VariantKey} {entries : List LookupEntry}
    (distinct : (entries.map key).Nodup) (fresh : ∀ entry ∈ entries, previous ≠ some entry.key) :
    keepFirst previous entries = entries := by
  induction entries generalizing previous with
  | nil => rfl
  | cons entry rest ih =>
      rw [List.map_cons, List.nodup_cons] at distinct
      rw [keepFirst, if_neg (fresh entry List.mem_cons_self)]
      congr 1
      apply ih distinct.2
      intro other otherMem keyEq
      have sameKey : entry.key = other.key := Option.some.inj keyEq
      exact distinct.1 (sameKey ▸ List.mem_map_of_mem otherMem)

end LookupEntry

/-- The entries of rows before they are sorted: the key of each row with its position. -/
def rowEntries (rows : List Variant) : List LookupEntry :=
  rows.zipIdx.map fun (variant, row) => ⟨variant.key, row⟩

theorem map_key_rowEntries (rows : List Variant) :
    (rowEntries rows).map LookupEntry.key = rows.map Variant.key := by
  rw [rowEntries, List.map_map]
  calc
    _ = (rows.zipIdx.map Prod.fst).map Variant.key := by rw [List.map_map]; rfl
    _ = rows.map Variant.key := by rw [List.zipIdx_map_fst]

theorem map_row_rowEntries (rows : List Variant) :
    (rowEntries rows).map LookupEntry.row = List.range rows.length := by
  rw [rowEntries, List.map_map]
  calc
    _ = rows.zipIdx.map Prod.snd := rfl
    _ = List.range rows.length := by rw [List.zipIdx_map_snd, List.range_eq_range']

private theorem find?_zipIdx_eq (rows : List Variant) (key : VariantKey) (start : Nat) :
    (((rows.zipIdx start).map fun (variant, row) => LookupEntry.mk variant.key row).find?
        fun entry => entry.key = key).map LookupEntry.row =
      (rows.findIdx? fun variant => variant.key = key).map (start + ·) := by
  induction rows generalizing start with
  | nil => rfl
  | cons variant rest ih =>
      rw [List.zipIdx_cons, List.map_cons, List.findIdx?_cons]
      by_cases found : variant.key = key
      · simp [found]
      · rw [List.find?_cons_of_neg (by simpa using found), ih, if_neg (by simpa using found)]
        simp [Function.comp_def, Nat.add_assoc, Nat.add_comm 1]

namespace Lookup

/-- Any entry that the search gives has the key. -/
theorem exists_entry_of_search {entries : Array LookupEntry} {key : VariantKey} {low high row : Nat}
    (found : search entries key low high = some row) :
    ∃ entry ∈ entries, entry.key = key ∧ entry.row = row := by
  fun_induction search entries key low high with
  | case1 low high window middle outside => cases found
  | case2 low high window middle entry entryAt equal =>
      exact ⟨entry, Array.mem_of_getElem? entryAt,
        (VariantKey.compare_eq_eq_iff entry.key key).mp equal, Option.some.inj found⟩
  | case3 low high window middle entry entryAt below ih => exact ih found
  | case4 low high window middle entry entryAt above ih => exact ih found
  | case5 low high closed => cases found

variable {entries : Array LookupEntry}

private theorem place_lt_of_lt
    (ascending : entries.toList.Pairwise fun left right => left.key.place < right.key.place)
    {left right : Nat} (inBounds : right < entries.size) (leftLt : left < right) :
    entries[left].key.place < entries[right].key.place := by
  have placeLt := List.pairwise_iff_getElem.mp ascending left right
    (by simpa using leftLt.trans inBounds) (by simpa using inBounds) leftLt
  simpa using placeLt

private theorem lt_of_place_lt
    (ascending : entries.toList.Pairwise fun left right => left.key.place < right.key.place)
    {left right : Nat} (leftBound : left < entries.size) (rightBound : right < entries.size)
    (placeLt : entries[left].key.place < entries[right].key.place) : left < right := by
  rcases Nat.lt_trichotomy left right with less | same | greater
  · exact less
  · subst same
    exact absurd placeLt (lt_irrefl _)
  · exact absurd placeLt (place_lt_of_lt ascending leftBound greater).asymm

/-- Among strictly ascending entries the search finds every entry inside its bounds. -/
theorem search_eq_some
    (ascending : entries.toList.Pairwise fun left right => left.key.place < right.key.place)
    {key : VariantKey} {low high position : Nat} (lowLe : low ≤ position) (ltHigh : position < high)
    (highLe : high ≤ entries.size) (keyEq : entries[position].key = key) :
    search entries key low high = some entries[position].row := by
  -- The wanted entry stays inside the bounds: what is cut off is smaller or larger than it.
  fun_induction search entries key low high with
  | case1 low high window middle outside =>
      have outOfBounds := Array.getElem?_eq_none_iff.mp outside
      omega
  | case2 low high window middle entry entryAt equal =>
      obtain ⟨middleLt, rfl⟩ := Array.getElem?_eq_some_iff.mp entryAt
      have keysEq : entries[middle].key = entries[position].key :=
        ((VariantKey.compare_eq_eq_iff _ key).mp equal).trans keyEq.symm
      have same : middle = position := by
        rcases Nat.lt_trichotomy middle position with less | same | greater
        · have placeLt := place_lt_of_lt ascending (by omega) less
          exact absurd placeLt (keysEq ▸ lt_irrefl _)
        · exact same
        · have placeLt := place_lt_of_lt ascending middleLt greater
          exact absurd placeLt (keysEq ▸ lt_irrefl _)
      simp only [same]
  | case3 low high window middle entry entryAt below ih =>
      obtain ⟨middleLt, rfl⟩ := Array.getElem?_eq_some_iff.mp entryAt
      have keyLt := (VariantKey.compare_compares _ key).eq_lt.mp below
      rw [← keyEq] at keyLt
      exact ih (lt_of_place_lt ascending middleLt (by omega) keyLt) ltHigh highLe keyEq
  | case4 low high window middle entry entryAt above ih =>
      obtain ⟨middleLt, rfl⟩ := Array.getElem?_eq_some_iff.mp entryAt
      have keyLt := (VariantKey.compare_compares _ key).eq_gt.mp above
      rw [← keyEq] at keyLt
      exact ih lowLe (lt_of_place_lt ascending (by omega) middleLt keyLt) (by omega) keyEq
  | case5 low high closed => omega

/-- With strictly ascending entries, looking up a key gives the row of the entry with this key. -/
theorem find?_eq_find?_entries {lookup : Lookup}
    (ascending : lookup.entries.toList.Pairwise fun left right => left.key.place < right.key.place)
    (key : VariantKey) :
    lookup.find? key =
      (lookup.entries.toList.find? fun entry => entry.key = key).map LookupEntry.row := by
  cases found : lookup.entries.toList.find? fun entry => entry.key = key with
  | none =>
      cases searched : lookup.find? key with
      | none => rfl
      | some row =>
          obtain ⟨entry, entryMem, keyEq, _⟩ := exists_entry_of_search searched
          have absent := List.find?_eq_none.mp found entry (by simpa using entryMem)
          exact absurd keyEq (by simpa using absent)
  | some entry =>
      have keyEq : entry.key = key := by simpa using List.find?_some found
      obtain ⟨position, inBounds, rfl⟩ := Array.mem_iff_getElem.mp
        (Array.mem_toList_iff.mp (List.mem_of_find?_eq_some found))
      exact search_eq_some ascending (Nat.zero_le position) inBounds (Nat.le_refl _) keyEq

theorem toList_entries_ofRows (rows : List Variant) :
    (ofRows rows).entries.toList =
      LookupEntry.keepFirst none ((rowEntries rows).mergeSort LookupEntry.le) := by
  simp [ofRows, rowEntries]

theorem ofRows_ascending (rows : List Variant) :
    (ofRows rows).entries.toList.Pairwise fun left right => left.key.place < right.key.place := by
  rw [toList_entries_ofRows]
  have sorted := pairwise_place_mergeSort LookupEntry.le_iff (rowEntries rows)
  exact (LookupEntry.keepFirst_ascending
    (sorted.imp fun placeLe => Prod.Lex.monotone_fst _ _ placeLe) (by simp)).1

/-- The entries of one key are in order before sorting, since the rows ascend. -/
private theorem rowEntries_filter_ordered (rows : List Variant) (key : VariantKey) :
    ((rowEntries rows).filter fun entry => entry.key = key).Pairwise
      fun left right => left.place ≤ right.place := by
  have rowsAscending : (rowEntries rows).Pairwise fun left right => left.row < right.row := by
    rw [← List.pairwise_map (f := LookupEntry.row) (R := (· < ·)), map_row_rowEntries]
    exact List.pairwise_lt_range
  apply (rowsAscending.filter _).imp_of_mem
  intro left right leftMem rightMem rowLt
  have leftKey := of_decide_eq_true (List.mem_filter.mp leftMem).2
  have rightKey := of_decide_eq_true (List.mem_filter.mp rightMem).2
  have keyEq : left.key = right.key := leftKey.trans rightKey.symm
  apply le_of_lt
  exact Prod.Lex.toLex_lt_toLex.mpr (Or.inr ⟨congrArg VariantKey.place keyEq, rowLt⟩)

/-- Looking up a key gives the first row with this key. -/
theorem find?_ofRows (rows : List Variant) (key : VariantKey) :
    (ofRows rows).find? key = rows.findIdx? fun variant => variant.key = key := by
  have sameFirst :
      ((rowEntries rows).mergeSort LookupEntry.le).find? (fun entry => entry.key = key) =
        (rowEntries rows).find? fun entry => entry.key = key := by
    rw [← List.head?_filter, ← List.head?_filter,
      filter_mergeSort_of_pairwise LookupEntry.le_iff _ _ (rowEntries_filter_ordered rows key)]
  rw [find?_eq_find?_entries (ofRows_ascending rows), toList_entries_ofRows,
    LookupEntry.find?_keepFirst (by simp), sameFirst, rowEntries, find?_zipIdx_eq]
  simp

theorem find?_ofRows_eq_some_iff_isLeast (rows : List Variant) (key : VariantKey) (row : Nat) :
    (ofRows rows).find? key = some row ↔
      IsLeast {index | ∃ variant, rows[index]? = some variant ∧ variant.key = key} row := by
  rw [find?_ofRows, List.findIdx?_eq_some_iff_getElem]
  constructor
  · rintro ⟨inBounds, keyEq, noneBefore⟩
    refine ⟨⟨rows[row], List.getElem?_eq_getElem inBounds, of_decide_eq_true keyEq⟩, ?_⟩
    rintro index ⟨variant, atIndex, sameKey⟩
    by_contra before
    obtain ⟨indexBounds, variantEq⟩ := List.getElem?_eq_some_iff.mp atIndex
    apply noneBefore index (Nat.not_le.mp before)
    rw [variantEq]
    exact decide_eq_true sameKey
  · rintro ⟨⟨variant, atRow, keyEq⟩, least⟩
    obtain ⟨inBounds, rfl⟩ := List.getElem?_eq_some_iff.mp atRow
    refine ⟨inBounds, decide_eq_true keyEq, ?_⟩
    intro index before sameKey
    have indexBounds : index < rows.length := before.trans inBounds
    have rowLe : row ≤ index :=
      least ⟨rows[index], List.getElem?_eq_getElem indexBounds, of_decide_eq_true sameKey⟩
    exact absurd before (Nat.not_lt.mpr rowLe)

theorem nodup_key_entries_ofRows (rows : List Variant) :
    ((ofRows rows).entries.toList.map LookupEntry.key).Nodup := by
  apply List.pairwise_map.mpr
  apply (ofRows_ascending rows).imp
  intro left right placeLt keyEq
  exact placeLt.ne (congrArg VariantKey.place keyEq)

/-- Every entry is found by its key. -/
theorem find?_key_of_mem_entries {rows : List Variant} {entry : LookupEntry}
    (entryMem : entry ∈ (ofRows rows).entries) : (ofRows rows).find? entry.key = some entry.row := by
  have foundFirst : ((ofRows rows).entries.toList.find? fun other => other.key = entry.key) =
      some entry := by
    have listed : entry ∈ (ofRows rows).entries.toList := Array.mem_toList_iff.mpr entryMem
    obtain ⟨other, found⟩ := Option.isSome_iff_exists.mp
      (List.find?_isSome (p := fun other => decide (other.key = entry.key)).mpr
        ⟨entry, listed, decide_eq_true rfl⟩)
    have keyEq : other.key = entry.key := by simpa using List.find?_some found
    rw [found, List.inj_on_of_nodup_map (nodup_key_entries_ofRows rows)
      (List.mem_of_find?_eq_some found) listed keyEq]
  rw [find?_eq_find?_entries (ofRows_ascending rows), foundFirst]
  rfl

theorem exists_entry_iff (rows : List Variant) (key : VariantKey) :
    (∃ entry ∈ (ofRows rows).entries, entry.key = key) ↔ ∃ variant ∈ rows, variant.key = key := by
  constructor
  · rintro ⟨entry, entryMem, rfl⟩
    obtain ⟨⟨variant, atRow, keyEq⟩, -⟩ :=
      (find?_ofRows_eq_some_iff_isLeast rows entry.key entry.row).mp (find?_key_of_mem_entries entryMem)
    exact ⟨variant, List.mem_of_getElem? atRow, keyEq⟩
  · rintro ⟨variant, variantMem, rfl⟩
    cases found : (ofRows rows).find? variant.key with
    | none =>
        rw [find?_ofRows, List.findIdx?_eq_none_iff] at found
        simpa using found variant variantMem
    | some row =>
        obtain ⟨entry, entryMem, keyEq, -⟩ := exists_entry_of_search found
        exact ⟨entry, entryMem, keyEq⟩

/-- Whatever the rows are and however often a key occurs among them, looking up a name with operand types
gives the least row that has both, and nothing exactly if no row has both. The entries ascend strictly, by
the bytes of the name and then by the operand types; there is one for each key that a row has, and it
carries the least row with this key. -/
theorem ofRows_least_rows (rows : List Variant) :
    (∀ name operands row, (ofRows rows).find? ⟨name, operands⟩ = some row ↔
      IsLeast {index | ∃ variant, rows[index]? = some variant ∧
        variant.name = name ∧ variant.operands = operands} row) ∧
    (∀ name operands, (ofRows rows).find? ⟨name, operands⟩ = none ↔
      ∀ variant ∈ rows, ¬ (variant.name = name ∧ variant.operands = operands)) ∧
    ((ofRows rows).entries.toList.Pairwise fun left right =>
      toLex (Text.byteValues left.key.name, left.key.operands.map OperandType.index) <
        toLex (Text.byteValues right.key.name, right.key.operands.map OperandType.index)) ∧
    (∀ key, (∃ entry ∈ (ofRows rows).entries, entry.key = key) ↔
      ∃ variant ∈ rows, variant.key = key) ∧
    ∀ entry ∈ (ofRows rows).entries,
      IsLeast {index | ∃ variant, rows[index]? = some variant ∧
        variant.name = entry.key.name ∧ variant.operands = entry.key.operands} entry.row := by
  have key_eq_iff (variant : Variant) (key : VariantKey) :
      variant.key = key ↔ variant.name = key.name ∧ variant.operands = key.operands :=
    VariantKey.mk.injEq variant.name variant.operands key.name key.operands ▸ Iff.rfl
  have least (key : VariantKey) (row : Nat) := find?_ofRows_eq_some_iff_isLeast rows key row
  simp only [key_eq_iff] at least
  refine ⟨fun name operands => least ⟨name, operands⟩, ?_, ofRows_ascending rows,
    exists_entry_iff rows, ?_⟩
  · intro name operands
    rw [find?_ofRows, List.findIdx?_eq_none_iff]
    simp [key_eq_iff]
  · intro entry entryMem
    exact (least entry.key entry.row).mp (find?_key_of_mem_entries entryMem)

/-- If no two rows have the same key, the entries lead to every row once. -/
theorem map_row_ofRows_perm {rows : List Variant} (distinct : (rows.map Variant.key).Nodup) :
    ((ofRows rows).entries.toList.map LookupEntry.row).Perm (List.range rows.length) := by
  have sortedPerm := List.mergeSort_perm (rowEntries rows) LookupEntry.le
  have sortedDistinct :
      (((rowEntries rows).mergeSort LookupEntry.le).map LookupEntry.key).Nodup := by
    rw [(sortedPerm.map LookupEntry.key).nodup_iff, map_key_rowEntries]
    exact distinct
  rw [toList_entries_ofRows, LookupEntry.keepFirst_eq_self sortedDistinct (by simp),
    ← map_row_rowEntries]
  exact sortedPerm.map LookupEntry.row

end Lookup

end OpcodeTable
