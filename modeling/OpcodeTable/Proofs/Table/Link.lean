import OpcodeTable.Table.Link

/-!
# Links stay inside the table

The hash map that links are taken from gives each key the first row that has it. Such a row is a row of
the table, so the check of the links never fails and every row gets the link of its variant.
-/

namespace OpcodeTable

private theorem getElem?_foldl_insertIfNew (rows : List Variant) (start : Nat)
    (positions : Std.HashMap VariantKey Nat) (key : VariantKey) :
    ((rows.zipIdx start).foldl
        (fun positions (variant, row) => positions.insertIfNew variant.key row) positions)[key]? =
      positions[key]?.or
        ((rows.findIdx? fun variant => variant.key = key).map (start + ·)) := by
  induction rows generalizing start positions with
  | nil => simp
  | cons variant rest ih =>
      rw [List.zipIdx_cons, List.foldl_cons, ih, List.findIdx?_cons,
        Std.HashMap.getElem?_insertIfNew]
      by_cases same : variant.key = key
      · subst same
        -- An earlier row with this key keeps its place in the map.
        cases known : positions[variant.key]? with
        | none =>
            have absent : variant.key ∉ positions := by
              simp [Std.HashMap.mem_iff_isSome_getElem?, known]
            simp [absent]
        | some row =>
            have present : variant.key ∈ positions := by
              simp [Std.HashMap.mem_iff_isSome_getElem?, known]
            simp [present]
      · simp [same, Function.comp_def, Nat.add_assoc, Nat.add_comm 1]

/-- The map of first positions gives each key the first row with this key. -/
theorem getElem?_firstPositions (rows : List Variant) (key : VariantKey) :
    (firstPositions rows)[key]? = rows.findIdx? fun variant => variant.key = key := by
  rw [firstPositions, getElem?_foldl_insertIfNew]
  simp

theorem lt_length_of_getElem?_firstPositions {rows : List Variant} {key : VariantKey} {row : Nat}
    (found : (firstPositions rows)[key]? = some row) : row < rows.length := by
  rw [getElem?_firstPositions] at found
  exact (List.findIdx?_eq_some_iff_getElem.mp found).1

theorem Variant.link?_eq_some_iff {positions : Std.HashMap VariantKey Nat} {variant : Variant}
    {link : Link} :
    variant.link? positions = some link ↔
      ∃ key, variant.linkTarget? = some (link.context, key) ∧ positions[key]? = some link.row := by
  unfold Variant.link?
  cases variant.linkTarget? with
  | none => simp
  | some target =>
      obtain ⟨context, key⟩ := target
      obtain ⟨linkContext, linkRow⟩ := link
      simp only [Option.map_eq_some_iff, Option.some.injEq, Prod.mk.injEq, Link.mk.injEq]
      constructor
      · rintro ⟨row, found, contextEq, rfl⟩
        exact ⟨key, ⟨contextEq, rfl⟩, found⟩
      · rintro ⟨_, ⟨contextEq, rfl⟩, found⟩
        exact ⟨linkRow, found, contextEq, rfl⟩

private theorem linksFrom_eq {positions : Std.HashMap VariantKey Nat} {rows : Nat}
    (inside : ∀ (key : VariantKey) (row : Nat), positions[key]? = some row → row < rows)
    (start : Nat) (variants : List Variant) :
    linksFrom positions rows start variants = .ok (variants.map (Variant.link? positions)) := by
  induction variants generalizing start with
  | nil => rfl
  | cons variant rest ih =>
      rw [linksFrom, ih, List.map_cons]
      cases linkEq : variant.link? positions with
      | none => rfl
      | some link =>
          obtain ⟨key, _, found⟩ := Variant.link?_eq_some_iff.mp linkEq
          simp only [if_pos (inside key link.row found)]
          rfl

theorem rowLinks_eq_ok {rows : List Variant} (fits : rows.length ≤ Link.rowLimit) :
    rowLinks rows = .ok (rows.map (Variant.link? (firstPositions rows))) := by
  rw [rowLinks, if_neg (by omega)]
  exact linksFrom_eq (fun _ _ => lt_length_of_getElem?_firstPositions) 0 rows

theorem rowLinks_eq_error {rows : List Variant} (tooMany : Link.rowLimit < rows.length) :
    rowLinks rows = .error (.tooManyRows rows.length Link.rowLimit) := by
  rw [rowLinks, if_pos tooMany]

end OpcodeTable
