import Mathlib.Data.List.MinMax
import OpcodeTable.Proofs.Choices
import OpcodeTable.Variant.Selection

/-!
# What a selection holds

After any offers a selection has one variant for each key that was offered, in the order of the first
offers. The variant of a key is the first of the smallest that were offered for it, and the hash map of
the selection says where it stands. Each offer preserves this, so it holds after all offers.
-/

namespace OpcodeTable

/-- The first of the smallest elements: all before it are larger and none behind it is smaller. -/
theorem exists_append_of_argmin {Element : Type*} {measure : Element → Nat} {elements : List Element}
    {smallest : Element} (found : elements.argmin measure = some smallest) :
    ∃ before after, elements = before ++ smallest :: after ∧
      (∀ element ∈ before, measure smallest < measure element) ∧
      ∀ element ∈ after, measure smallest ≤ measure element := by
  induction elements using List.reverseRecOn generalizing smallest with
  | nil => cases found
  | append_singleton elements last ih =>
      rw [List.argmin_concat] at found
      cases earlier : elements.argmin measure with
      | none =>
          rw [earlier] at found
          cases found
          refine ⟨[], [], ?_, by simp, by simp⟩
          simp [List.argmin_eq_none.mp earlier]
      | some current =>
          rw [earlier] at found
          obtain ⟨before, after, elementsEq, beforeLarger, afterNotSmaller⟩ := ih earlier
          simp only at found
          split_ifs at found with smaller
          · cases found
            refine ⟨elements, [], rfl, ?_, by simp⟩
            intro element elementMem
            exact smaller.trans_le (List.le_of_mem_argmin elementMem earlier)
          · cases found
            refine ⟨before, after ++ [last], by simp [elementsEq], beforeLarger, ?_⟩
            intro element elementMem
            rcases List.mem_append.mp elementMem with afterMem | lastMem
            · exact afterNotSmaller element afterMem
            · rw [List.mem_singleton.mp lastMem]
              exact not_lt.mp smaller

/-- If the keys are distinct, changing the first variant with a key changes all variants with it. -/
private theorem modify_eq_map {variants : List Variant} {key : VariantKey} {slot : Nat}
    (distinctKeys : (variants.map Variant.key).Nodup)
    (first : (variants.findIdx? fun variant => variant.key = key) = some slot)
    (change : Variant → Variant) :
    variants.modify slot change =
      variants.map fun variant => if variant.key = key then change variant else variant := by
  induction variants generalizing slot with
  | nil => cases first
  | cons variant rest ih =>
      rw [List.map_cons, List.nodup_cons] at distinctKeys
      rw [List.findIdx?_cons] at first
      by_cases same : variant.key = key
      · have slotZero : slot = 0 := by simpa [same, eq_comm] using first
        have restUnchanged :
            rest.map (fun other => if other.key = key then change other else other) = rest := by
          rw [List.map_congr_left (g := id) _, List.map_id]
          intro other otherMem
          have otherNe : other.key ≠ key := by
            intro otherKey
            exact distinctKeys.1 (same.trans otherKey.symm ▸ List.mem_map_of_mem otherMem)
          simp [otherNe]
        simp [slotZero, same, restUnchanged]
      · obtain ⟨restSlot, restFirst, rfl⟩ : ∃ restSlot,
            (rest.findIdx? fun other => other.key = key) = some restSlot ∧ restSlot + 1 = slot := by
          simpa [same] using first
        simp [same, ih distinctKeys.2 restFirst]

namespace Selection

/-- The variant to keep for a key out of a list of offers: the first of the smallest. -/
def best? (offers : List Variant) (key : VariantKey) : Option Variant :=
  (offers.filter fun variant => variant.key = key).argmin Variant.size

/-- A selection holds what it should after a list of offers. -/
structure Holds (selection : Selection) (offers : List Variant) : Prop where
  offered_eq : selection.offered = offers.length
  keys_eq : selection.toList.map Variant.key = distinct (offers.map Variant.key)
  slot_eq : ∀ key,
    selection.slots[key]? = selection.toList.findIdx? fun variant => variant.key = key
  best : ∀ variant ∈ selection.toList, best? offers variant.key = some variant

theorem empty_holds : ({} : Selection).Holds [] where
  offered_eq := rfl
  keys_eq := rfl
  slot_eq := by simp [toList]
  best := by simp [toList]

theorem best?_append_of_ne {offers : List Variant} {key : VariantKey} {variant : Variant}
    (different : variant.key ≠ key) : best? (offers ++ [variant]) key = best? offers key := by
  simp [best?, different]

theorem best?_append_of_eq {offers : List Variant} {current variant : Variant}
    (held : best? offers variant.key = some current) :
    best? (offers ++ [variant]) variant.key = some (smaller current variant) := by
  rw [best?] at held
  have selected :
      (offers ++ [variant]).filter (fun other => other.key = variant.key) =
        offers.filter (fun other => other.key = variant.key) ++ [variant] := by
    simp
  rw [best?, selected, List.argmin_concat, held, smaller]
  by_cases replaces : variant.size < current.size
  · simp [replaces]
  · simp [replaces]

theorem best?_append_of_not_mem {offers : List Variant} {variant : Variant}
    (unoffered : variant.key ∉ offers.map Variant.key) :
    best? (offers ++ [variant]) variant.key = some variant := by
  have noneBefore : offers.filter (fun other => other.key = variant.key) = [] := by
    apply List.filter_eq_nil_iff.mpr
    intro other otherMem sameKey
    have keyEq : other.key = variant.key := of_decide_eq_true sameKey
    exact unoffered (keyEq ▸ List.mem_map_of_mem otherMem)
  simp [best?, noneBefore]

/-- What an offer makes of a variant that is held: a variant with another key stays. -/
def revised (offered current : Variant) : Variant :=
  if current.key = offered.key then smaller current offered else current

theorem key_revised (offered current : Variant) : (revised offered current).key = current.key := by
  by_cases sameKey : current.key = offered.key
  · simp only [revised, smaller, if_pos sameKey]
    split_ifs
    · exact sameKey.symm
    · rfl
  · simp only [revised, if_neg sameKey]

variable {selection : Selection} {offers : List Variant}

theorem Holds.nodup_keys (holds : selection.Holds offers) :
    (selection.toList.map Variant.key).Nodup := by
  rw [holds.keys_eq]
  exact nodup_distinct _

theorem Holds.mem_keys_iff (holds : selection.Holds offers) (key : VariantKey) :
    key ∈ selection.toList.map Variant.key ↔ key ∈ offers.map Variant.key := by
  rw [holds.keys_eq, mem_distinct]

theorem Holds.length_toList_le (holds : selection.Holds offers) :
    selection.toList.length ≤ offers.length := by
  have keysLe := (distinct_sublist (offers.map Variant.key)).length_le
  rw [← holds.keys_eq] at keysLe
  simpa using keysLe

/-- A key has no slot exactly if it was never offered. -/
theorem Holds.slot_eq_none_iff (holds : selection.Holds offers) (key : VariantKey) :
    selection.slots[key]? = none ↔ key ∉ offers.map Variant.key := by
  rw [holds.slot_eq, List.findIdx?_eq_none_iff, ← holds.mem_keys_iff]
  simp

theorem Holds.exists_variant_of_slot (holds : selection.Holds offers) {key : VariantKey} {slot : Nat}
    (found : selection.slots[key]? = some slot) :
    ∃ variant, selection.variants[slot]? = some variant ∧ variant.key = key := by
  rw [holds.slot_eq, List.findIdx?_eq_some_iff_getElem] at found
  obtain ⟨inBounds, keyEq, -⟩ := found
  refine ⟨selection.toList[slot], ?_, by simpa using keyEq⟩
  rw [← Array.getElem?_toList]
  exact List.getElem?_eq_getElem inBounds

theorem Holds.key_eq_of_slot_eq (holds : selection.Holds offers) {key other : VariantKey} {slot : Nat}
    (found : selection.slots[key]? = some slot) (otherFound : selection.slots[other]? = some slot) :
    key = other := by
  obtain ⟨variant, atSlot, rfl⟩ := holds.exists_variant_of_slot found
  obtain ⟨again, atSlotAgain, rfl⟩ := holds.exists_variant_of_slot otherFound
  rw [Option.some.inj (atSlot.symm.trans atSlotAgain)]

/-- Slots ascend with the positions of the first offers. -/
theorem Holds.idxOf_lt_idxOf (holds : selection.Holds offers) {key other : VariantKey}
    {slot otherSlot : Nat} (found : selection.slots[key]? = some slot)
    (otherFound : selection.slots[other]? = some otherSlot) (before : slot < otherSlot) :
    (offers.map Variant.key).idxOf key < (offers.map Variant.key).idxOf other := by
  have keyAt {key : VariantKey} {slot : Nat} (found : selection.slots[key]? = some slot) :
      (distinct (offers.map Variant.key))[slot]? = some key := by
    obtain ⟨variant, atSlot, rfl⟩ := holds.exists_variant_of_slot found
    rw [← holds.keys_eq, List.getElem?_map, toList, Array.getElem?_toList, atSlot]
    rfl
  obtain ⟨inBounds, keyEq⟩ := List.getElem?_eq_some_iff.mp (keyAt found)
  obtain ⟨otherInBounds, otherEq⟩ := List.getElem?_eq_some_iff.mp (keyAt otherFound)
  have ascending := List.pairwise_iff_getElem.mp (pairwise_idxOf_distinct (offers.map Variant.key))
    slot otherSlot inBounds otherInBounds before
  rwa [keyEq, otherEq] at ascending

theorem Holds.slot_lt_iff (holds : selection.Holds offers) {key other : VariantKey}
    {slot otherSlot : Nat} (found : selection.slots[key]? = some slot)
    (otherFound : selection.slots[other]? = some otherSlot) :
    slot < otherSlot ↔
      (offers.map Variant.key).idxOf key < (offers.map Variant.key).idxOf other := by
  refine ⟨holds.idxOf_lt_idxOf found otherFound, fun offeredBefore => ?_⟩
  rcases Nat.lt_trichotomy slot otherSlot with before | same | behind
  · exact before
  · subst same
    rw [holds.key_eq_of_slot_eq found otherFound] at offeredBefore
    exact absurd offeredBefore (Nat.lt_irrefl _)
  · exact absurd offeredBefore (holds.idxOf_lt_idxOf otherFound found behind).asymm

/-- What is held for a key is the first of the smallest variants that were offered for it. -/
theorem Holds.exists_first_smallest (holds : selection.Holds offers) {variant : Variant}
    (held : variant ∈ selection.toList) :
    ∃ before after, offers = before ++ variant :: after ∧
      (∀ other ∈ before, other.key = variant.key → variant.size < other.size) ∧
      ∀ other ∈ after, other.key = variant.key → variant.size ≤ other.size := by
  obtain ⟨before, after, sameKey, beforeLarger, afterNotSmaller⟩ :=
    exists_append_of_argmin (holds.best variant held)
  -- The variants with this key are cut at the one that is held, and all offers with them.
  obtain ⟨front, back, rfl, frontEq, backEq⟩ := List.filter_eq_append_iff.mp sameKey
  obtain ⟨skipped, rest, rfl, noneSkipped, -, restEq⟩ := List.filter_eq_cons_iff.mp backEq
  refine ⟨front ++ skipped, rest, by simp, ?_, ?_⟩
  · intro other otherMem keyEq
    rcases List.mem_append.mp otherMem with inFront | inSkipped
    · apply beforeLarger other
      rw [← frontEq]
      exact List.mem_filter.mpr ⟨inFront, decide_eq_true keyEq⟩
    · exact absurd (decide_eq_true keyEq) (noneSkipped other inSkipped)
  · intro other otherMem keyEq
    apply afterNotSmaller other
    rw [← restEq]
    exact List.mem_filter.mpr ⟨otherMem, decide_eq_true keyEq⟩

private theorem offer_holds_of_new (holds : selection.Holds offers) {variant : Variant}
    (absent : selection.slots[variant.key]? = none) :
    (selection.offer variant).Holds (offers ++ [variant]) := by
  have unoffered := (holds.slot_eq_none_iff variant.key).mp absent
  have toListEq : (selection.offer variant).toList = selection.toList ++ [variant] := by
    simp [offer, absent, toList]
  have slotsEq : (selection.offer variant).slots =
      selection.slots.insert variant.key selection.toList.length := by
    simp [offer, absent, toList]
  constructor
  · simp [offer, absent, holds.offered_eq]
  · rw [toListEq, List.map_append, List.map_singleton, holds.keys_eq, List.map_append,
      List.map_singleton, distinct_append_singleton, if_neg unoffered]
  · intro key
    rw [slotsEq, toListEq, Std.HashMap.getElem?_insert, List.findIdx?_append, ← holds.slot_eq]
    by_cases same : variant.key = key
    · subst same
      simp [absent]
    · simp [same]
  · intro kept keptMem
    rw [toListEq] at keptMem
    rcases List.mem_append.mp keptMem with earlier | added
    · have different : variant.key ≠ kept.key := by
        intro sameKey
        have keptOffered := (holds.mem_keys_iff kept.key).mp (List.mem_map_of_mem earlier)
        exact unoffered (sameKey ▸ keptOffered)
      rw [best?_append_of_ne different]
      exact holds.best kept earlier
    · rw [List.mem_singleton.mp added]
      exact best?_append_of_not_mem unoffered

private theorem offer_holds_of_known (holds : selection.Holds offers) {variant : Variant}
    {slot : Nat} (known : selection.slots[variant.key]? = some slot) :
    (selection.offer variant).Holds (offers ++ [variant]) := by
  have offeredBefore : variant.key ∈ offers.map Variant.key := by
    by_contra unoffered
    rw [(holds.slot_eq_none_iff variant.key).mpr unoffered] at known
    cases known
  have slotsEq : (selection.offer variant).slots = selection.slots := by
    simp [offer, known]
  have toListEq : (selection.offer variant).toList = selection.toList.map (revised variant) := by
    have first := (holds.slot_eq variant.key).symm.trans known
    simp only [offer, known, toList, Array.toList_modify]
    exact modify_eq_map holds.nodup_keys first fun current => smaller current variant
  constructor
  · simp [offer, known, holds.offered_eq]
  · rw [toListEq, List.map_map, List.map_append, List.map_singleton, distinct_append_singleton,
      if_pos offeredBefore, ← holds.keys_eq]
    exact List.map_congr_left fun current _ => key_revised variant current
  · intro key
    rw [slotsEq, toListEq, holds.slot_eq, List.findIdx?_map]
    simp only [Function.comp_def, key_revised]
  · intro kept keptMem
    rw [toListEq] at keptMem
    obtain ⟨current, currentMem, rfl⟩ := List.mem_map.mp keptMem
    have currentBest := holds.best current currentMem
    rw [key_revised]
    by_cases sameKey : current.key = variant.key
    · simp only [revised, if_pos sameKey]
      rw [sameKey] at currentBest ⊢
      exact best?_append_of_eq currentBest
    · simp only [revised, if_neg sameKey]
      rw [best?_append_of_ne (Ne.symm sameKey)]
      exact currentBest

/-- One offer turns what a selection holds for some offers into what it holds with one more. -/
theorem offer_holds (holds : selection.Holds offers) (variant : Variant) :
    (selection.offer variant).Holds (offers ++ [variant]) := by
  cases known : selection.slots[variant.key]? with
  | none => exact offer_holds_of_new holds known
  | some slot => exact offer_holds_of_known holds known

theorem offerAll_holds_append (holds : selection.Holds offers) (variants : List Variant) :
    (selection.offerAll variants).Holds (offers ++ variants) := by
  induction variants generalizing selection offers with
  | nil => simpa [offerAll] using holds
  | cons variant rest ih =>
      have step := ih (offer_holds holds variant)
      simpa [offerAll] using step

/-- After any list of offers, a selection holds the first of the smallest variants of each key. -/
theorem offerAll_holds (variants : List Variant) :
    (({} : Selection).offerAll variants).Holds variants := by
  simpa using offerAll_holds_append empty_holds variants

/-- After any list of offers the keys that have a slot are those that were offered. A slot holds a variant
of its key, which is the first of the smallest that were offered for it. No two keys share a slot, and
slots ascend with the first offers of their keys. So the variants in the end are one for each key, in the
order of the first offers. -/
theorem offerAll_represents (offers : List Variant) :
    let selection := ({} : Selection).offerAll offers
    let keys := offers.map Variant.key
    selection.offered = offers.length ∧
    (∀ key, key ∈ selection.slots ↔ key ∈ keys) ∧
    (∀ (key : VariantKey) (slot : Nat), selection.slots[key]? = some slot → slot < selection.size ∧
      ∃ variant, selection.variants[slot]? = some variant ∧ variant.key = key ∧
        ∃ before after, offers = before ++ variant :: after ∧
          (∀ other ∈ before, other.key = key → variant.size < other.size) ∧
          ∀ other ∈ after, other.key = key → variant.size ≤ other.size) ∧
    (∀ (key other : VariantKey) (slot : Nat), selection.slots[key]? = some slot →
      selection.slots[other]? = some slot → key = other) ∧
    (∀ (key other : VariantKey) (slot otherSlot : Nat), selection.slots[key]? = some slot →
      selection.slots[other]? = some otherSlot →
        (slot < otherSlot ↔ keys.idxOf key < keys.idxOf other)) ∧
    (∀ key, key ∈ selection.toList.map Variant.key ↔ key ∈ keys) ∧
    (selection.toList.map Variant.key).Pairwise fun left right =>
      keys.idxOf left < keys.idxOf right := by
  intro selection keys
  have holds : selection.Holds offers := offerAll_holds offers
  refine ⟨holds.offered_eq, ?_, ?_, fun _ _ _ => holds.key_eq_of_slot_eq,
    fun _ _ _ _ => holds.slot_lt_iff, holds.mem_keys_iff, ?_⟩
  · intro key
    rw [Std.HashMap.mem_iff_isSome_getElem?, ← Option.ne_none_iff_isSome, Ne, holds.slot_eq_none_iff]
    exact not_not
  · intro key slot found
    obtain ⟨variant, atSlot, rfl⟩ := holds.exists_variant_of_slot found
    have held : variant ∈ selection.toList := Array.mem_toList_iff.mpr (Array.mem_of_getElem? atSlot)
    exact ⟨(Array.getElem?_eq_some_iff.mp atSlot).1, variant, atSlot, rfl,
      holds.exists_first_smallest held⟩
  · rw [holds.keys_eq]
    exact pairwise_idxOf_distinct keys

end Selection

end OpcodeTable
