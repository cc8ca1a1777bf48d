import Mathlib.Algebra.Group.Nat.Defs
import Mathlib.Data.List.Forall2
import Mathlib.Data.List.Nodup
import OpcodeTable.Choices

/-!
# Choices are a lexicographic product

A choice is named by the position of each of its elements in the list that it was taken from. The choices
from several lists are those of all names, in the lexicographic order of the names. There are as many as
the product of the lengths of the lists, and they are distinct if the lists have no repetitions. Dropping
the repetitions of a list keeps the first occurrence of each element.
-/

namespace OpcodeTable

variable {α : Type}

/-- The tuples take one element from each list in every possible way, in the lexicographic order of the
positions of their elements. -/
def IsLexProduct (lists tuples : List (List α)) : Prop :=
  ∃ places : List (List Nat),
    places.Pairwise (List.Lex (· < ·)) ∧
    (∀ place, place ∈ places ↔
      List.Forall₂ (fun position list => position < list.length) place lists) ∧
    tuples.map (List.map some) =
      places.map fun place => place.zipWith (fun position list => list[position]?) lists

private theorem map_getElem?_range (list : List α) :
    (List.range list.length).map (fun position => list[position]?) = list.map some := by
  apply List.ext_getElem
  · simp
  · intro position inside _
    simp at inside
    simp [inside]

private theorem pairwise_places {places : List (List Nat)}
    (ascending : places.Pairwise (List.Lex (· < ·))) (count : Nat) :
    ((List.range count).flatMap fun position => places.map (position :: ·)).Pairwise
      (List.Lex (· < ·)) := by
  apply List.pairwise_flatMap.mpr
  constructor
  · intro position _
    apply List.pairwise_map.mpr
    exact ascending.imp fun before => List.Lex.cons before
  · apply List.pairwise_lt_range.imp
    intro position later positionLt upper upperMem lower lowerMem
    obtain ⟨upperRest, -, rfl⟩ := List.mem_map.mp upperMem
    obtain ⟨lowerRest, -, rfl⟩ := List.mem_map.mp lowerMem
    exact List.Lex.rel positionLt

/-- All choices from several lists are their lexicographic product. -/
theorem choices_isLexProduct (lists : List (List α)) : IsLexProduct lists (choices lists) := by
  induction lists with
  | nil => exact ⟨[[]], by simp, by simp, rfl⟩
  | cons list rest ih =>
      obtain ⟨places, ascending, within, tuplesEq⟩ := ih
      refine ⟨(List.range list.length).flatMap fun position => places.map (position :: ·),
        pairwise_places ascending list.length, ?_, ?_⟩
      · intro place
        rw [List.forall₂_cons_right_iff]
        simp only [List.mem_flatMap, List.mem_range, List.mem_map, within]
        constructor
        · rintro ⟨position, inside, others, othersWithin, rfl⟩
          exact ⟨position, others, inside, othersWithin, rfl⟩
        · rintro ⟨position, others, inside, othersWithin, rfl⟩
          exact ⟨position, inside, others, othersWithin, rfl⟩
      · -- Both sides put every first element in front of all tuples of the other lists.
        have byElement : (choices (list :: rest)).map (List.map some) =
            (list.map some).flatMap fun first =>
              ((choices rest).map (List.map some)).map (first :: ·) := by
          simp [choices, List.map_flatMap, List.flatMap_map, Function.comp_def]
        rw [byElement, tuplesEq, ← map_getElem?_range]
        simp [List.map_flatMap, List.flatMap_map, Function.comp_def]

theorem mem_choices_iff {lists : List (List α)} {tuple : List α} :
    tuple ∈ choices lists ↔ List.Forall₂ (fun element list => element ∈ list) tuple lists := by
  induction lists generalizing tuple with
  | nil => simp [choices]
  | cons list rest ih =>
      rw [List.forall₂_cons_right_iff]
      simp only [choices, List.mem_flatMap, List.mem_map, ih]
      constructor
      · rintro ⟨first, firstMem, others, othersMem, rfl⟩
        exact ⟨first, others, firstMem, othersMem, rfl⟩
      · rintro ⟨first, others, firstMem, othersMem, rfl⟩
        exact ⟨first, firstMem, others, othersMem, rfl⟩

theorem exists_list_of_mem_choices {lists : List (List α)} {tuple : List α}
    (chosen : tuple ∈ choices lists) {element : α} (elementMem : element ∈ tuple) :
    ∃ list ∈ lists, element ∈ list := by
  rw [mem_choices_iff] at chosen
  induction chosen with
  | nil => cases elementMem
  | @cons first list others rest firstMem _ ih =>
      rcases List.mem_cons.mp elementMem with rfl | inOthers
      · exact ⟨list, List.mem_cons_self, firstMem⟩
      · obtain ⟨found, foundMem, inFound⟩ := ih inOthers
        exact ⟨found, List.mem_cons_of_mem list foundMem, inFound⟩

theorem choiceCount_eq_prod (lists : List (List α)) :
    choiceCount lists = (lists.map List.length).prod := by
  rw [choiceCount, List.prod_eq_foldl]

theorem length_choices (lists : List (List α)) : (choices lists).length = choiceCount lists := by
  rw [choiceCount_eq_prod]
  induction lists with
  | nil => rfl
  | cons list rest ih => simp [choices, List.length_flatMap, ih]

theorem choiceCount_pos {lists : List (List α)} (nonempty : ∀ list ∈ lists, list ≠ []) :
    0 < choiceCount lists := by
  rw [choiceCount_eq_prod]
  induction lists with
  | nil => exact Nat.one_pos
  | cons list rest ih =>
      have listPos : 0 < list.length := List.length_pos_iff.mpr (nonempty list List.mem_cons_self)
      have restPos := ih fun other otherMem => nonempty other (List.mem_cons_of_mem list otherMem)
      exact Nat.mul_pos listPos restPos

theorem nodup_choices {lists : List (List α)} (nodup : ∀ list ∈ lists, list.Nodup) :
    (choices lists).Nodup := by
  induction lists with
  | nil => simp [choices]
  | cons list rest ih =>
      have restNodup := ih fun other otherMem => nodup other (List.mem_cons_of_mem list otherMem)
      apply List.nodup_flatMap.mpr
      constructor
      · intro first _
        exact restNodup.map List.cons_injective
      · apply (nodup list List.mem_cons_self).imp
        intro first second different tuple inFirst inSecond
        obtain ⟨firstRest, -, rfl⟩ := List.mem_map.mp inFirst
        obtain ⟨secondRest, -, same⟩ := List.mem_map.mp inSecond
        exact different (List.cons.inj same).1.symm

section Distinct

variable {Element : Type} [DecidableEq Element]

@[simp]
theorem mem_distinct {element : Element} {elements : List Element} :
    element ∈ distinct elements ↔ element ∈ elements := by
  induction elements with
  | nil => simp [distinct]
  | cons head rest ih =>
      by_cases same : element = head
      · simp [distinct, same]
      · simp [distinct, same, ih]

theorem distinct_sublist (elements : List Element) : (distinct elements).Sublist elements := by
  induction elements with
  | nil => exact List.Sublist.refl []
  | cons head rest ih => exact (List.filter_sublist.trans ih).cons_cons head

theorem nodup_distinct (elements : List Element) : (distinct elements).Nodup := by
  induction elements with
  | nil => exact List.nodup_nil
  | cons head rest ih =>
      rw [distinct, List.nodup_cons]
      exact ⟨by simp, ih.filter _⟩

theorem distinct_append_singleton (elements : List Element) (added : Element) :
    distinct (elements ++ [added]) =
      if added ∈ elements then distinct elements else distinct elements ++ [added] := by
  induction elements with
  | nil => simp [distinct]
  | cons head rest ih =>
      rw [List.cons_append, distinct, ih, distinct]
      by_cases repeated : added ∈ rest
      · simp [repeated]
      · by_cases same : added = head
        · subst same
          simp [repeated]
        · simp [repeated, same]

/-- Elements without repetitions stay in the order in which they first occur. -/
theorem pairwise_idxOf_distinct (elements : List Element) :
    (distinct elements).Pairwise fun left right => elements.idxOf left < elements.idxOf right := by
  induction elements with
  | nil => exact List.Pairwise.nil
  | cons head rest ih =>
      have idxOf_later {other : Element}
          (otherMem : other ∈ (distinct rest).filter (· ≠ head)) :
          (head :: rest).idxOf other = rest.idxOf other + 1 := by
        have different : other ≠ head := by simpa using (List.mem_filter.mp otherMem).2
        exact List.idxOf_cons_ne rest different.symm
      rw [distinct, List.pairwise_cons]
      constructor
      · intro other otherMem
        rw [List.idxOf_cons_self, idxOf_later otherMem]
        exact Nat.succ_pos _
      · apply (ih.filter _).imp_of_mem
        intro left right leftMem rightMem before
        rw [idxOf_later leftMem, idxOf_later rightMem]
        exact Nat.succ_lt_succ before

theorem distinct_eq_self {elements : List Element} (nodup : elements.Nodup) :
    distinct elements = elements := by
  induction elements with
  | nil => rfl
  | cons head rest ih =>
      obtain ⟨headNew, restNodup⟩ := List.nodup_cons.mp nodup
      rw [distinct, ih restNodup, List.filter_eq_self.mpr]
      intro other otherMem
      have different : other ≠ head := by
        rintro rfl
        exact headNew otherMem
      simpa using different

end Distinct

end OpcodeTable
