import Mathlib.Data.List.Sort
import OpcodeTable.Proofs.Order.Bytes
import OpcodeTable.Report

/-!
# The words of a report

A report has the words that name no type in ascending order, each of them once. An ascending list is
determined by its members, so the order in which words were reported leaves no trace.
-/

namespace OpcodeTable

namespace Text

theorem compare_eq_eq_iff {left right : String} : compare left right = .eq ↔ left = right := by
  have compares := compare_compares left right
  rw [compares.eq_eq]
  exact byteValues_injective.eq_iff

/-- Every text of the list comes before all that follow it. -/
def Ascending (texts : List String) : Prop :=
  (texts.map byteValues).Pairwise (· < ·)

theorem mem_insertAscending {text member : String} {texts : List String} :
    member ∈ insertAscending text texts ↔ member = text ∨ member ∈ texts := by
  induction texts with
  | nil => simp [insertAscending]
  | cons other rest ih =>
      unfold insertAscending
      cases order : compare text other with
      | lt => simp
      | eq =>
          have same : text = other := compare_eq_eq_iff.mp order
          simp [same]
      | gt =>
          simp only [List.mem_cons, ih]
          tauto

theorem insertAscending_ascending {texts : List String} (ascending : Ascending texts)
    (text : String) : Ascending (insertAscending text texts) := by
  induction texts with
  | nil => simp [insertAscending, Ascending]
  | cons other rest ih =>
      have otherBefore : ∀ later ∈ rest, byteValues other < byteValues later := by
        simpa using (List.pairwise_cons.mp ascending).1
      have restAscending : Ascending rest := (List.pairwise_cons.mp ascending).2
      have compares := compare_compares text other
      unfold insertAscending
      cases order : compare text other with
      | lt =>
          rw [order] at compares
          apply List.pairwise_cons.mpr
          refine ⟨?_, ascending⟩
          have textBefore : ∀ later ∈ rest, byteValues text < byteValues later := by
            intro later laterMem
            exact lt_trans compares (otherBefore later laterMem)
          simpa using ⟨compares, textBefore⟩
      | eq => exact ascending
      | gt =>
          rw [order] at compares
          apply List.pairwise_cons.mpr
          refine ⟨?_, ih restAscending⟩
          intro value valueMem
          obtain ⟨later, laterMem, rfl⟩ := List.mem_map.mp valueMem
          rcases mem_insertAscending.mp laterMem with rfl | inRest
          · exact compares
          · exact otherBefore later inRest

theorem Ascending.eq_of_mem_iff {left right : List String} (leftAscending : Ascending left)
    (rightAscending : Ascending right) (same : ∀ text, text ∈ left ↔ text ∈ right) :
    left = right := by
  apply List.map_injective_iff.mpr byteValues_injective
  apply List.Pairwise.eq_of_mem_iff leftAscending rightAscending
  intro value
  simp only [List.mem_map, same]

end Text

namespace Report

theorem mem_unknown_addUnknown {report : Report} {words : List String} {member : String} :
    member ∈ (report.addUnknown words).unknown ↔ member ∈ report.unknown ∨ member ∈ words := by
  simp only [addUnknown]
  generalize report.unknown = known
  induction words generalizing known with
  | nil => simp
  | cons word rest ih =>
      rw [List.foldl_cons, ih, Text.mem_insertAscending, List.mem_cons]
      tauto

theorem unknown_addUnknown_ascending {report : Report} (ascending : Text.Ascending report.unknown)
    (words : List String) : Text.Ascending (report.addUnknown words).unknown := by
  simp only [addUnknown]
  generalize report.unknown = known at ascending ⊢
  induction words generalizing known with
  | nil => exact ascending
  | cons word rest ih => exact ih _ (Text.insertAscending_ascending ascending word)

end Report

end OpcodeTable
