import Mathlib.Logic.Relation
import OpcodeTable.Odometer
import OpcodeTable.Proofs.Choices

/-!
# Odometers go through all choices

An odometer shows all choices from its lists in lexicographic order, or the first of them up to its
limit. As long as it shows choices its count of remaining ones is not used up, so that counting down
never meets zero.
-/

namespace OpcodeTable

variable {α : Type}

/-- The first elements up to a limit, or all if there is none. -/
def upTo (limit : Option Nat) (elements : List α) : List α :=
  match limit with
  | none => elements
  | some count => elements.take count

theorem upTo_sublist (limit : Option Nat) (elements : List α) :
    (upTo limit elements).Sublist elements := by
  cases limit with
  | none => exact List.Sublist.refl elements
  | some count => exact List.take_sublist count elements

theorem upTo_nil (limit : Option Nat) : upTo limit ([] : List α) = [] := by
  cases limit <;> simp [upTo]

namespace Wheel

theorem ahead_first {lists : List (List α)} (nonempty : ∀ list ∈ lists, list ≠ []) :
    (lists.filterMap first?).map values = lists ∧ ahead (lists.filterMap first?) = choices lists := by
  induction lists with
  | nil => exact ⟨rfl, rfl⟩
  | cons list rest ih =>
      obtain ⟨restValues, restAhead⟩ :=
        ih fun other otherMem => nonempty other (List.mem_cons_of_mem list otherMem)
      cases list with
      | nil => exact absurd rfl (nonempty [] List.mem_cons_self)
      | cons value later =>
          have first : first? (value :: later) = some ⟨value :: later, 0⟩ := rfl
          rw [List.filterMap_cons_some first]
          constructor
          · simp [restValues]
          · simp [ahead, restAhead, restValues, choices, shown]

end Wheel

namespace Odometer

variable {odometer next : Odometer α} {values : List α}

/-- An odometer that still shows choices may show at least one. -/
def Supplied (odometer : Odometer α) : Prop :=
  odometer.done = false → odometer.remaining ≠ some 0

theorem start_supplied (lists : List (List α)) (limit : Option Nat) :
    (start lists limit).Supplied := by
  intro running
  simp only [start, Bool.or_eq_false_iff, beq_eq_false_iff_ne] at running
  exact running.2

theorem next?_supplied (step : odometer.next? = some (values, next)) : next.Supplied := by
  obtain ⟨-, -, restarted, turned, -, rfl⟩ := of_next? step
  intro running
  simp only [Bool.or_eq_false_iff, beq_eq_false_iff_ne] at running
  exact running.2

theorem upTo_ahead_of_next? (supplied : odometer.Supplied)
    (step : odometer.next? = some (values, next)) :
    upTo odometer.remaining odometer.ahead = values :: upTo next.remaining next.ahead := by
  obtain ⟨running, rfl, restarted, turned, turn, rfl⟩ := of_next? step
  have notUsedUp := supplied running
  cases restarted with
  | true =>
      obtain ⟨last, -⟩ := Wheel.ahead_of_restarted turn
      cases remainingEq : odometer.remaining with
      | none => simp [upTo, ahead, running, last]
      | some count =>
          cases count with
          | zero => exact absurd remainingEq notUsedUp
          | succ count => simp [upTo, ahead, running, last]
  | false =>
      have later := Wheel.ahead_of_turned turn
      cases remainingEq : odometer.remaining with
      | none => simp [upTo, ahead, running, later]
      | some count =>
          cases count with
          | zero => exact absurd remainingEq notUsedUp
          | succ count =>
              -- With the last choice the count is used up, and the odometer is done.
              cases count with
              | zero => simp [upTo, ahead, running, later]
              | succ count => simp [upTo, ahead, running, later]

theorem runBehind_eq (supplied : odometer.Supplied) (earlier : List (List α)) :
    odometer.runBehind earlier = earlier.reverse ++ upTo odometer.remaining odometer.ahead := by
  fun_induction runBehind earlier odometer with
  | case1 earlier odometer step =>
      have done := next?_eq_none_iff.mp step
      rw [ahead, if_pos done, upTo_nil, List.append_nil]
  | case2 earlier odometer values next step ih =>
      rw [ih (next?_supplied step), upTo_ahead_of_next? supplied step]
      simp

/-- An odometer shows the choices from its lists up to its limit. -/
theorem run_start {lists : List (List α)} (nonempty : ∀ list ∈ lists, list ≠ [])
    (limit : Option Nat) : (start lists limit).run = upTo limit (choices lists) := by
  obtain ⟨-, allAhead⟩ := Wheel.ahead_first nonempty
  have noneEmpty : lists.any List.isEmpty = false := by
    apply List.any_eq_false.mpr
    intro list listMem
    simpa using nonempty list listMem
  rw [run, runBehind_eq (start_supplied lists limit), List.reverse_nil, List.nil_append, ahead]
  cases limit with
  | none => simp [start, noneEmpty, allAhead]
  | some count =>
      cases count with
      | zero => simp [start, upTo]
      | succ count => simp [start, noneEmpty, allAhead]

end Odometer

end OpcodeTable
