import OpcodeTable.Operand.Expansion

/-!
# Faults of operand texts

Expansion goes on behind a word that names no type and behind a mask that a type does not take. Every
such fault leaves a word behind, and the first of them also becomes the error, so at any time there is an
error exactly if there are such words. An operand text that expands to tuples therefore has none.
-/

namespace OpcodeTable.Operand

namespace Progress

/-- An error is remembered exactly if words that name no type are. -/
def Consistent (progress : Progress) : Prop :=
  progress.fault = none ↔ progress.unknown = []

variable {progress next : Progress}

theorem empty_consistent : ({} : Progress).Consistent :=
  ⟨fun _ => rfl, fun _ => rfl⟩

theorem note_consistent (consistent : progress.Consistent) (faults : List (String × SyntaxError)) :
    (progress.note faults).Consistent := by
  unfold Consistent note at *
  cases faults with
  | nil => simpa using consistent
  | cons first rest => simp

theorem add_consistent (consistent : progress.Consistent) {item : Item}
    (added : progress.add item = .ok next) : next.Consistent := by
  cases item with
  | operand word =>
      obtain rfl := Except.ok.inj added
      exact note_consistent consistent (wordFaults word)
  | mask masking =>
      cases positionsEq : progress.positions with
      | nil => simp [add, positionsEq] at added
      | cons types earlier =>
          simp only [add, positionsEq, Except.ok.injEq] at added
          obtain rfl := added
          exact note_consistent consistent (maskFaults masking types)

end Progress

private theorem unknown_expandItems_eq_nil {progress : Progress} (consistent : progress.Consistent)
    {items : List Item} {tuples : List (List OperandType)}
    (expanded : (expandItems progress items).result = .ok tuples) :
    (expandItems progress items).unknown = [] := by
  induction items generalizing progress with
  | nil =>
      unfold expandItems at expanded ⊢
      cases faultEq : progress.fault with
      | none => exact consistent.mp faultEq
      | some fault => simp [faultEq] at expanded
  | cons item rest ih =>
      unfold expandItems at expanded ⊢
      cases added : progress.add item with
      | error fault => simp [added] at expanded
      | ok next =>
          rw [added] at expanded
          exact ih (Progress.add_consistent consistent added) expanded

/-- An operand text that expands to tuples has no word that names no type. -/
theorem unknown_expand_eq_nil {text : String} {tuples : List (List OperandType)}
    (expanded : (expand text).result = .ok tuples) : (expand text).unknown = [] := by
  unfold expand at expanded ⊢
  cases read : readItems text.toList with
  | error fault => rfl
  | ok items =>
      rw [read] at expanded
      exact unknown_expandItems_eq_nil Progress.empty_consistent expanded

end OpcodeTable.Operand
