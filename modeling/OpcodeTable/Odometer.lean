import OpcodeTable.Choices

/-!
# Odometers

An odometer shows, one after the other, all ways to choose one value from each of several lists. It has a
wheel for each list. To go on it turns the last wheel; a wheel that has shown its last value starts again
and the wheel in front of it turns. The odometer ends when all wheels start again, or earlier if it may
only show a limited number of choices.
-/

namespace OpcodeTable

variable {α : Type}

/-- A list of values, one of which is shown. -/
structure Wheel (α : Type) where
  values : List α
  index : Fin values.length

namespace Wheel

def shown (wheel : Wheel α) : α :=
  wheel.values.get wheel.index

/-- The wheel that shows the first value of a list. -/
def first? : List α → Option (Wheel α)
  | [] => none
  | value :: rest => some ⟨value :: rest, ⟨0, Nat.zero_lt_succ rest.length⟩⟩

/-- The wheel with its next value shown, if there is one. -/
def turn? (wheel : Wheel α) : Option (Wheel α) :=
  if inside : wheel.index + 1 < wheel.values.length then
    some ⟨wheel.values, ⟨wheel.index + 1, inside⟩⟩
  else
    none

def restart (wheel : Wheel α) : Wheel α :=
  ⟨wheel.values, ⟨0, Nat.zero_lt_of_lt wheel.index.isLt⟩⟩

/-- Turn the last wheel, and each wheel behind which all start again. The mark tells that all wheels
start again. -/
def turnAll : List (Wheel α) → Bool × List (Wheel α)
  | [] => (true, [])
  | wheel :: rest =>
      match turnAll rest with
      | (false, rest) => (false, wheel :: rest)
      | (true, rest) =>
          match wheel.turn? with
          | some wheel => (false, wheel :: rest)
          | none => (true, wheel.restart :: rest)

/-- The choices that wheels have to show, from the present one to the last. -/
def ahead : List (Wheel α) → List (List α)
  | [] => [[]]
  | wheel :: rest =>
      (ahead rest).map (wheel.shown :: ·) ++
        (wheel.values.drop (wheel.index + 1)).flatMap fun value =>
          (choices (rest.map values)).map (value :: ·)

private theorem drop_index (wheel : Wheel α) :
    wheel.values.drop wheel.index = wheel.shown :: wheel.values.drop (wheel.index + 1) :=
  List.drop_eq_getElem_cons wheel.index.isLt

/-- What becomes of a wheel depends on whether all wheels behind it start again. -/
theorem turnAll_cons_cases (wheel : Wheel α) (rest : List (Wheel α)) :
    ∃ turned,
      (turnAll rest = (false, turned) ∧ turnAll (wheel :: rest) = (false, wheel :: turned)) ∨
      turnAll rest = (true, turned) ∧
        ((∃ inside : wheel.index + 1 < wheel.values.length,
            turnAll (wheel :: rest) = (false, ⟨wheel.values, ⟨wheel.index + 1, inside⟩⟩ :: turned)) ∨
          wheel.values.drop (wheel.index + 1) = [] ∧
            turnAll (wheel :: rest) = (true, wheel.restart :: turned)) := by
  rw [turnAll]
  rcases turnAll rest with ⟨restarted, turned⟩
  refine ⟨turned, ?_⟩
  cases restarted with
  | false => exact .inl ⟨rfl, rfl⟩
  | true =>
      refine .inr ⟨rfl, ?_⟩
      by_cases inside : wheel.index + 1 < wheel.values.length
      · have next : wheel.turn? = some ⟨wheel.values, ⟨wheel.index + 1, inside⟩⟩ := dif_pos inside
        exact .inl ⟨inside, by rw [next]⟩
      · have last : wheel.turn? = none := dif_neg inside
        exact .inr ⟨List.drop_eq_nil_of_le (Nat.not_lt.mp inside), by rw [last]⟩

theorem values_turnAll (wheels : List (Wheel α)) :
    (turnAll wheels).2.map values = wheels.map values := by
  induction wheels with
  | nil => rfl
  | cons wheel rest ih =>
      obtain ⟨turned, ⟨restStep, step⟩ | ⟨restStep, ⟨inside, step⟩ | ⟨-, step⟩⟩⟩ :=
        turnAll_cons_cases wheel rest
      all_goals
        rw [restStep] at ih
        simp [step, ih, restart]

variable {wheels turned : List (Wheel α)}

/-- Wheels that all start again have shown their last choice, and have all choices ahead. -/
theorem ahead_of_restarted (step : turnAll wheels = (true, turned)) :
    ahead wheels = [wheels.map shown] ∧ ahead turned = choices (wheels.map values) := by
  induction wheels generalizing turned with
  | nil =>
      obtain ⟨-, rfl⟩ := Prod.mk.inj step
      exact ⟨rfl, rfl⟩
  | cons wheel rest ih =>
      obtain ⟨restTurned, ⟨-, turn⟩ | ⟨restStep, ⟨_, turn⟩ | ⟨noMore, turn⟩⟩⟩ :=
        turnAll_cons_cases wheel rest
      · cases turn.symm.trans step
      · cases turn.symm.trans step
      · obtain ⟨-, rfl⟩ := Prod.mk.inj (turn.symm.trans step)
        obtain ⟨restLast, restFirst⟩ := ih restStep
        have restValues := values_turnAll rest
        rw [restStep] at restValues
        have allValues : wheel.values = wheel.restart.shown :: wheel.values.drop 1 :=
          drop_index wheel.restart
        constructor
        · simp [ahead, restLast, noMore]
        · rw [ahead, restFirst, restValues, List.map_cons, choices, allValues, List.flatMap_cons]
          rfl

/-- Wheels that do not all start again go on to the next choice of those ahead. -/
theorem ahead_of_turned (step : turnAll wheels = (false, turned)) :
    ahead wheels = wheels.map shown :: ahead turned := by
  induction wheels generalizing turned with
  | nil => cases step
  | cons wheel rest ih =>
      have restValues := values_turnAll rest
      obtain ⟨restTurned, ⟨restStep, turn⟩ | ⟨restStep, ⟨inside, turn⟩ | ⟨-, turn⟩⟩⟩ :=
        turnAll_cons_cases wheel rest
      · obtain ⟨-, rfl⟩ := Prod.mk.inj (turn.symm.trans step)
        rw [restStep] at restValues
        simp [ahead, ih restStep, restValues]
      · obtain ⟨-, rfl⟩ := Prod.mk.inj (turn.symm.trans step)
        rw [restStep] at restValues
        obtain ⟨restLast, restFirst⟩ := ahead_of_restarted restStep
        have later := drop_index ⟨wheel.values, ⟨wheel.index + 1, inside⟩⟩
        simp only at later
        simp [ahead, restLast, restFirst, restValues, later]
      · cases turn.symm.trans step

end Wheel

/-- Wheels, with the number of choices that may still be shown, if it is limited. -/
structure Odometer (α : Type) where
  wheels : List (Wheel α)
  remaining : Option Nat
  done : Bool

namespace Odometer

/-- An odometer at the first choice. There is none if some list is empty. -/
def start (lists : List (List α)) (limit : Option Nat) : Odometer α where
  wheels := lists.filterMap Wheel.first?
  remaining := limit
  done := lists.any List.isEmpty || limit == some 0

/-- The choice that is shown, and the odometer at the next one. -/
def next? (odometer : Odometer α) : Option (List α × Odometer α) :=
  if odometer.done then
    none
  else
    let (restarted, wheels) := Wheel.turnAll odometer.wheels
    let remaining := odometer.remaining.map (· - 1)
    some (odometer.wheels.map Wheel.shown, ⟨wheels, remaining, restarted || remaining == some 0⟩)

/-- The choices that are left if their number is not limited. -/
def ahead (odometer : Odometer α) : List (List α) :=
  if odometer.done then [] else Wheel.ahead odometer.wheels

variable {odometer next : Odometer α} {values : List α}

theorem next?_eq_none_iff : odometer.next? = none ↔ odometer.done = true := by
  rw [next?]
  split <;> simp_all

/-- What an odometer that shows a choice goes on with. -/
theorem of_next? (step : odometer.next? = some (values, next)) :
    odometer.done = false ∧ values = odometer.wheels.map Wheel.shown ∧
      ∃ restarted turned, Wheel.turnAll odometer.wheels = (restarted, turned) ∧
        next = ⟨turned, odometer.remaining.map (· - 1),
          restarted || odometer.remaining.map (· - 1) == some 0⟩ := by
  cases running : odometer.done with
  | true => simp [next?, running] at step
  | false =>
      rw [next?, running] at step
      obtain ⟨rfl, rfl⟩ := Prod.mk.inj (Option.some.inj step)
      exact ⟨rfl, rfl, _, _, rfl, rfl⟩

theorem length_ahead_of_next? (step : odometer.next? = some (values, next)) :
    next.ahead.length < odometer.ahead.length := by
  obtain ⟨running, -, restarted, turned, turn, rfl⟩ := of_next? step
  cases restarted with
  | true => simp [ahead, running, Wheel.ahead_of_restarted turn]
  | false =>
      simp only [ahead, running, Wheel.ahead_of_turned turn]
      split <;> simp

/-- All choices that are shown, behind earlier ones, the last of which comes first. -/
def runBehind (earlier : List (List α)) (odometer : Odometer α) : List (List α) :=
  match _step : odometer.next? with
  | none => earlier.reverse
  | some (values, next) => next.runBehind (values :: earlier)
termination_by odometer.ahead.length
decreasing_by exact length_ahead_of_next? _step

/-- All choices that are shown, in order. -/
def run (odometer : Odometer α) : List (List α) :=
  odometer.runBehind []

end Odometer

end OpcodeTable
