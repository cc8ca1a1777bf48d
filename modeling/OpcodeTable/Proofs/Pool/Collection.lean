import Mathlib.Data.List.Basic
import OpcodeTable.Pool.Run
import OpcodeTable.Proofs.Pool.Worker

/-!
# What the coordinator collects

The messages of the workers arrive in an interleaving that keeps the order of each worker. The
coordinator keeps the first error it receives and, for each worker, the results received last; reports of
progress change nothing.
-/

namespace OpcodeTable

/-- A merge of sequences that keeps the order of each: the next element is the first one left of some
sequence. -/
inductive Interleaving {Element : Type} : List (List Element) → List Element → Prop where
  | done {sequences : List (List Element)} (exhausted : ∀ sequence ∈ sequences, sequence = []) :
      Interleaving sequences []
  | take {sequences : List (List Element)} {position : Nat} {first : Element}
      {rest merged : List Element}
      (next : sequences[position]? = some (first :: rest))
      (later : Interleaving (sequences.set position rest) merged) :
      Interleaving sequences (first :: merged)

private theorem perm_flatten_set {Element : Type} {sequences : List (List Element)}
    {position : Nat} {first : Element} {rest : List Element} (next : sequences[position]? = some (first :: rest)) :
    (first :: (sequences.set position rest).flatten).Perm sequences.flatten := by
  induction sequences generalizing position with
  | nil => simp at next
  | cons sequence others ih =>
      cases position with
      | zero =>
          obtain rfl : sequence = first :: rest := by simpa using next
          simp
      | succ position =>
          have later := ih (by simpa using next)
          rw [List.set_cons_succ, List.flatten_cons, List.flatten_cons]
          exact List.perm_middle.symm.trans (later.append_left sequence)

theorem Interleaving.perm {Element : Type} {sequences : List (List Element)} {merged : List Element}
    (interleaving : Interleaving sequences merged) : merged.Perm sequences.flatten := by
  induction interleaving with
  | done exhausted => rw [List.flatten_eq_nil_iff.mpr exhausted]
  | take next _ ih => exact (ih.cons _).trans (perm_flatten_set next)

/-- The error that a message carries, with the worker that it stopped. -/
def Message.fatal? : Message → Option (Nat × PoolError)
  | .fatal worker error => some (worker, error)
  | _ => none

theorem Message.fatal?_eq_some_iff {message : Message} {worker : Nat} {error : PoolError} :
    message.fatal? = some (worker, error) ↔ message = .fatal worker error := by
  cases message <;> simp [fatal?]

namespace Collection

variable (collection : Collection) (messages : List Message)

theorem foldl_receive_reports :
    (reports messages).foldl receive collection = messages.foldl receive collection := by
  induction messages generalizing collection with
  | nil => rfl
  | cons message rest ih => cases message <;> exact ih _

theorem fatal_foldl_receive :
    (messages.foldl receive collection).fatal =
      collection.fatal.or ((messages.findSome? Message.fatal?).map Prod.snd) := by
  induction messages generalizing collection with
  | nil => simp
  | cons message rest ih =>
      rw [List.foldl_cons, ih]
      cases message with
      | fatal worker error => exact Option.or_assoc
      | progress progress => rfl
      | results worker results => rfl

theorem length_slots_foldl_receive :
    (messages.foldl receive collection).slots.length = collection.slots.length := by
  induction messages generalizing collection with
  | nil => rfl
  | cons message rest ih =>
      rw [List.foldl_cons, ih]
      cases message <;> simp [receive]

variable {collection messages}

/-- The slot of a worker holds the only results that are received from it. -/
theorem slot_foldl_receive {worker : Nat} {results : List TestResult}
    (only : ∀ others, .results worker others ∈ messages → others = results)
    (given : .results worker results ∈ messages ∨ collection.slots[worker]? = some (some results))
    (inside : worker < collection.slots.length) :
    (messages.foldl receive collection).slots[worker]? = some (some results) := by
  -- The slot counts as filled from the moment the results arrive, whatever arrives later.
  induction messages generalizing collection with
  | nil => simpa using given
  | cons message rest ih =>
      rw [List.foldl_cons]
      refine ih (fun others received => only others (List.mem_cons_of_mem _ received)) ?_ ?_
      · cases message with
        | progress progress => simpa [receive] using given
        | fatal number error => simpa [receive] using given
        | results number others =>
            by_cases same : number = worker
            · subst same
              rw [only others List.mem_cons_self]
              exact Or.inr (List.getElem?_set_self inside)
            · rcases given with received | filled
              · exact Or.inl (by simpa [Ne.symm same] using received)
              · exact Or.inr (by simpa [receive, List.getElem?_set_ne same] using filled)
      · exact (length_slots_foldl_receive collection [message]).symm ▸ inside

/-- If results of all workers are received, and no two of one worker, then all slots are filled. -/
theorem slots_foldl_receive {workers : Nat} {lists : List (List TestResult)} {fatal : Option PoolError}
    (lengthEq : lists.length = workers)
    (received : ∀ worker results, .results worker results ∈ messages ↔ lists[worker]? = some results) :
    (messages.foldl receive ⟨List.replicate workers none, fatal⟩).slots = lists.map some := by
  subst lengthEq
  refine List.ext_getElem? fun worker => ?_
  rw [List.getElem?_map]
  cases given : lists[worker]? with
  | some results =>
      have inside : worker < lists.length := (List.getElem?_eq_some_iff.mp given).1
      -- All results received from one worker are the same, so the order of arrival cannot matter.
      have only : ∀ others, .results worker others ∈ messages → others = results := by
        intro others member
        have same := (received worker others).mp member
        exact Option.some.inj (same.symm.trans given)
      exact slot_foldl_receive only (Or.inl ((received worker results).mpr given)) (by simpa using inside)
  | none =>
      have outside : lists.length ≤ worker := List.getElem?_eq_none_iff.mp given
      apply List.getElem?_eq_none
      rw [length_slots_foldl_receive]
      simpa using outside

theorem joinSlots_map_some (start : Nat) (lists : List (List TestResult)) :
    joinSlots start (lists.map some) = .ok lists.flatten := by
  induction lists generalizing start with
  | nil => rfl
  | cons results rest ih => rw [List.map_cons, joinSlots, ih, List.flatten_cons]

end Collection

end OpcodeTable
