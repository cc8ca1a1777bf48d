import OpcodeTable.FileTree
import OpcodeTable.Proofs.Text.Pieces

/-!
# Nodes and paths of a file tree

What an operation does to a tree is said by the node that it leaves at every path. Where the names of a
text lead to is fixed by the names alone; the tree only decides whether the way there is open. Directories
are made along the whole way, and nothing else changes then.
-/

namespace OpcodeTable.FileTree

variable {tree : FileTree} {path other : Path}

private theorem lookup_filter_key (keep : Path → Bool) (nodes : List (Path × FileNode)) (path : Path) :
    (nodes.filter fun entry => keep entry.1).lookup path =
      if keep path then nodes.lookup path else none := by
  induction nodes with
  | nil => simp
  | cons entry rest ih =>
      obtain ⟨key, node⟩ := entry
      by_cases same : path = key
      · subst same
        by_cases kept : keep path
        · simp [kept]
        · simpa [kept] using ih
      · have different : (path == key) = false := beq_false_of_ne same
        by_cases kept : keep key
        · simpa [kept, List.lookup_cons, different] using ih
        · simpa [kept, List.lookup_cons, different] using ih

@[simp]
theorem node?_nil : tree.node? [] = some .directory := rfl

theorem node?_put_self (node : FileNode) (inside : path ≠ []) :
    (tree.put path node).node? path = some node := by
  simp [node?, put, inside]

theorem node?_put_of_ne (node : FileNode) (elsewhere : other ≠ path) :
    (tree.put path node).node? other = tree.node? other := by
  have kept := lookup_filter_key (fun entry => decide (entry ≠ path)) tree.nodes other
  have different : (other == path) = false := beq_false_of_ne elsewhere
  rw [decide_eq_true elsewhere, if_pos rfl] at kept
  simp only [node?, put, List.lookup_cons, different, kept]

theorem node?_remove_self (inside : path ≠ []) : (tree.remove path).node? path = none := by
  have dropped := lookup_filter_key (fun entry => decide (entry ≠ path)) tree.nodes path
  simpa [node?, remove, inside] using dropped

theorem node?_remove_of_ne (elsewhere : other ≠ path) :
    (tree.remove path).node? other = tree.node? other := by
  have kept := lookup_filter_key (fun entry => decide (entry ≠ path)) tree.nodes other
  rw [decide_eq_true elsewhere, if_pos rfl] at kept
  simp only [node?, remove, kept]

/-- A directory has no names in it exactly if there is nothing at any path right below it. -/
theorem children_eq_nil_iff : tree.children path = [] ↔ ∀ name, tree.node? (path ++ [name]) = none := by
  have node?_below (name : String) : tree.node? (path ++ [name]) = none ↔
      ∀ entry ∈ tree.nodes, entry.1 ≠ path ++ [name] := by
    have inside : (path ++ [name]).isEmpty = false := by simp
    rw [node?, inside, if_neg Bool.false_ne_true, List.lookup_eq_none_iff]
    simp only [bne_iff_ne, ne_comm]
  simp only [node?_below, children, List.filterMap_eq_nil_iff]
  constructor
  · intro childless name entry entryMem keyEq
    simpa [keyEq] using childless entry entryMem
  · intro nothing entry entryMem
    cases last : entry.1.getLast? with
    | none => rfl
    | some name =>
        have keyEq := List.dropLast_append_getLast? name last
        have elsewhere : entry.1.dropLast ≠ path := by
          intro sameDirectory
          exact nothing name entry entryMem (by rw [← keyEq, sameDirectory])
        simp [elsewhere]

/-! ## Following names -/

/-- Where a name leads from a path. -/
def next (path : Path) (name : String) : Path :=
  if name = "" ∨ name = "." then path
  else if name = ".." then path.dropLast
  else path ++ [name]

/-- Where names lead from a path, if the way is open. -/
def follow : Path → List String → Path
  | path, [] => path
  | path, name :: rest => follow (next path name) rest

/-- The paths on the way that names lead, without the last one. -/
def passed : Path → List String → List Path
  | _, [] => []
  | path, name :: rest => path :: passed (next path name) rest

/-- The paths on the way that names lead, with the last one. -/
def way (path : Path) (names : List String) : List Path :=
  passed path names ++ [follow path names]

theorem way_cons (path : Path) (name : String) (rest : List String) :
    way path (name :: rest) = path :: way (next path name) rest := rfl

theorem follow_append (path : Path) (names later : List String) :
    follow path (names ++ later) = follow (follow path names) later := by
  induction names generalizing path with
  | nil => rfl
  | cons name rest ih => exact ih (next path name)

theorem passed_append_singleton (path : Path) (names : List String) (name : String) :
    passed path (names ++ [name]) = way path names := by
  induction names generalizing path with
  | nil => rfl
  | cons first rest ih => exact congrArg (path :: ·) (ih (next path first))

private theorem walk_cons (path : Path) (name : String) (rest : List String)
    (open_ : tree.node? path = some .directory) :
    tree.walk path (name :: rest) = tree.walk (next path name) rest := by
  rw [walk, open_, next]
  split_ifs <;> rfl

/-- A walk gets through exactly if there are directories all along, and then it ends where the names
lead. -/
theorem walk_eq_ok_iff {names : List String} {target : Path} :
    tree.walk path names = .ok target ↔
      (∀ step ∈ passed path names, tree.node? step = some .directory) ∧ target = follow path names := by
  induction names generalizing path with
  | nil => simp [walk, passed, follow, eq_comm]
  | cons name rest ih =>
      by_cases isOpen : tree.node? path = some .directory
      · rw [walk_cons path name rest isOpen, ih]
        simp [passed, follow, isOpen]
      · have stopped : ∀ target, tree.walk path (name :: rest) ≠ .ok target := by
          intro target walked
          rw [walk] at walked
          split at walked
          · exact isOpen ‹_›
          · cases walked
          · cases walked
        simp [stopped, passed, isOpen]

/-- A directory is at the path, or one can be put there. -/
def Admits (tree : FileTree) (path : Path) : Prop :=
  tree.node? path = none ∨ tree.node? path = some .directory

/-- The tree with a directory at a path where nothing was. -/
private def opened (tree : FileTree) (path : Path) : FileTree :=
  if tree.node? path = none then tree.put path .directory else tree

private theorem node?_opened (admits : tree.Admits path) :
    (tree.opened path).node? other = if other = path then some .directory else tree.node? other := by
  rw [opened]
  rcases admits with vacant | isDirectory
  · have inside : path ≠ [] := by
      rintro rfl
      simp at vacant
    rw [if_pos vacant]
    split_ifs with same
    · rw [same, node?_put_self _ inside]
    · exact node?_put_of_ne _ same
  · rw [if_neg (by simp [isDirectory])]
    split_ifs with same
    · rw [same, isDirectory]
    · rfl

private theorem current_opened : (tree.opened path).current = tree.current := by
  rw [opened]
  split_ifs <;> rfl

private theorem makeAlong_nil_eq (admits : tree.Admits path) :
    tree.makeAlong path [] = .ok (tree.opened path) := by
  rcases admits with vacant | isDirectory
  · simp [makeAlong, opened, vacant]
  · simp [makeAlong, opened, isDirectory]

private theorem makeAlong_cons_eq (admits : tree.Admits path) (name : String) (rest : List String) :
    tree.makeAlong path (name :: rest) = (tree.opened path).makeAlong (next path name) rest := by
  rw [makeAlong, next]
  rcases admits with vacant | isDirectory
  · simp only [vacant, opened, if_true]
    split_ifs <;> rfl
  · simp only [isDirectory, opened, reduceCtorEq, if_false]
    split_ifs <;> rfl

private theorem admits_of_makeAlong {made : FileTree} {names : List String}
    (succeeded : tree.makeAlong path names = .ok made) : tree.Admits path := by
  rw [Admits]
  cases names <;> rw [makeAlong] at succeeded <;> cases node : tree.node? path with
  | none => exact Or.inl rfl
  | some found =>
      cases found with
      | directory => exact Or.inr rfl
      | file content => simp [node] at succeeded
      | sink => simp [node] at succeeded

private theorem admits_opened (admits : tree.Admits path) :
    (tree.opened path).Admits other ↔ tree.Admits other := by
  rw [Admits, Admits, node?_opened admits]
  split_ifs with same
  · subst same
    exact ⟨fun _ => admits, fun _ => Or.inr rfl⟩
  · rfl

theorem exists_makeAlong_iff {names : List String} :
    (∃ made, tree.makeAlong path names = .ok made) ↔ ∀ step ∈ way path names, tree.Admits step := by
  induction names generalizing tree path with
  | nil =>
      constructor
      · rintro ⟨made, succeeded⟩
        simpa [way, passed, follow] using admits_of_makeAlong succeeded
      · intro admits
        exact ⟨_, makeAlong_nil_eq (admits path (by simp [way, passed, follow]))⟩
  | cons name rest ih =>
      by_cases admits : tree.Admits path
      · have stepsAdmit : (∀ step ∈ way (next path name) rest, (tree.opened path).Admits step) ↔
            ∀ step ∈ way path (name :: rest), tree.Admits step := by
          simp only [admits_opened admits]
          simp [way, passed, follow, admits]
        rw [makeAlong_cons_eq admits, ih, stepsAdmit]
      · constructor
        · rintro ⟨made, succeeded⟩
          exact absurd (admits_of_makeAlong succeeded) admits
        · intro allAdmit
          exact absurd (allAdmit path (by simp [way, passed])) admits

theorem current_of_makeAlong {made : FileTree} {names : List String}
    (succeeded : tree.makeAlong path names = .ok made) : made.current = tree.current := by
  induction names generalizing tree path with
  | nil =>
      rw [makeAlong_nil_eq (admits_of_makeAlong succeeded)] at succeeded
      rw [← Except.ok.inj succeeded, current_opened]
  | cons name rest ih =>
      rw [makeAlong_cons_eq (admits_of_makeAlong succeeded)] at succeeded
      rw [ih succeeded, current_opened]

/-- Making directories along the way makes a directory of every path on it and changes nothing else. -/
theorem node?_of_makeAlong {made : FileTree} {names : List String}
    (succeeded : tree.makeAlong path names = .ok made) (other : Path) :
    made.node? other = if other ∈ way path names then some .directory else tree.node? other := by
  induction names generalizing tree path with
  | nil =>
      have admits := admits_of_makeAlong succeeded
      rw [makeAlong_nil_eq admits] at succeeded
      rw [← Except.ok.inj succeeded, node?_opened admits]
      simp [way, passed, follow]
  | cons name rest ih =>
      have admits := admits_of_makeAlong succeeded
      rw [makeAlong_cons_eq admits] at succeeded
      rw [ih succeeded, node?_opened admits]
      rw [way_cons]
      by_cases onWay : other ∈ way (next path name) rest
      · rw [if_pos onWay, if_pos (List.mem_cons_of_mem path onWay)]
      · simp [onWay]

/-! ## Files -/

/-- The content of the file at a path, if there is a file. -/
def file? (tree : FileTree) (path : Path) : Option (List UInt8) :=
  match tree.node? path with
  | some (.file content) => some content
  | _ => none

/-- There is nothing at the path but perhaps a file. -/
def Plain (tree : FileTree) (path : Path) : Prop :=
  tree.node? path = (tree.file? path).map .file

theorem file?_eq_of_node?_eq {left right : FileTree} (same : left.node? path = right.node? path) :
    left.file? path = right.file? path := by
  rw [file?, file?, same]

theorem file?_of_none (vacant : tree.node? path = none) : tree.file? path = none := by
  rw [file?, vacant]

theorem plain_of_none (vacant : tree.node? path = none) : tree.Plain path := by
  rw [Plain, file?_of_none vacant, vacant]
  rfl

theorem Plain.node?_ne_directory (plain : tree.Plain path) : tree.node? path ≠ some .directory := by
  rw [plain]
  cases tree.file? path <;> simp

theorem plain_of_node?_eq {left right : FileTree} (same : left.node? path = right.node? path)
    (plain : right.Plain path) : left.Plain path := by
  rw [Plain, file?_eq_of_node?_eq same, same, plain]

/-! ## Texts -/

/-- Where a text leads to, if the way is open. -/
def target (tree : FileTree) (text : String) : Path :=
  follow (tree.start text) (parts text)

/-- The paths on the way to where a text leads. -/
def wayTo (tree : FileTree) (text : String) : List Path :=
  way (tree.start text) (parts text)

/-- The text leads to a directory. -/
def HasDirectory (tree : FileTree) (text : String) : Prop :=
  ∃ path, tree.resolve text = .ok path ∧ tree.node? path = some .directory

theorem start_eq_of_current_eq {left right : FileTree} (same : left.current = right.current)
    (text : String) : left.start text = right.start text := by
  rw [start, start, same]

theorem target_eq_of_current_eq {left right : FileTree} (same : left.current = right.current)
    (text : String) : left.target text = right.target text := by
  rw [target, target, start_eq_of_current_eq same]

theorem wayTo_eq_of_current_eq {left right : FileTree} (same : left.current = right.current)
    (text : String) : left.wayTo text = right.wayTo text := by
  rw [wayTo, wayTo, start_eq_of_current_eq same]

theorem resolve_eq_ok_iff {text : String} :
    tree.resolve text = .ok path ↔ text ≠ "" ∧
      (∀ step ∈ passed (tree.start text) (parts text), tree.node? step = some .directory) ∧
        path = tree.target text := by
  rw [resolve]
  by_cases empty : text = ""
  · simp [empty]
  · rw [if_neg (by simpa using empty), walk_eq_ok_iff]
    simp [empty, target]

theorem hasDirectory_iff {text : String} :
    tree.HasDirectory text ↔
      text ≠ "" ∧ ∀ step ∈ tree.wayTo text, tree.node? step = some .directory := by
  simp only [HasDirectory, resolve_eq_ok_iff, wayTo, way]
  constructor
  · rintro ⟨path, ⟨nonempty, isOpen, rfl⟩, last⟩
    refine ⟨nonempty, fun step stepMem => ?_⟩
    rcases List.mem_append.mp stepMem with onWay | atEnd
    · exact isOpen step onWay
    · rw [List.mem_singleton.mp atEnd]
      exact last
  · rintro ⟨nonempty, isOpen⟩
    refine ⟨tree.target text, ⟨nonempty, ?_, rfl⟩, ?_⟩
    · intro step stepMem
      exact isOpen step (List.mem_append_left _ stepMem)
    · exact isOpen _ (List.mem_append_right _ List.mem_cons_self)

theorem parts_ne_nil (text : String) : parts text ≠ [] := by
  rw [parts, Text.pieces_eq_splitOnP, Ne, List.map_eq_nil_iff]
  exact List.splitOnP_ne_nil _ _

theorem resolveTarget_eq_ok {text : String} (reached : tree.resolve text = .ok path)
    (unmarked : text.toList.getLast? ≠ some '/') : tree.resolveTarget text = .ok path := by
  obtain ⟨nonempty, isOpen, -⟩ := resolve_eq_ok_iff.mp reached
  obtain ⟨names, last, partsEq⟩ : ∃ names last, parts text = names ++ [last] :=
    ⟨_, _, (List.dropLast_append_getLast (parts_ne_nil text)).symm⟩
  rw [partsEq, passed_append_singleton] at isOpen
  have walked : tree.walk (tree.start text) names = .ok (follow (tree.start text) names) :=
    walk_eq_ok_iff.mpr ⟨fun step stepMem => isOpen step (List.mem_append_left _ stepMem), rfl⟩
  rw [resolveTarget, partsEq, List.dropLast_concat, walked]
  simp only [if_neg unmarked, reached]

theorem write_eq_ok {text : String} (reached : tree.resolve text = .ok path)
    (unmarked : text.toList.getLast? ≠ some '/') (plain : tree.Plain path) (content : List UInt8) :
    tree.write text content = .ok (tree.put path (.file content)) := by
  have node : tree.node? path = (tree.file? path).map .file := plain
  rw [write, resolveTarget_eq_ok reached unmarked]
  simp only [writeAt, node]
  cases tree.file? path with
  | none => rfl
  | some before => rfl

theorem read_eq {text : String} (reached : tree.resolve text = .ok path) (plain : tree.Plain path) :
    tree.read text = (tree.file? path).elim (.error .notFound) .ok := by
  have node : tree.node? path = (tree.file? path).map .file := plain
  rw [read, reached]
  simp only [node]
  cases tree.file? path with
  | none => rfl
  | some content => rfl

/-- A file that is taken away leaves nothing behind; anything else stays. -/
theorem node?_removeFile (text : String) (other : Path) :
    (tree.removeFile text).node? other =
      if tree.resolve text = .ok other ∧ (tree.file? other).isSome then none else tree.node? other := by
  rw [removeFile]
  cases resolved : tree.resolve text with
  | error error => simp
  | ok path =>
      by_cases same : path = other
      · subst same
        cases node : tree.node? path with
        | none => simp [node]
        | some found =>
            cases found with
            | directory => simp [file?, node]
            | sink => simp [file?, node]
            | file content =>
                have inside : path ≠ [] := by
                  rintro rfl
                  simp at node
                simp [file?, node, node?_remove_self inside]
      · have unchanged : (tree.remove path).node? other = tree.node? other :=
          node?_remove_of_ne (Ne.symm same)
        simp only [Except.ok.injEq, same, false_and, if_false]
        split
        · exact unchanged
        · rfl

theorem current_removeFile (text : String) : (tree.removeFile text).current = tree.current := by
  rw [removeFile]
  split
  · rfl
  · split <;> rfl

end OpcodeTable.FileTree
