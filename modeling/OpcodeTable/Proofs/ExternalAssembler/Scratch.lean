import OpcodeTable.ExternalAssembler
import OpcodeTable.Proofs.FileTree
import OpcodeTable.Proofs.Text.Name

/-!
# The files of a worker

A worker has three files in a directory of its own. Where they are in a tree is where the directory leads
to, and one name more. As long as the directory is there and nothing but files is put at their places,
they can be written, read and taken away.
-/

namespace OpcodeTable

/-- The name leads to a path right below the directory that it is used in. -/
structure IsFileName (name : String) : Prop where
  unmarked : '/' ∉ name.toList
  proper : name ∉ ["", ".", ".."]

namespace FileTree

variable {tree : FileTree} {name : String}

theorem next_of_isFileName (isName : IsFileName name) (path : Path) :
    next path name = path ++ [name] := by
  have proper := isName.proper
  simp only [List.mem_cons, List.not_mem_nil, or_false, not_or] at proper
  simp [next, proper]

private theorem follow_append_empty (path : Path) (names : List String) :
    follow path (names ++ [""]) = follow path names := by
  rw [follow_append]
  simp [follow, next]

private theorem mem_way_append_empty {path step : Path} {names : List String} :
    step ∈ way path (names ++ [""]) ↔ step ∈ way path names := by
  have again := follow_append_empty path names
  rw [way, passed_append_singleton, again]
  simp [way]

theorem start_joinPath (isName : IsFileName name) (root : String) :
    tree.start (joinPath root name) = tree.start root := by
  have nameHead : name.toList.head? ≠ some '/' := fun marked =>
    isName.unmarked (List.mem_of_head? marked)
  have headEq : (joinPath root name).toList.head? = some '/' ↔ root.toList.head? = some '/' := by
    rw [joinPath]
    cases rootEq : root.toList with
    | nil =>
        have rootEmpty : root = "" := String.toList_inj.mp rootEq
        simp [rootEmpty, nameHead]
    | cons first rest =>
        split_ifs <;> simp [rootEq]
  simp only [start, headEq]

/-- The parts of a name in a directory are those of the directory, perhaps without an empty last one, and
the name. -/
theorem parts_joinPath (isName : IsFileName name) (root : String) :
    ∃ names, parts (joinPath root name) = names ++ [name] ∧
      (parts root = names ∨ parts root = names ++ [""]) := by
  have namePieces := Text.pieces_of_not_mem isName.unmarked
  rw [joinPath]
  split_ifs with bare
  · rcases bare with empty | marked
    · refine ⟨[], ?_, Or.inr ?_⟩
      · simp [parts, String.isEmpty_iff.mp empty, namePieces]
      · simp [parts, String.isEmpty_iff.mp empty, Text.pieces]
    · obtain ⟨front, rootEq⟩ := List.getLast?_eq_some_iff.mp marked
      refine ⟨(Text.pieces (· == '/') front).map String.ofList, ?_, Or.inr ?_⟩
      · have cut := Text.pieces_append_mark '/' front name.toList
        simp [parts, rootEq, cut, namePieces]
      · have cut := Text.pieces_append_mark '/' front []
        simp [parts, rootEq, cut, Text.pieces]
  · refine ⟨parts root, ?_, Or.inl rfl⟩
    have cut := Text.pieces_append_mark '/' root.toList name.toList
    simp [parts, cut, namePieces]

theorem target_joinPath (isName : IsFileName name) (root : String) :
    tree.target (joinPath root name) = tree.target root ++ [name] := by
  obtain ⟨names, partsEq, rootParts⟩ := parts_joinPath isName root
  have sameEnd : follow (tree.start root) (parts root) = follow (tree.start root) names := by
    rcases rootParts with same | marked
    · rw [same]
    · rw [marked, follow_append_empty]
  rw [target, target, start_joinPath isName, partsEq, follow_append, sameEnd]
  exact next_of_isFileName isName _

theorem mem_passed_joinPath (isName : IsFileName name) (root : String) (step : Path) :
    step ∈ passed (tree.start (joinPath root name)) (parts (joinPath root name)) ↔
      step ∈ tree.wayTo root := by
  obtain ⟨names, partsEq, rootParts⟩ := parts_joinPath isName root
  rw [start_joinPath isName, partsEq, passed_append_singleton, wayTo]
  rcases rootParts with same | marked
  · rw [same]
  · rw [marked, mem_way_append_empty]

theorem mem_wayTo_joinPath (isName : IsFileName name) (root : String) (step : Path) :
    step ∈ tree.wayTo (joinPath root name) ↔
      step ∈ tree.wayTo root ∨ step = tree.target root ++ [name] := by
  rw [← target_joinPath isName, wayTo, way, List.mem_append, mem_passed_joinPath isName,
    List.mem_singleton]
  rfl

theorem joinPath_ne_empty (isName : IsFileName name) (root : String) : joinPath root name ≠ "" := by
  have nonempty : name ≠ "" := fun empty => isName.proper (by simp [empty])
  rw [joinPath]
  split_ifs <;> simp [nonempty]

theorem getLast?_joinPath_ne (isName : IsFileName name) (root : String) :
    (joinPath root name).toList.getLast? ≠ some '/' := by
  have nonempty : name.toList ≠ [] := by
    intro empty
    have nameEq : name = "" := String.toList_inj.mp empty
    exact isName.proper (by simp [nameEq])
  obtain ⟨front, joined⟩ : ∃ front, (joinPath root name).toList = front ++ name.toList := by
    rw [joinPath]
    split_ifs
    · exact ⟨root.toList, by simp⟩
    · exact ⟨root.toList ++ ['/'], by simp⟩
  rw [joined, List.getLast?_append_of_ne_nil front nonempty]
  exact fun marked => isName.unmarked (List.mem_of_getLast? marked)

theorem resolve_joinPath {root : String} (isName : IsFileName name)
    (hasDirectory : tree.HasDirectory root) :
    tree.resolve (joinPath root name) = .ok (tree.target (joinPath root name)) := by
  refine resolve_eq_ok_iff.mpr ⟨joinPath_ne_empty isName root, ?_, rfl⟩
  intro step stepMem
  exact (hasDirectory_iff.mp hasDirectory).2 step ((mem_passed_joinPath isName root step).mp stepMem)

end FileTree

/-! ## The directories of workers -/

namespace ExternalAssembler

/-- The name of a worker's directory. -/
def siteName (assembler : ExternalAssembler) (worker : Nat) : String :=
  "enctab_" ++ toString assembler.process ++ "_" ++ toString assembler.serial ++ "_w" ++ toString worker

theorem scratchDirectory_eq (assembler : ExternalAssembler) (worker : Nat) :
    assembler.scratchDirectory worker =
      joinPath assembler.scratchRoot (assembler.siteName worker) := rfl

theorem head?_siteName (assembler : ExternalAssembler) (worker : Nat) :
    (assembler.siteName worker).toList.head? = some 'e' := by
  simp [siteName]

theorem isFileName_siteName (assembler : ExternalAssembler) (worker : Nat) :
    IsFileName (assembler.siteName worker) := by
  have named : (assembler.siteName worker).toList.all Text.isNameChar = true := by
    have fixed : "enctab_".toList.all Text.isNameChar = true ∧ "_".toList.all Text.isNameChar = true ∧
        "_w".toList.all Text.isNameChar = true := by decide
    simp only [siteName, String.toList_append, List.all_append, Text.all_isNameChar_toString,
      fixed, Bool.and_self]
  constructor
  · intro marked
    exact absurd (List.all_eq_true.mp named '/' marked) (by decide)
  · have opening := assembler.head?_siteName worker
    intro improper
    simp only [List.mem_cons, List.not_mem_nil, or_false] at improper
    rcases improper with same | same | same <;> simp [same] at opening

private theorem pieces_siteName (assembler : ExternalAssembler) (worker : Nat) :
    Text.pieces (· == '_') (assembler.siteName worker).toList =
      ["enctab".toList, (toString assembler.process).toList, (toString assembler.serial).toList,
        'w' :: (toString worker).toList] := by
  have split : (assembler.siteName worker).toList =
      "enctab".toList ++ '_' :: ((toString assembler.process).toList ++ '_' ::
        ((toString assembler.serial).toList ++ '_' :: 'w' :: (toString worker).toList)) := by
    simp [siteName]
  have number (value : Nat) : Text.pieces (· == '_') (toString value).toList =
      [(toString value).toList] := Text.pieces_of_not_mem (by simp)
  have last : Text.pieces (· == '_') ('w' :: (toString worker).toList) =
      ['w' :: (toString worker).toList] := Text.pieces_of_not_mem (by simp)
  rw [split, Text.pieces_append_mark, Text.pieces_append_mark, Text.pieces_append_mark, last, number,
    number, Text.pieces_of_not_mem (by decide)]
  rfl

private theorem toString_toList_inj {left right : Nat}
    (same : (toString left).toList = (toString right).toList) : left = right := by
  simp only [Nat.toString_eq_repr, Nat.toList_repr] at same
  rw [← @Nat.ofDigitChars_ten_toDigits left, same, Nat.ofDigitChars_ten_toDigits]

/-- The name tells the process, the assembler and the worker. -/
theorem siteName_inj {left right : ExternalAssembler} {worker other : Nat}
    (same : left.siteName worker = right.siteName other) :
    left.process = right.process ∧ left.serial = right.serial ∧ worker = other := by
  have samePieces := pieces_siteName left worker
  rw [same, pieces_siteName] at samePieces
  simp only [List.cons.injEq, true_and, and_true] at samePieces
  obtain ⟨sameProcess, sameSerial, sameWorker⟩ := samePieces
  exact ⟨(toString_toList_inj sameProcess).symm, (toString_toList_inj sameSerial).symm,
    (toString_toList_inj sameWorker).symm⟩

end ExternalAssembler

/-! ## The files in a directory -/

namespace ScratchFiles

def texts (files : ScratchFiles) : List String :=
  [files.source, files.object, files.binary]

theorem source_mem_texts {files : ScratchFiles} : files.source ∈ files.texts := by simp [texts]

theorem object_mem_texts {files : ScratchFiles} : files.object ∈ files.texts := by simp [texts]

theorem binary_mem_texts {files : ScratchFiles} : files.binary ∈ files.texts := by simp [texts]

/-- The names of the files in their directory. -/
def names : List String := ["test.asm", "test.o", "test.bin"]

theorem texts_inDirectory (directory : String) :
    (inDirectory directory).texts = names.map (joinPath directory) := rfl

theorem isFileName_of_mem {name : String} (nameMem : name ∈ names) : IsFileName name := by
  have unmarked : names.all (fun name => !name.toList.contains '/') = true := by decide
  have proper : names.all (fun name => !(["", ".", ".."].contains name)) = true := by decide
  exact ⟨by simpa using List.all_eq_true.mp unmarked name nameMem,
    by simpa using List.all_eq_true.mp proper name nameMem⟩

variable {directory text : String}

theorem exists_name_of_mem_texts (textMem : text ∈ (inDirectory directory).texts) :
    ∃ name, IsFileName name ∧ text = joinPath directory name := by
  rw [texts_inDirectory] at textMem
  obtain ⟨name, nameMem, rfl⟩ := List.mem_map.mp textMem
  exact ⟨name, isFileName_of_mem nameMem, rfl⟩

theorem target_eq_iff {tree : FileTree} {other : String} (textMem : text ∈ (inDirectory directory).texts)
    (otherMem : other ∈ (inDirectory directory).texts) :
    tree.target other = tree.target text ↔ other = text := by
  refine ⟨fun same => ?_, congrArg tree.target⟩
  obtain ⟨name, isName, rfl⟩ := exists_name_of_mem_texts textMem
  obtain ⟨otherName, isOtherName, rfl⟩ := exists_name_of_mem_texts otherMem
  rw [FileTree.target_joinPath isName, FileTree.target_joinPath isOtherName] at same
  rw [List.singleton_inj.mp (List.append_cancel_left same)]

/-- The directory is there, with nothing but files at the places of the worker's files. -/
structure Ready (directory : String) (tree : FileTree) : Prop where
  hasDirectory : tree.HasDirectory directory
  plain : ∀ text ∈ (inDirectory directory).texts, tree.Plain (tree.target text)

/-- Nothing but the contents of the worker's files is different. -/
structure Changes (directory : String) (before after : FileTree) : Prop where
  current_eq : after.current = before.current
  elsewhere : ∀ path, (∀ text ∈ (inDirectory directory).texts, path ≠ before.target text) →
    after.node? path = before.node? path
  plain : ∀ text ∈ (inDirectory directory).texts, after.Plain (before.target text)

/-- What is in the worker's files. -/
def contents (directory : String) (tree : FileTree) : List (Option (List UInt8)) :=
  (inDirectory directory).texts.map fun text => tree.file? (tree.target text)

variable {tree before after : FileTree}

theorem Ready.resolve_eq (ready : Ready directory tree)
    (textMem : text ∈ (inDirectory directory).texts) : tree.resolve text = .ok (tree.target text) := by
  obtain ⟨name, isName, rfl⟩ := exists_name_of_mem_texts textMem
  exact FileTree.resolve_joinPath isName ready.hasDirectory

theorem Ready.read_eq (ready : Ready directory tree)
    (textMem : text ∈ (inDirectory directory).texts) :
    tree.read text = (tree.file? (tree.target text)).elim (.error .notFound) .ok :=
  FileTree.read_eq (ready.resolve_eq textMem) (ready.plain text textMem)

theorem Ready.changes_self (ready : Ready directory tree) : Changes directory tree tree where
  current_eq := rfl
  elsewhere _ _ := rfl
  plain := ready.plain

theorem Changes.target_eq (changes : Changes directory before after) (text : String) :
    after.target text = before.target text :=
  FileTree.target_eq_of_current_eq changes.current_eq text

/-- The files are not on the way to their directory. -/
theorem Changes.ready (changes : Changes directory before after) (ready : Ready directory before) :
    Ready directory after := by
  obtain ⟨nonempty, isOpen⟩ := FileTree.hasDirectory_iff.mp ready.hasDirectory
  constructor
  · refine FileTree.hasDirectory_iff.mpr ⟨nonempty, fun step stepMem => ?_⟩
    rw [FileTree.wayTo_eq_of_current_eq changes.current_eq] at stepMem
    rw [← isOpen step stepMem]
    apply changes.elsewhere
    rintro text textMem rfl
    exact (ready.plain text textMem).node?_ne_directory (isOpen _ stepMem)
  · intro text textMem
    rw [changes.target_eq]
    exact changes.plain text textMem

theorem Changes.trans {last : FileTree} (first : Changes directory before after)
    (second : Changes directory after last) : Changes directory before last := by
  refine ⟨second.current_eq.trans first.current_eq, fun path elsewhere => ?_, fun text textMem => ?_⟩
  · rw [second.elsewhere path fun text textMem => first.target_eq text ▸ elsewhere text textMem,
      first.elsewhere path elsewhere]
  · rw [← first.target_eq]
    exact second.plain text textMem

private theorem changes_of_node? {place : Path} (ready : Ready directory before)
    (placeEq : ∃ text ∈ (inDirectory directory).texts, place = before.target text)
    (current_eq : after.current = before.current) (plain : after.Plain place)
    (elsewhere : ∀ path, path ≠ place → after.node? path = before.node? path) :
    Changes directory before after := by
  obtain ⟨text, textMem, rfl⟩ := placeEq
  refine ⟨current_eq, fun path others => elsewhere path (others text textMem), ?_⟩
  intro other otherMem
  by_cases same : before.target other = before.target text
  · rw [same]
    exact plain
  · exact FileTree.plain_of_node?_eq (elsewhere _ same) (ready.plain other otherMem)

theorem target_ne_nil (textMem : text ∈ (inDirectory directory).texts) : tree.target text ≠ [] := by
  obtain ⟨name, isName, rfl⟩ := exists_name_of_mem_texts textMem
  rw [FileTree.target_joinPath isName]
  simp

/-- A file of the worker can be written, and only it is different then. -/
theorem Ready.exists_write (ready : Ready directory tree)
    (textMem : text ∈ (inDirectory directory).texts) (content : List UInt8) :
    ∃ written, tree.write text content = .ok written ∧ Changes directory tree written ∧
      ∀ other ∈ (inDirectory directory).texts, written.file? (tree.target other) =
        if other = text then some content else tree.file? (tree.target other) := by
  have inside : tree.target text ≠ [] := target_ne_nil textMem
  have unmarked : text.toList.getLast? ≠ some '/' := by
    obtain ⟨name, isName, rfl⟩ := exists_name_of_mem_texts textMem
    exact FileTree.getLast?_joinPath_ne isName directory
  have written : (tree.put (tree.target text) (.file content)).node? (tree.target text) =
      some (.file content) := FileTree.node?_put_self _ inside
  refine ⟨_, FileTree.write_eq_ok (ready.resolve_eq textMem) unmarked (ready.plain text textMem) content,
    changes_of_node? ready ⟨text, textMem, rfl⟩ rfl ?_ fun path elsewhere =>
      FileTree.node?_put_of_ne _ elsewhere, ?_⟩
  · rw [FileTree.Plain, FileTree.file?, written]
    rfl
  · intro other otherMem
    by_cases same : other = text
    · subst same
      rw [if_pos rfl, FileTree.file?, written]
    · rw [if_neg same]
      exact FileTree.file?_eq_of_node?_eq
        (FileTree.node?_put_of_ne _ (mt (target_eq_iff textMem otherMem).mp same))

/-- A file of the worker that is taken away is gone, and only it is different then. -/
theorem Ready.removeFile (ready : Ready directory tree)
    (textMem : text ∈ (inDirectory directory).texts) :
    Changes directory tree (tree.removeFile text) ∧
      ∀ other ∈ (inDirectory directory).texts, (tree.removeFile text).file? (tree.target other) =
        if other = text then none else tree.file? (tree.target other) := by
  have node (path : Path) : (tree.removeFile text).node? path =
      if tree.target text = path ∧ (tree.file? path).isSome then none else tree.node? path := by
    rw [FileTree.node?_removeFile, ready.resolve_eq textMem]
    simp only [Except.ok.injEq]
  have elsewhere (path : Path) (different : path ≠ tree.target text) :
      (tree.removeFile text).node? path = tree.node? path := by
    rw [node, if_neg fun removed => different removed.1.symm]
  have gone : (tree.removeFile text).node? (tree.target text) = none := by
    rw [node]
    split_ifs with isFile
    · rfl
    · rw [ready.plain text textMem]
      have noFile : tree.file? (tree.target text) = none := by simpa using isFile
      rw [noFile]
      rfl
  refine ⟨changes_of_node? ready ⟨text, textMem, rfl⟩ (FileTree.current_removeFile text)
    (FileTree.plain_of_none gone) elsewhere, ?_⟩
  intro other otherMem
  by_cases same : other = text
  · subst same
    rw [if_pos rfl, FileTree.file?_of_none gone]
  · rw [if_neg same]
    exact FileTree.file?_eq_of_node?_eq (elsewhere _ (mt (target_eq_iff textMem otherMem).mp same))

/-- Cleaning up takes all three files away. -/
theorem Ready.cleanUp (ready : Ready directory tree) :
    Changes directory tree ((inDirectory directory).cleanUp tree) ∧
      ∀ text ∈ (inDirectory directory).texts,
        ((inDirectory directory).cleanUp tree).file? (tree.target text) = none := by
  obtain ⟨noSource, sourceGone⟩ := ready.removeFile source_mem_texts
  have readySecond := noSource.ready ready
  obtain ⟨noObject, objectGone⟩ := readySecond.removeFile object_mem_texts
  have readyThird := noObject.ready readySecond
  obtain ⟨noBinary, binaryGone⟩ := readyThird.removeFile binary_mem_texts
  refine ⟨noSource.trans (noObject.trans noBinary), fun text textMem => ?_⟩
  rw [ScratchFiles.cleanUp, ← noSource.target_eq, ← noObject.target_eq, binaryGone text textMem,
    noObject.target_eq, objectGone text textMem, noSource.target_eq, sourceGone text textMem]
  simp only [texts, List.mem_cons, List.not_mem_nil, or_false] at textMem
  rcases textMem with rfl | rfl | rfl <;> simp

/-- The directory can be made, if it is not there, and there is nothing in it. -/
def StartsEmpty (directory : String) (tree : FileTree) : Prop :=
  ∃ made, tree.makeDirectories directory = .ok made ∧ made.childCount directory = 0

/-- The directory can be made, if it is not there, and there is nothing at the places of the worker's
files. -/
structure Vacant (directory : String) (tree : FileTree) : Prop where
  admits : ∀ step ∈ tree.wayTo directory, tree.Admits step
  offWay : ∀ text ∈ (inDirectory directory).texts, tree.target text ∉ tree.wayTo directory
  missing : ∀ text ∈ (inDirectory directory).texts, tree.node? (tree.target text) = none

theorem hasDirectory_of_makeDirectories {made : FileTree} (nonempty : directory ≠ "")
    (succeeded : tree.makeDirectories directory = .ok made) : made.HasDirectory directory := by
  refine FileTree.hasDirectory_iff.mpr ⟨nonempty, fun step stepMem => ?_⟩
  rw [FileTree.wayTo_eq_of_current_eq (FileTree.current_of_makeAlong succeeded)] at stepMem
  exact (FileTree.node?_of_makeAlong succeeded step).trans (if_pos stepMem)

theorem StartsEmpty.vacant (nonempty : directory ≠ "") (empty : StartsEmpty directory tree) :
    Vacant directory tree := by
  obtain ⟨made, succeeded, childless⟩ := empty
  have targetEq : made.target directory = tree.target directory :=
    FileTree.target_eq_of_current_eq (FileTree.current_of_makeAlong succeeded) directory
  obtain ⟨path, resolved, -⟩ := hasDirectory_of_makeDirectories nonempty succeeded
  obtain rfl := (FileTree.resolve_eq_ok_iff.mp resolved).2.2
  rw [FileTree.childCount, resolved, targetEq] at childless
  have nothing := FileTree.children_eq_nil_iff.mp (List.eq_nil_of_length_eq_zero childless)
  -- A path below the directory that is on the way to it would have been made.
  have vacant (text : String) (textMem : text ∈ (inDirectory directory).texts) :
      tree.target text ∉ tree.wayTo directory ∧ tree.node? (tree.target text) = none := by
    obtain ⟨name, isName, rfl⟩ := exists_name_of_mem_texts textMem
    have missing := nothing name
    rw [FileTree.node?_of_makeAlong succeeded] at missing
    rw [FileTree.target_joinPath isName, FileTree.wayTo]
    split_ifs at missing with onWay
    exact ⟨onWay, missing⟩
  exact ⟨FileTree.exists_makeAlong_iff.mp ⟨made, succeeded⟩, fun text textMem => (vacant text textMem).1,
    fun text textMem => (vacant text textMem).2⟩

/-- Making the directory changes nothing but the way to it. -/
theorem Vacant.exists_made (nonempty : directory ≠ "") (vacant : Vacant directory tree) :
    ∃ made, tree.makeDirectories directory = .ok made ∧ made.current = tree.current ∧
      Ready directory made ∧
      ∀ path, made.node? path =
        if path ∈ tree.wayTo directory then some .directory else tree.node? path := by
  obtain ⟨made, succeeded⟩ := FileTree.exists_makeAlong_iff.mpr vacant.admits
  have current := FileTree.current_of_makeAlong succeeded
  have node := FileTree.node?_of_makeAlong succeeded
  refine ⟨made, succeeded, current, ⟨hasDirectory_of_makeDirectories nonempty succeeded, ?_⟩, node⟩
  intro text textMem
  apply FileTree.plain_of_none
  rw [FileTree.target_eq_of_current_eq current, node]
  exact (if_neg (vacant.offWay text textMem)).trans (vacant.missing text textMem)

end ScratchFiles

end OpcodeTable
