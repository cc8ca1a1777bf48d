import OpcodeTable.Proofs.ExternalAssembler.Pipeline
import OpcodeTable.Proofs.Pool.Run

/-!
# Calls one after the other

A call leaves the tree as it was, except for the directories on the way to its files. So whatever calls
were made before, a call finds none of its files, and it comes to what it would come to in an empty
directory.
-/

namespace OpcodeTable

open ScratchFiles

namespace AssemblyCall

variable {call other : AssemblyCall} {launch : Launcher} {tree : FileTree}

theorem directory_ne_empty : call.directory ≠ "" :=
  FileTree.joinPath_ne_empty (call.assembler.isFileName_siteName call.worker) _

theorem exists_target_eq (tree : FileTree) {text : String} (textMem : text ∈ call.files.texts) :
    ∃ name, tree.target text =
      tree.target call.assembler.scratchRoot ++ [call.assembler.siteName call.worker, name] := by
  obtain ⟨name, isName, rfl⟩ := exists_name_of_mem_texts textMem
  refine ⟨name, ?_⟩
  rw [FileTree.target_joinPath isName, directory, ExternalAssembler.scratchDirectory_eq,
    FileTree.target_joinPath (call.assembler.isFileName_siteName call.worker), List.append_assoc]
  rfl

/-- Workers have no file in common. -/
theorem target_ne_target {text own : String}
    (sameRoot : other.assembler.scratchRoot = call.assembler.scratchRoot)
    (different : (other.assembler.process, other.assembler.serial, other.worker) ≠
      (call.assembler.process, call.assembler.serial, call.worker))
    (textMem : text ∈ other.files.texts) (ownMem : own ∈ call.files.texts) :
    tree.target text ≠ tree.target own := by
  intro same
  obtain ⟨name, targetEq⟩ := exists_target_eq tree textMem
  obtain ⟨ownName, ownTargetEq⟩ := exists_target_eq tree ownMem
  rw [targetEq, ownTargetEq, sameRoot] at same
  obtain ⟨sameSite, -⟩ := List.cons.inj (List.append_cancel_left same)
  obtain ⟨sameProcess, sameSerial, sameWorker⟩ := ExternalAssembler.siteName_inj sameSite
  exact different (by rw [sameProcess, sameSerial, sameWorker])

/-- No file of the call stands on the way to the directory of another one. This goes without saying if the
directories have the same root. -/
def KeepsClearOf (call other : AssemblyCall) (tree : FileTree) : Prop :=
  call.assembler.scratchRoot = other.assembler.scratchRoot ∨
    ∀ text ∈ call.files.texts, tree.target text ∉ tree.wayTo other.directory

theorem KeepsClearOf.not_mem_wayTo (clear : call.KeepsClearOf other tree)
    (vacant : Vacant call.directory tree) {text : String} (textMem : text ∈ call.files.texts) :
    tree.target text ∉ tree.wayTo other.directory := by
  rcases clear with sameRoot | offWay
  · intro onWay
    have offOwnWay := vacant.offWay text textMem
    rw [directory, ExternalAssembler.scratchDirectory_eq,
      FileTree.mem_wayTo_joinPath (ExternalAssembler.isFileName_siteName _ _)] at onWay offOwnWay
    rw [← sameRoot] at onWay
    rcases onWay with onRootWay | isDirectory
    · exact offOwnWay (Or.inl onRootWay)
    · obtain ⟨name, targetEq⟩ := exists_target_eq tree textMem
      rw [targetEq] at isDirectory
      simpa using congrArg List.length isDirectory
  · exact offWay text textMem

/-! ## One call -/

/-- How a call begins: the directory is made, and then the source is the only file in it. -/
structure Begins (call : AssemblyCall) (tree made start : FileTree) : Prop where
  opened : tree.makeDirectories call.directory = .ok made
  written : made.write call.files.source (Text.utf8 (call.test.source call.assembler.dialect)) = .ok start
  current_eq : made.current = tree.current
  node?_eq : ∀ path, made.node? path =
    if path ∈ tree.wayTo call.directory then some .directory else tree.node? path
  changes : Changes call.directory made start
  ready : Ready call.directory start
  contents_eq : contents call.directory start = call.files.texts.map fun text =>
    if text = call.files.source then some (Text.utf8 (call.test.source call.assembler.dialect)) else none

theorem exists_begins (vacant : Vacant call.directory tree) :
    ∃ made start, call.Begins tree made start := by
  obtain ⟨made, opened, current, ready, node⟩ := vacant.exists_made directory_ne_empty
  obtain ⟨start, written, changes, file⟩ := ready.exists_write source_mem_texts
    (Text.utf8 (call.test.source call.assembler.dialect))
  refine ⟨made, start, opened, written, current, node, changes, changes.ready ready, ?_⟩
  refine List.map_congr_left fun text textMem => ?_
  have missing : made.file? (made.target text) = none := by
    apply FileTree.file?_of_none
    rw [FileTree.target_eq_of_current_eq current, node, if_neg (vacant.offWay text textMem)]
    exact vacant.missing text textMem
  rw [changes.target_eq, file text textMem, missing, files]

/-- A call leaves nothing but the way to its directory. -/
theorem perform_leaves (confined : call.IsConfined launch) (vacant : Vacant call.directory tree) :
    (call.perform launch tree).2.current = tree.current ∧
      ∀ path, (call.perform launch tree).2.node? path =
        if path ∈ tree.wayTo call.directory then some .directory else tree.node? path := by
  obtain ⟨made, start, begins⟩ := exists_begins vacant
  have ran := conclude_changes confined begins.ready
  obtain ⟨cleaned, gone⟩ := (ran.ready begins.ready).cleanUp
  have changes := begins.changes.trans (ran.trans cleaned)
  rw [perform_eq begins.opened begins.written]
  refine ⟨changes.current_eq.trans begins.current_eq, fun path => ?_⟩
  by_cases own : ∃ text ∈ (inDirectory call.directory).texts, path = made.target text
  · -- The file was missing, and it is again after cleaning up.
    obtain ⟨text, textMem, rfl⟩ := own
    have plain := changes.plain text textMem
    rw [FileTree.target_eq_of_current_eq begins.current_eq, if_neg (vacant.offWay text textMem),
      vacant.missing text textMem, ← FileTree.target_eq_of_current_eq begins.current_eq]
    rw [← (begins.changes.trans ran).target_eq] at plain ⊢
    exact plain.trans (congrArg _ (gone text textMem))
  · rw [← begins.node?_eq]
    exact changes.elsewhere path fun text textMem same => own ⟨text, textMem, same⟩

theorem perform_files_missing (confined : call.IsConfined launch) (vacant : Vacant call.directory tree)
    {text : String} (textMem : text ∈ call.files.texts) :
    (call.perform launch tree).2.hasPath text = false := by
  obtain ⟨current, node⟩ := perform_leaves confined vacant
  rw [FileTree.hasPath]
  cases resolved : (call.perform launch tree).2.resolve text with
  | error error => rfl
  | ok path =>
      obtain rfl := (FileTree.resolve_eq_ok_iff.mp resolved).2.2
      simp only [FileTree.target_eq_of_current_eq current, node,
        if_neg (vacant.offWay text textMem), vacant.missing text textMem, Option.isSome_none]

/-- The response is the same wherever none of the files is there at the start. -/
theorem perform_response_eq {fresh : FileTree} (confined : call.IsConfined launch)
    (vacant : Vacant call.directory tree) (freshVacant : Vacant call.directory fresh) :
    (call.perform launch tree).1 = (call.perform launch fresh).1 := by
  obtain ⟨made, start, begins⟩ := exists_begins vacant
  obtain ⟨freshMade, freshStart, freshBegins⟩ := exists_begins freshVacant
  have sameContents := begins.contents_eq.trans freshBegins.contents_eq.symm
  rw [perform_eq begins.opened begins.written, perform_eq freshBegins.opened freshBegins.written]
  exact conclude_reads confined begins.ready freshBegins.ready sameContents

theorem perform_eq_iff (confined : call.IsConfined launch) (vacant : Vacant call.directory tree) :
    ∃ made start, tree.makeDirectories call.directory = .ok made ∧
      made.write call.files.source (Text.utf8 (call.test.source call.assembler.dialect)) = .ok start ∧
      ∀ response after, call.perform launch tree = (response, after) ↔
        ∃ last, call.Decides launch start response last ∧ after = call.files.cleanUp last := by
  obtain ⟨made, start, begins⟩ := exists_begins vacant
  refine ⟨made, start, begins.opened, begins.written, fun response after => ?_⟩
  simp only [perform_eq begins.opened begins.written, ← conclude_eq_iff_decides confined begins.ready]
  constructor
  · intro performed
    obtain ⟨rfl, rfl⟩ := Prod.mk.inj performed
    exact ⟨_, rfl, rfl⟩
  · rintro ⟨last, concluded, rfl⟩
    rw [concluded]

/-! ## Calls in any order -/

/-- The tree after calls one after the other. -/
def afterCalls (launch : Launcher) (calls : List AssemblyCall) (tree : FileTree) : FileTree :=
  calls.foldl (fun tree call => (call.perform launch tree).2) tree

/-- A call leaves the places of the files of another one as they are. -/
theorem vacant_perform (confined : call.IsConfined launch) (vacant : Vacant call.directory tree)
    (clear : other.KeepsClearOf call tree) (otherVacant : Vacant other.directory tree) :
    Vacant other.directory (call.perform launch tree).2 := by
  obtain ⟨current, node⟩ := perform_leaves confined vacant
  have wayEq := FileTree.wayTo_eq_of_current_eq current other.directory
  have targetEq := FileTree.target_eq_of_current_eq current
  refine ⟨fun step stepMem => ?_, fun text textMem => ?_, fun text textMem => ?_⟩
  · rw [wayEq] at stepMem
    rw [FileTree.Admits, node]
    split_ifs
    · exact Or.inr rfl
    · exact otherVacant.admits step stepMem
  · rw [wayEq, targetEq]
    exact otherVacant.offWay text textMem
  · rw [targetEq, node, if_neg (clear.not_mem_wayTo otherVacant textMem)]
    exact otherVacant.missing text textMem

theorem KeepsClearOf.of_current_eq {after : FileTree} (current : after.current = tree.current)
    (clear : call.KeepsClearOf other tree) : call.KeepsClearOf other after := by
  refine clear.imp_right fun offWay text textMem => ?_
  rw [FileTree.target_eq_of_current_eq current, FileTree.wayTo_eq_of_current_eq current]
  exact offWay text textMem

theorem vacant_afterCalls {calls : List AssemblyCall}
    (confined : ∀ call ∈ calls, call.IsConfined launch)
    (vacant : ∀ call ∈ other :: calls, Vacant call.directory tree)
    (clear : ∀ left ∈ other :: calls, ∀ right ∈ other :: calls, left.KeepsClearOf right tree) :
    Vacant other.directory (afterCalls launch calls tree) := by
  induction calls generalizing tree with
  | nil => exact vacant other List.mem_cons_self
  | cons first rest ih =>
      have firstMem : first ∈ other :: first :: rest := by simp
      have later (call : AssemblyCall) (callMem : call ∈ other :: rest) :
          call ∈ other :: first :: rest := by
        simp only [List.mem_cons] at callMem ⊢
        tauto
      have firstConfined := confined first List.mem_cons_self
      have current := (perform_leaves firstConfined (vacant first firstMem)).1
      apply ih
      · exact fun call callMem => confined call (List.mem_cons_of_mem first callMem)
      · intro call callMem
        exact vacant_perform firstConfined (vacant first firstMem)
          (clear call (later call callMem) first firstMem) (vacant call (later call callMem))
      · intro left leftMem right rightMem
        exact (clear left (later left leftMem) right (later right rightMem)).of_current_eq current

/-- Whatever calls were made before, a call comes to what it comes to in any empty directory. None of its
files is left, what comes of it is decided by the first step that does not pass, and no other worker has a
file in common with it. -/
theorem perform_isolated (launch : Launcher) (earlier : List AssemblyCall) (call : AssemblyCall)
    (tree : FileTree) (confined : ∀ each ∈ call :: earlier, each.IsConfined launch)
    (empty : ∀ each ∈ call :: earlier, StartsEmpty each.directory tree)
    (clear : ∀ left ∈ call :: earlier, ∀ right ∈ call :: earlier, left.KeepsClearOf right tree) :
    (∀ fresh, StartsEmpty call.directory fresh →
        (call.perform launch (afterCalls launch earlier tree)).1 = (call.perform launch fresh).1) ∧
      (∀ text ∈ call.files.texts,
        (call.perform launch (afterCalls launch earlier tree)).2.hasPath text = false) ∧
      (∃ made start, (afterCalls launch earlier tree).makeDirectories call.directory = .ok made ∧
        made.write call.files.source (Text.utf8 (call.test.source call.assembler.dialect)) = .ok start ∧
        ∀ response after, call.perform launch (afterCalls launch earlier tree) = (response, after) ↔
          ∃ last, call.Decides launch start response last ∧ after = call.files.cleanUp last) ∧
      ∀ other : AssemblyCall, other.assembler.scratchRoot = call.assembler.scratchRoot →
        (other.assembler.process, other.assembler.serial, other.worker) ≠
          (call.assembler.process, call.assembler.serial, call.worker) →
        ∀ text ∈ other.files.texts, ∀ own ∈ call.files.texts,
          (afterCalls launch earlier tree).target text ≠ (afterCalls launch earlier tree).target own := by
  have callConfined := confined call List.mem_cons_self
  have vacant : Vacant call.directory (afterCalls launch earlier tree) := by
    refine vacant_afterCalls (fun each eachMem => confined each (List.mem_cons_of_mem call eachMem)) ?_
      clear
    exact fun each eachMem => (empty each eachMem).vacant directory_ne_empty
  refine ⟨fun fresh freshEmpty => ?_, fun text textMem => ?_, ?_, ?_⟩
  · exact perform_response_eq callConfined vacant (freshEmpty.vacant directory_ne_empty)
  · exact perform_files_missing callConfined vacant textMem
  · exact perform_eq_iff callConfined vacant
  · intro other sameRoot different text textMem own ownMem
    exact target_ne_target sameRoot different textMem ownMem

/-- A launcher that knows one program, which copies a file. -/
def copier : Launcher := fun program arguments tree =>
  if program = "cp" then
    let copied : Except FileError FileTree := do
      let content ← tree.read (arguments.getD 0 "")
      tree.write (arguments.getD 1 "") content
    match copied with
    | .ok written => (.ok ⟨.code 0, []⟩, written)
    | .error error => (.ok ⟨.code 1, Text.utf8 error.message⟩, tree)
  else (.error FileError.notFound.message, tree)

theorem copier_of_none {directory source : String} {rest : List String} (ready : Ready directory tree)
    (sourceMem : source ∈ (inDirectory directory).texts)
    (missing : tree.file? (tree.target source) = none) :
    copier "cp" (source :: rest) tree =
      (.ok ⟨.code 1, Text.utf8 FileError.notFound.message⟩, tree) := by
  have reading : tree.read source = .error .notFound := by rw [ready.read_eq sourceMem, missing]; rfl
  simp [copier, reading, bind, Except.bind]

theorem copier_of_some {directory source destination : String} {content : List UInt8}
    (ready : Ready directory tree) (sourceMem : source ∈ (inDirectory directory).texts)
    (destinationMem : destination ∈ (inDirectory directory).texts)
    (held : tree.file? (tree.target source) = some content) :
    ∃ written, copier "cp" [source, destination] tree = (.ok ⟨.code 0, []⟩, written) ∧
      Changes directory tree written ∧
      contents directory written = (inDirectory directory).texts.map fun text =>
        if text = destination then some content else tree.file? (tree.target text) := by
  have reading : tree.read source = .ok content := by rw [ready.read_eq sourceMem, held]; rfl
  obtain ⟨written, succeeded, changes, file⟩ := ready.exists_write destinationMem content
  refine ⟨written, by simp [copier, reading, succeeded, bind, Except.bind], changes, ?_⟩
  refine List.map_congr_left fun text textMem => ?_
  rw [changes.target_eq, file text textMem]

theorem confined_copier {directory source destination : String}
    (sourceMem : source ∈ (inDirectory directory).texts)
    (destinationMem : destination ∈ (inDirectory directory).texts) :
    Confined directory (copier "cp" [source, destination]) where
  writes tree ready := by
    cases held : tree.file? (tree.target source) with
    | none =>
        rw [copier_of_none ready sourceMem held]
        exact ready.changes_self
    | some content =>
        obtain ⟨written, copied, changes, -⟩ := copier_of_some ready sourceMem destinationMem held
        rw [copied]
        exact changes
  reads left right leftReady rightReady same := by
    have sameFile := List.map_inj_left.mp same
    cases held : right.file? (right.target source) with
    | none =>
        rw [copier_of_none leftReady sourceMem ((sameFile source sourceMem).trans held),
          copier_of_none rightReady sourceMem held]
        exact ⟨rfl, same⟩
    | some content =>
        obtain ⟨leftWritten, leftCopied, -, leftContents⟩ := copier_of_some leftReady sourceMem
          destinationMem ((sameFile source sourceMem).trans held)
        obtain ⟨rightWritten, rightCopied, -, rightContents⟩ := copier_of_some rightReady sourceMem
          destinationMem held
        rw [leftCopied, rightCopied, leftContents, rightContents]
        refine ⟨rfl, List.map_congr_left fun text textMem => ?_⟩
        rw [sameFile text textMem]

/-- An assembler that copies the source, by way of the object file. -/
def copyCall (worker : Nat) (name : String) : AssemblyCall where
  assembler :=
    { dialect := .nasm
      steps := [⟨"cp", [sourcePlace, objectPlace]⟩, ⟨"cp", [objectPlace, binaryPlace]⟩]
      rejectionCodes := [1]
      scratchRoot := "/tmp"
      process := 7
      serial := 0 }
  worker := worker
  test := ⟨⟨name, [], (nopTest 0).variant.encoding⟩, 0, []⟩

private theorem isConfined_copyCall {worker : Nat} (few : worker < 2) (name : String) :
    (copyCall worker name).IsConfined copier := by
  have places : ∀ worker < 2, (copyCall worker "").files.substitute sourcePlace =
        (copyCall worker "").files.source ∧
      (copyCall worker "").files.substitute objectPlace = (copyCall worker "").files.object ∧
      (copyCall worker "").files.substitute binaryPlace = (copyCall worker "").files.binary := by
    decide +kernel
  obtain ⟨sourceEq, objectEq, binaryEq⟩ := places worker few
  intro step stepMem
  have steps : step = ⟨"cp", [sourcePlace, objectPlace]⟩ ∨ step = ⟨"cp", [objectPlace, binaryPlace]⟩ := by
    simpa [copyCall] using stepMem
  rcases steps with rfl | rfl
  · have ran := @confined_copier (copyCall worker "").directory _ _ source_mem_texts object_mem_texts
    rw [← files, ← sourceEq, ← objectEq] at ran
    exact ran
  · have ran := @confined_copier (copyCall worker "").directory _ _ object_mem_texts binary_mem_texts
    rw [← files, ← objectEq, ← binaryEq] at ran
    exact ran

private theorem startsEmpty_copyCall {worker : Nat} (few : worker < 2) (name : String) :
    StartsEmpty (copyCall worker name).directory (.standard "work") := by
  have childless : ∀ worker < 2,
      ((FileTree.standard "work").makeDirectories (copyCall worker "").directory).toOption.map
        (·.childCount (copyCall worker "").directory) = some 0 := by
    decide +kernel
  have opened := childless worker few
  cases making : (FileTree.standard "work").makeDirectories (copyCall worker "").directory with
  | error error => simp [making, Except.toOption] at opened
  | ok made =>
      rw [making] at opened
      exact ⟨made, making, Option.some.inj opened⟩

theorem perform_isolated_copyCall :
    ((copyCall 0 "ret").perform copier (afterCalls copier [copyCall 0 "nop", copyCall 1 "hlt"]
      (.standard "work"))).1 = .outcome (.encoded (Text.utf8 "bits 64\nret\n")) := by
  have few : ∀ call ∈ [copyCall 0 "ret", copyCall 0 "nop", copyCall 1 "hlt"],
      ∃ worker < 2, ∃ name, call = copyCall worker name := by
    simp only [List.mem_cons, List.not_mem_nil, or_false, forall_eq_or_imp, forall_eq]
    exact ⟨⟨0, by decide, _, rfl⟩, ⟨0, by decide, _, rfl⟩, ⟨1, by decide, _, rfl⟩⟩
  obtain ⟨same, -⟩ := perform_isolated copier [copyCall 0 "nop", copyCall 1 "hlt"] (copyCall 0 "ret")
    (.standard "work")
    (by
      intro call callMem
      obtain ⟨worker, isFew, name, rfl⟩ := few call callMem
      exact isConfined_copyCall isFew name)
    (by
      intro call callMem
      obtain ⟨worker, isFew, name, rfl⟩ := few call callMem
      exact startsEmpty_copyCall isFew name)
    (by
      intro left leftMem right rightMem
      obtain ⟨_, -, _, rfl⟩ := few left leftMem
      obtain ⟨_, -, _, rfl⟩ := few right rightMem
      exact Or.inl rfl)
  rw [same (.standard "work") (startsEmpty_copyCall (by decide) "ret")]
  decide +kernel

end AssemblyCall

end OpcodeTable
