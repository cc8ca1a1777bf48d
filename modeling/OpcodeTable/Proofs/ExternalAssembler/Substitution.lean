import OpcodeTable.ExternalAssembler
import OpcodeTable.Proofs.Text.Places

/-!
# The paths in the arguments of an assembler

The places of an argument are filled in one after the other. The paths end with the names of the files, which
are longer than the words of the places, so that filling them in at once gives the same argument if the
directory has no braces in its name.
-/

namespace OpcodeTable

theorem exists_joinPath_eq (directory name : String) :
    ∃ between, (between = "" ∨ between = "/") ∧ joinPath directory name = directory ++ between ++ name := by
  unfold joinPath
  split
  · exact ⟨"", .inl rfl, by simp⟩
  · exact ⟨"/", .inr rfl, rfl⟩

theorem not_mem_joinPath {directory name : String} {c : Char} (notSlash : c ≠ '/')
    (absent : c ∉ directory.toList) (absentName : c ∉ name.toList) :
    c ∉ (joinPath directory name).toList := by
  obtain ⟨between, betweenEq, pathEq⟩ := exists_joinPath_eq directory name
  rw [pathEq]
  rcases betweenEq with rfl | rfl
  · simp [absent, absentName]
  · simp [absent, absentName, notSlash]

theorem length_le_length_joinPath (directory name : String) :
    name.toList.length ≤ (joinPath directory name).toList.length := by
  obtain ⟨between, -, pathEq⟩ := exists_joinPath_eq directory name
  rw [pathEq, String.toList_append, List.length_append]
  exact Nat.le_add_left _ _

namespace ScratchFiles

/-- The places of an argument, with the paths that are filled in. -/
def places (files : ScratchFiles) : List Text.Place :=
  [⟨sourcePlace.toList, files.source.toList⟩, ⟨objectPlace.toList, files.object.toList⟩,
    ⟨binaryPlace.toList, files.binary.toList⟩]

theorem substitute_eq_foldl (files : ScratchFiles) (argument : String) :
    (files.substitute argument).toList =
      files.places.foldl (fun text place => Text.replaceAll place.mark place.filling text)
        argument.toList := by
  rw [substitute, String.toList_ofList]
  rfl

theorem isBraced_place : Text.IsBraced sourcePlace.toList ∧ Text.IsBraced objectPlace.toList ∧
    Text.IsBraced binaryPlace.toList := by
  refine ⟨⟨"src".toList, ?_⟩, ⟨"obj".toList, ?_⟩, ⟨"bin".toList, ?_⟩⟩
  all_goals decide

variable {directory : String} (unopened : '\x7b' ∉ directory.toList)
  (unclosed : '\x7d' ∉ directory.toList)
include unopened unclosed

theorem isPlain_joinPath {mark : List Char} (braced : Text.IsBraced mark) {name : String}
    (nameUnopened : '\x7b' ∉ name.toList) (nameUnclosed : '\x7d' ∉ name.toList) :
    (Text.Place.mk mark (joinPath directory name).toList).IsPlain where
  braced := braced
  unopened := not_mem_joinPath (by decide) unopened nameUnopened
  unclosed := not_mem_joinPath (by decide) unclosed nameUnclosed

theorem isPlain_of_mem_places : ∀ place ∈ (inDirectory directory).places, place.IsPlain := by
  obtain ⟨source, object, binary⟩ := isBraced_place
  intro place placeMem
  simp only [places, inDirectory, List.mem_cons, List.not_mem_nil, or_false] at placeMem
  rcases placeMem with rfl | rfl | rfl
  · exact isPlain_joinPath unopened unclosed source (by decide) (by decide)
  · exact isPlain_joinPath unopened unclosed object (by decide) (by decide)
  · exact isPlain_joinPath unopened unclosed binary (by decide) (by decide)

omit unopened unclosed in
theorem length_mark_le_of_mem_places :
    ∀ place ∈ (inDirectory directory).places, ∀ other ∈ (inDirectory directory).places,
      other.mark.length ≤ place.filling.length := by
  have markLength : ∀ other ∈ (inDirectory directory).places, other.mark.length = 5 := by
    intro other otherMem
    simp only [places, List.mem_cons, List.not_mem_nil, or_false] at otherMem
    rcases otherMem with rfl | rfl | rfl <;> rfl
  have fillingLength : ∀ place ∈ (inDirectory directory).places, 5 ≤ place.filling.length := by
    intro place placeMem
    simp only [places, inDirectory, List.mem_cons, List.not_mem_nil, or_false] at placeMem
    rcases placeMem with rfl | rfl | rfl
    all_goals exact le_trans (by decide) (length_le_length_joinPath directory _)
  intro place placeMem other otherMem
  rw [markLength other otherMem]
  exact fillingLength place placeMem

/-- If the directory has no braces in its name, the argument is the one with all places filled in at once,
from left to right. Filling in a path leaves every later place where it is and makes no new one. -/
theorem substitute_simultaneous (argument : String) :
    (inDirectory directory).substitute argument =
        String.ofList (Text.fillIn (inDirectory directory).places argument.toList) ∧
      (inDirectory directory).places.Pairwise fun place later =>
        ∀ text, Text.KeepsMark later.mark (Text.replaceAll place.mark place.filling) text := by
  have plain := isPlain_of_mem_places unopened unclosed
  have short := @length_mark_le_of_mem_places directory
  constructor
  · rw [← Text.foldl_replaceAll_eq_fillIn plain short, ← substitute_eq_foldl, String.ofList_toList]
  · have distinct : (inDirectory directory).places.Pairwise fun place later => place.mark ≠ later.mark := by
      apply List.pairwise_map.mp
      change [sourcePlace.toList, objectPlace.toList, binaryPlace.toList].Pairwise (· ≠ ·)
      decide
    apply distinct.imp_of_mem
    intro place later placeMem laterMem different text
    exact Text.replaceAll_keepsMark (plain place placeMem) (plain later laterMem).braced
      (short place placeMem later laterMem) different text

omit unopened unclosed

/-- Braces around places, a place inside a word in braces, and a place that is not closed. -/
def nestedPlaces : String :=
  "\x7bo\x7bsrc\x7dbj\x7d\x7b\x7bobj\x7d\x7d\x7bbin"

theorem substitute_simultaneous_nested :
    (inDirectory "/tmp/w0").substitute nestedPlaces =
        "\x7bo/tmp/w0/test.asmbj\x7d\x7b/tmp/w0/test.o\x7d\x7bbin" ∧
      String.ofList (Text.fillIn (inDirectory "/tmp/w0").places nestedPlaces.toList) =
        "\x7bo/tmp/w0/test.asmbj\x7d\x7b/tmp/w0/test.o\x7d\x7bbin" := by
  have filled : (inDirectory "/tmp/w0").substitute nestedPlaces =
      "\x7bo/tmp/w0/test.asmbj\x7d\x7b/tmp/w0/test.o\x7d\x7bbin" := by
    decide +kernel
  have atOnce := (@substitute_simultaneous "/tmp/w0" (by decide) (by decide) nestedPlaces).1
  exact ⟨filled, atOnce.symm.trans filled⟩

end ScratchFiles

end OpcodeTable
