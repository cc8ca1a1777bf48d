import Mathlib.Data.List.Find
import Mathlib.Data.List.Induction
import OpcodeTable.Proofs.Text.Pieces
import OpcodeTable.Text.Replace

/-!
# Filling in places one after the other and all at once

A place of a text is marked by a word in braces. If what is filled in has no braces and is not shorter than
the marks, then no mark comes about or gets lost where something is filled in: an occurrence of a mark holds
only one opening brace, at its start, and only one closing brace, at its end, so it can neither begin nor end
in what was filled in, and it is too short to go around it. So it does not matter whether the places are
filled in at once or one after the other.
-/

namespace OpcodeTable.Text

/-- A mark in a text, and what is filled in for it. -/
structure Place where
  mark : List Char
  filling : List Char
deriving DecidableEq, Repr

/-- The first place whose mark the text starts with. -/
def placeAt? (places : List Place) (text : List Char) : Option Place :=
  places.find? fun place => place.mark.isPrefixOf text

/-- Fill in all places at once, from left to right. -/
def fillIn (places : List Place) : List Char → List Char
  | [] => []
  | c :: rest =>
      match placeAt? places (c :: rest) with
      | some place => place.filling ++ fillIn places (rest.drop (place.mark.length - 1))
      | none => c :: fillIn places rest
termination_by text => text.length

/-- A word in braces, with no brace inside. -/
def IsBraced (mark : List Char) : Prop :=
  ∃ word, mark = '\x7b' :: (word ++ ['\x7d']) ∧ '\x7b' ∉ word ∧ '\x7d' ∉ word

variable {places : List Place} {place : Place} {text rest : List Char}

theorem placeAt?_eq_none_iff : placeAt? places text = none ↔ ∀ place ∈ places, ¬place.mark <+: text := by
  simp [placeAt?, List.find?_eq_none]

theorem mem_of_placeAt? (found : placeAt? places text = some place) : place ∈ places :=
  List.mem_of_find?_eq_some found

theorem prefix_of_placeAt? (found : placeAt? places text = some place) : place.mark <+: text := by
  have matching := List.find?_some found
  simpa using matching

theorem placeAt?_congr {other : List Char}
    (same : ∀ place ∈ places, place.mark <+: text ↔ place.mark <+: other) :
    placeAt? places text = placeAt? places other := by
  apply List.find?_congr
  intro place placeMem
  rw [Bool.eq_iff_iff, List.isPrefixOf_iff_prefix, List.isPrefixOf_iff_prefix]
  exact same place placeMem

theorem placeAt?_append (places later : List Place) (text : List Char) :
    placeAt? (places ++ later) text = (placeAt? places text).or (placeAt? later text) :=
  List.find?_append

theorem fillIn_of_none {c : Char} (absent : placeAt? places (c :: rest) = none) :
    fillIn places (c :: rest) = c :: fillIn places rest := by
  rw [fillIn, absent]

theorem fillIn_nil (text : List Char) : fillIn [] text = text := by
  induction text with
  | nil => rw [fillIn]
  | cons c rest ih =>
      have absent : placeAt? [] (c :: rest) = none := rfl
      rw [fillIn_of_none absent, ih]

theorem replaceAll_eq_fillIn (pattern replacement text : List Char) :
    replaceAll pattern replacement text = fillIn [⟨pattern, replacement⟩] text := by
  fun_induction replaceAll pattern replacement text with
  | case1 => rw [fillIn]
  | case2 c rest starts ih =>
      have found : placeAt? [⟨pattern, replacement⟩] (c :: rest) = some ⟨pattern, replacement⟩ :=
        List.find?_cons_of_pos starts
      rw [fillIn, found, ih]
  | case3 c rest starts ih =>
      have absent : placeAt? [⟨pattern, replacement⟩] (c :: rest) = none :=
        List.find?_cons_of_neg starts
      rw [fillIn_of_none absent, ih]

namespace IsBraced

variable {mark other : List Char}

theorem exists_tail (braced : IsBraced mark) : ∃ tail, mark = '\x7b' :: tail ∧ '\x7b' ∉ tail := by
  obtain ⟨word, rfl, unopened, -⟩ := braced
  exact ⟨word ++ ['\x7d'], rfl, by simp [unopened]⟩

theorem eq_of_starts (braced : IsBraced mark) (otherBraced : IsBraced other)
    (starts : mark <+: other ++ rest) : mark = other := by
  obtain ⟨word, rfl, -, unclosed⟩ := braced
  obtain ⟨otherWord, rfl, -, otherUnclosed⟩ := otherBraced
  obtain ⟨behind, textEq⟩ := starts
  simp only [List.cons_append, List.append_assoc, List.nil_append, List.cons.injEq, true_and] at textEq
  rw [(append_mark_inj unclosed otherUnclosed textEq).1]

end IsBraced

theorem prefix_append_opening_iff {front : List Char} (unopened : '\x7b' ∉ text) :
    text <+: front ++ '\x7b' :: rest ↔ text <+: front := by
  induction text generalizing front with
  | nil => simp
  | cons c text ih =>
      obtain ⟨notOpening, unopened⟩ := List.ne_and_not_mem_of_not_mem_cons unopened
      cases front with
      | nil => simp [Ne.symm notOpening]
      | cons first front => simp [List.cons_prefix_cons, ih unopened]

theorem exists_front_of_append_eq {filled front : List Char} (unopened : '\x7b' ∉ filled)
    {behind : List Char} (textEq : filled ++ rest = front ++ '\x7b' :: behind) :
    ∃ between, front = filled ++ between ∧ rest = between ++ '\x7b' :: behind := by
  rcases List.append_eq_append_iff.mp textEq with ⟨between, frontEq, restEq⟩ | ⟨overlap, filledEq, markEq⟩
  · exact ⟨between, frontEq, restEq⟩
  · cases overlap with
    | nil => exact ⟨[], by simpa using filledEq.symm, by simpa using markEq.symm⟩
    | cons first overlap =>
        obtain ⟨rfl, -⟩ := List.cons.inj markEq
        exact absurd (filledEq ▸ List.mem_append_right front List.mem_cons_self) unopened

section Braced

variable (braced : ∀ place ∈ places, IsBraced place.mark)
include braced

theorem exists_tail_of_placeAt? {c : Char} (found : placeAt? places (c :: rest) = some place) :
    ∃ tail behind, place.mark = '\x7b' :: tail ∧ c = '\x7b' ∧ rest = tail ++ behind := by
  obtain ⟨tail, markEq, -⟩ := (braced place (mem_of_placeAt? found)).exists_tail
  obtain ⟨behind, textEq⟩ := prefix_of_placeAt? found
  rw [markEq, List.cons_append, List.cons.injEq] at textEq
  exact ⟨tail, behind, markEq, textEq.1.symm, textEq.2.symm⟩

theorem eq_mark_append_of_placeAt? {c : Char} (found : placeAt? places (c :: rest) = some place) :
    c :: rest = place.mark ++ rest.drop (place.mark.length - 1) := by
  obtain ⟨tail, behind, markEq, rfl, rfl⟩ := exists_tail_of_placeAt? braced found
  simp [markEq]

theorem fillIn_place_append (found : placeAt? places (place.mark ++ rest) = some place) :
    fillIn places (place.mark ++ rest) = place.filling ++ fillIn places rest := by
  obtain ⟨tail, markEq, -⟩ := (braced place (mem_of_placeAt? found)).exists_tail
  rw [markEq, List.cons_append] at found ⊢
  rw [fillIn, found]
  simp [markEq]

theorem fillIn_append_of_unopened {front : List Char} (unopened : '\x7b' ∉ front) (rest : List Char) :
    fillIn places (front ++ rest) = front ++ fillIn places rest := by
  induction front with
  | nil => rfl
  | cons c front ih =>
      obtain ⟨notOpening, unopened⟩ := List.ne_and_not_mem_of_not_mem_cons unopened
      have absent : placeAt? places (c :: (front ++ rest)) = none := by
        rw [placeAt?_eq_none_iff]
        intro place placeMem starts
        obtain ⟨tail, markEq, -⟩ := (braced place placeMem).exists_tail
        rw [markEq, List.cons_prefix_cons] at starts
        exact notOpening starts.1
      rw [List.cons_append, fillIn_of_none absent, ih unopened, List.cons_append]

/-- No mark reaches into the next opening brace. -/
theorem fillIn_append_opening (front rest : List Char) :
    fillIn places (front ++ '\x7b' :: rest) = fillIn places front ++ fillIn places ('\x7b' :: rest) := by
  have samePlace (c : Char) (front : List Char) :
      placeAt? places (c :: (front ++ '\x7b' :: rest)) = placeAt? places (c :: front) := by
    apply placeAt?_congr
    intro place placeMem
    obtain ⟨tail, markEq, unopened⟩ := (braced place placeMem).exists_tail
    rw [markEq, List.cons_prefix_cons, List.cons_prefix_cons, prefix_append_opening_iff unopened]
  fun_induction fillIn places front with
  | case1 => rfl
  | case2 c front place found ih =>
      have longEnough : place.mark.length - 1 ≤ front.length := by
        have starts := (prefix_of_placeAt? found).length_le
        rw [List.length_cons] at starts
        omega
      rw [List.cons_append, fillIn, samePlace, found, List.append_assoc, ← ih,
        ← List.drop_append_of_le_length longEnough]
  | case3 c front absent ih =>
      rw [List.cons_append, fillIn_of_none ((samePlace c front).trans absent), ih, List.cons_append]

/-- A mark that belongs to no place stays. -/
theorem fillIn_mark_append {mark : List Char} (markBraced : IsBraced mark)
    (absent : placeAt? places (mark ++ rest) = none) :
    fillIn places (mark ++ rest) = mark ++ fillIn places rest := by
  obtain ⟨tail, rfl, unopened⟩ := markBraced.exists_tail
  rw [List.cons_append] at absent ⊢
  rw [fillIn_of_none absent, fillIn_append_of_unopened braced unopened, List.cons_append]

theorem mark_prefix_mark_append_iff {mark : List Char} (markBraced : IsBraced mark)
    (placeMem : place ∈ places) (rest : List Char) : place.mark <+: mark ++ rest ↔ place.mark = mark := by
  constructor
  · exact (braced place placeMem).eq_of_starts markBraced
  · intro markEq
    rw [markEq]
    exact List.prefix_append _ _

theorem placeAt?_mark_append {mark : List Char} (markBraced : IsBraced mark) (rest other : List Char) :
    placeAt? places (mark ++ rest) = placeAt? places (mark ++ other) := by
  apply placeAt?_congr
  intro place placeMem
  rw [mark_prefix_mark_append_iff braced markBraced placeMem,
    mark_prefix_mark_append_iff braced markBraced placeMem]

end Braced

/-- The mark is a word in braces, and what is filled in has no braces. -/
structure Place.IsPlain (place : Place) : Prop where
  braced : IsBraced place.mark
  unopened : '\x7b' ∉ place.filling
  unclosed : '\x7d' ∉ place.filling

/-- Every occurrence of the mark in the changed text is one of the text, with what is before it and what is
behind it changed on their own, and every occurrence in the text stays. -/
def KeepsMark (mark : List Char) (change : List Char → List Char) (text : List Char) : Prop :=
  ∀ front back, change text = front ++ mark ++ back ↔
    ∃ before after, text = before ++ mark ++ after ∧ change before = front ∧ change after = back

section Plain

variable (plain : ∀ place ∈ places, place.IsPlain)
include plain

theorem braced_of_plain : ∀ place ∈ places, IsBraced place.mark :=
  fun place placeMem => (plain place placeMem).braced

/-- What is filled in neither is nor holds the end of a mark. -/
theorem not_prefix_filling {word : List Char} (found : place ∈ places)
    (short : word.length < place.filling.length) : ¬word ++ ['\x7d'] <+: place.filling ++ rest := by
  intro starts
  have inside : word ++ ['\x7d'] <+: place.filling := by
    apply List.prefix_of_prefix_length_le starts (List.prefix_append _ _)
    rw [List.length_append, List.length_singleton]
    exact short
  apply (plain place found).unclosed
  apply inside.subset
  simp

theorem prefix_fillIn_iff {word : List Char} (unopened : '\x7b' ∉ word)
    (short : ∀ place ∈ places, word.length < place.filling.length) :
    word ++ ['\x7d'] <+: fillIn places text ↔ word ++ ['\x7d'] <+: text := by
  fun_induction fillIn places text generalizing word with
  | case1 => rfl
  | case2 c rest place found ih =>
      have placeMem := mem_of_placeAt? found
      obtain ⟨-, -, -, rfl, -⟩ := exists_tail_of_placeAt? (braced_of_plain plain) found
      apply iff_of_false (not_prefix_filling plain placeMem (short place placeMem))
      intro starts
      cases word with
      | nil => simp at starts
      | cons first word =>
          rw [List.cons_append, List.cons_prefix_cons] at starts
          exact unopened (starts.1 ▸ List.mem_cons_self)
  | case3 c rest absent ih =>
      cases word with
      | nil => simp
      | cons first word =>
          obtain ⟨-, unopened⟩ := List.ne_and_not_mem_of_not_mem_cons unopened
          have shorter : ∀ place ∈ places, word.length < place.filling.length := by
            intro place placeMem
            exact Nat.lt_of_succ_lt (short place placeMem)
          rw [List.cons_append, List.cons_prefix_cons, List.cons_prefix_cons, ih unopened shorter]

theorem mark_prefix_cons_fillIn_iff {mark : List Char} (braced : IsBraced mark)
    (short : ∀ place ∈ places, mark.length ≤ place.filling.length) (c : Char) :
    mark <+: c :: fillIn places text ↔ mark <+: c :: text := by
  obtain ⟨word, rfl, unopened, -⟩ := braced
  have shorter : ∀ place ∈ places, word.length < place.filling.length := by
    intro place placeMem
    have bound := short place placeMem
    simp only [List.length_cons, List.length_append] at bound
    omega
  rw [List.cons_prefix_cons, List.cons_prefix_cons, prefix_fillIn_iff plain unopened shorter]

/-- Filling in places leaves every mark where it is that belongs to none of them, and makes no new one. -/
theorem fillIn_keepsMark {mark : List Char} (markBraced : IsBraced mark)
    (short : ∀ place ∈ places, mark.length ≤ place.filling.length)
    (other : ∀ place ∈ places, place.mark ≠ mark) (text : List Char) :
    KeepsMark mark (fillIn places) text := by
  have braced := braced_of_plain plain
  have markStays (rest : List Char) : fillIn places (mark ++ rest) = mark ++ fillIn places rest := by
    apply fillIn_mark_append braced markBraced
    rw [placeAt?_eq_none_iff]
    intro place placeMem
    rw [mark_prefix_mark_append_iff braced markBraced placeMem]
    exact other place placeMem
  obtain ⟨tail, markEq, -⟩ := markBraced.exists_tail
  have opened (behind : List Char) : mark ++ behind = '\x7b' :: (tail ++ behind) := by
    rw [markEq, List.cons_append]
  intro front back
  simp only [List.append_assoc]
  constructor
  · intro changedEq
    fun_induction fillIn places text generalizing front with
    | case1 => simp [markEq] at changedEq
    | case2 c rest place found ih =>
        -- The mark is behind what was filled in, which has no opening brace.
        rw [opened] at changedEq
        obtain ⟨between, rfl, restEq⟩ :=
          exists_front_of_append_eq (plain place (mem_of_placeAt? found)).unopened changedEq
        rw [← opened] at restEq
        obtain ⟨before, after, dropEq, rfl, rfl⟩ := ih between restEq
        have textEq := eq_mark_append_of_placeAt? braced found
        have placeBraced := braced place (mem_of_placeAt? found)
        rw [textEq, placeAt?_mark_append braced placeBraced _ before] at found
        refine ⟨place.mark ++ before, after, ?_, fillIn_place_append braced found, rfl⟩
        rw [textEq, dropEq, List.append_assoc]
    | case3 c rest absent ih =>
        cases front with
        | nil =>
            have starts : mark <+: c :: fillIn places rest := changedEq ▸ List.prefix_append mark back
            rw [mark_prefix_cons_fillIn_iff plain markBraced short] at starts
            obtain ⟨after, textEq⟩ := starts
            refine ⟨[], after, textEq.symm, by rw [fillIn], ?_⟩
            rw [← fillIn_of_none absent, ← textEq, markStays] at changedEq
            exact List.append_cancel_left changedEq
        | cons first front =>
            obtain ⟨rfl, restEq⟩ := List.cons.inj changedEq
            obtain ⟨before, after, rfl, rfl, rfl⟩ := ih front restEq
            have absentBefore : placeAt? places (c :: before) = none := by
              rw [placeAt?_eq_none_iff] at absent ⊢
              intro place placeMem starts
              exact absent place placeMem (starts.trans (List.prefix_append (c :: before) _))
            exact ⟨c :: before, after, rfl, fillIn_of_none absentBefore, rfl⟩
  · rintro ⟨before, after, rfl, rfl, rfl⟩
    rw [opened, fillIn_append_opening braced, ← opened, markStays]

theorem fillIn_fillIn {later : List Place} (laterBraced : ∀ place ∈ later, IsBraced place.mark)
    (short : ∀ place ∈ places, ∀ other ∈ later, other.mark.length ≤ place.filling.length)
    (text : List Char) : fillIn later (fillIn places text) = fillIn (places ++ later) text := by
  have braced := braced_of_plain plain
  fun_induction fillIn (places ++ later) text with
  | case1 => rw [fillIn, fillIn]
  | case2 c rest place found ih =>
      rw [placeAt?_append, Option.or_eq_some_iff] at found
      rcases found with early | ⟨absent, late⟩
      · rw [fillIn, early]
        dsimp only
        rw [fillIn_append_of_unopened laterBraced (plain place (mem_of_placeAt? early)).unopened, ih]
      · have placeBraced := laterBraced place (mem_of_placeAt? late)
        have textEq := eq_mark_append_of_placeAt? laterBraced late
        rw [textEq] at absent late ⊢
        rw [placeAt?_mark_append laterBraced placeBraced] at late
        rw [fillIn_mark_append braced placeBraced absent, fillIn_place_append laterBraced late, ih]
  | case3 c rest absent ih =>
      rw [placeAt?_append, Option.or_eq_none_iff] at absent
      obtain ⟨absent, laterAbsent⟩ := absent
      have stillAbsent : placeAt? later (c :: fillIn places rest) = none := by
        rw [placeAt?_eq_none_iff] at laterAbsent ⊢
        intro place placeMem
        rw [mark_prefix_cons_fillIn_iff plain (laterBraced place placeMem)
          (fun early earlyMem => short early earlyMem place placeMem)]
        exact laterAbsent place placeMem
      rw [fillIn_of_none absent, fillIn_of_none stillAbsent, ih]

/-- Filling in the places one after the other fills in all of them at once. -/
theorem foldl_replaceAll_eq_fillIn
    (short : ∀ place ∈ places, ∀ other ∈ places, other.mark.length ≤ place.filling.length)
    (text : List Char) :
    places.foldl (fun text place => replaceAll place.mark place.filling text) text =
      fillIn places text := by
  induction places using List.reverseRecOn with
  | nil => rw [List.foldl_nil, fillIn_nil]
  | append_singleton places place ih =>
      obtain ⟨plain, lastPlain⟩ := List.forall_mem_append.mp plain
      have earlier {early : Place} (earlyMem : early ∈ places) : early ∈ places ++ [place] :=
        List.mem_append_left _ earlyMem
      rw [List.foldl_concat, replaceAll_eq_fillIn, ih plain]
      · apply fillIn_fillIn plain
        · intro last lastMem
          exact (lastPlain last lastMem).braced
        · intro early earlyMem last lastMem
          exact short early (earlier earlyMem) last (List.mem_append_right _ lastMem)
      · intro early earlyMem other otherMem
        exact short early (earlier earlyMem) other (earlier otherMem)

end Plain

theorem replaceAll_keepsMark {mark : List Char} (plain : place.IsPlain) (braced : IsBraced mark)
    (short : mark.length ≤ place.filling.length) (other : place.mark ≠ mark) (text : List Char) :
    KeepsMark mark (replaceAll place.mark place.filling) text := by
  have sameChange : replaceAll place.mark place.filling = fillIn [place] :=
    funext (replaceAll_eq_fillIn place.mark place.filling)
  rw [sameChange]
  apply fillIn_keepsMark _ braced
  · simpa using short
  · simpa using other
  · simpa using plain

end OpcodeTable.Text
