import Mathlib.Data.List.Basic
import OpcodeTable.Text.Words

/-!
# Cutting texts

Cutting a text at every mark and joining the pieces with the mark again are inverse to each other, as
long as no piece holds the mark. Cutting at the first mark only leaves a front without the mark.
-/

namespace OpcodeTable.Text

variable {mark : Char}

private theorem extendFirst_eq_modifyHead (c : Char) {parts : List (List Char)} (nonempty : parts ≠ []) :
    extendFirst c parts = parts.modifyHead (c :: ·) := by
  cases parts with
  | nil => exact absurd rfl nonempty
  | cons part rest => rfl

theorem pieces_eq_splitOnP (separates : Char → Bool) (text : List Char) :
    pieces separates text = text.splitOnP separates := by
  induction text with
  | nil => rw [pieces, List.splitOnP_nil]
  | cons c rest ih =>
      rw [pieces, List.splitOnP_cons_eq_if_modifyHead, ih,
        extendFirst_eq_modifyHead c (List.splitOnP_ne_nil separates rest)]

theorem pieces_congr {separates cuts : Char → Bool} {text : List Char}
    (same : ∀ c ∈ text, separates c = cuts c) : pieces separates text = pieces cuts text := by
  induction text with
  | nil => rfl
  | cons c rest ih =>
      obtain ⟨sameFirst, sameRest⟩ := List.forall_mem_cons.mp same
      rw [pieces, pieces, sameFirst, ih sameRest]

theorem intercalate_pieces (mark : Char) (text : List Char) :
    [mark].intercalate (pieces (· == mark) text) = text := by
  rw [pieces_eq_splitOnP]
  exact List.intercalate_splitOn mark

theorem pieces_intercalate {parts : List (List Char)} (nonempty : parts ≠ [])
    (unmarked : ∀ part ∈ parts, mark ∉ part) :
    pieces (· == mark) ([mark].intercalate parts) = parts := by
  rw [pieces_eq_splitOnP]
  exact List.splitOn_intercalate mark unmarked nonempty

theorem pieces_append_mark (mark : Char) (front back : List Char) :
    pieces (· == mark) (front ++ mark :: back) =
      pieces (· == mark) front ++ pieces (· == mark) back := by
  induction front with
  | nil => simp [pieces]
  | cons c rest ih =>
      rw [List.cons_append, pieces, pieces, ih]
      split_ifs
      · rfl
      · cases parts : pieces (· == mark) rest with
        | nil => exact absurd (pieces_eq_splitOnP _ rest ▸ parts) (List.splitOnP_ne_nil _ rest)
        | cons part others => rfl

theorem pieces_of_not_mem {text : List Char} (unmarked : mark ∉ text) :
    pieces (· == mark) text = [text] := by
  have whole : pieces (· == mark) ([mark].intercalate [text]) = [text] :=
    pieces_intercalate (List.cons_ne_nil text []) (by simpa using unmarked)
  simpa using whole

theorem mem_intercalate {c : Char} {marks : List Char} {parts : List (List Char)}
    (cMem : c ∈ marks.intercalate parts) : c ∈ marks ∨ ∃ part ∈ parts, c ∈ part := by
  induction parts with
  | nil => cases cMem
  | cons part rest ih =>
      cases rest with
      | nil => exact .inr ⟨part, List.mem_cons_self, by simpa using cMem⟩
      | cons next rest =>
          rw [List.intercalate_cons_cons, List.mem_append, List.mem_append] at cMem
          rcases cMem with (here | isMark) | later
          · exact .inr ⟨part, List.mem_cons_self, here⟩
          · exact .inl isMark
          · exact (ih later).imp_right fun ⟨found, foundMem, cFound⟩ =>
              ⟨found, List.mem_cons_of_mem part foundMem, cFound⟩

theorem prefix_intercalate (mark : Char) (part : List Char) (rest : List (List Char)) :
    part <+: [mark].intercalate (part :: rest) := by
  cases rest with
  | nil => simp
  | cons next rest =>
      rw [List.intercalate_cons_cons, List.append_assoc]
      exact List.prefix_append part _

/-- Words that were joined by single spaces are found again. -/
theorem words_intercalate {parts : List (List Char)} (nonempty : ∀ part ∈ parts, part ≠ [])
    (unblank : ∀ part ∈ parts, ∀ c ∈ part, isBlank c = false) :
    words ([' '].intercalate parts) = parts := by
  have spaceOnly : ∀ c ∈ [' '].intercalate parts, isBlank c = (c == ' ') := by
    intro c cMem
    rcases mem_intercalate cMem with isSpace | ⟨part, partMem, inPart⟩
    · rw [List.mem_singleton.mp isSpace]
      rfl
    · have notBlank := unblank part partMem c inPart
      have notSpace : c ≠ ' ' := by
        rintro rfl
        cases notBlank
      rw [notBlank, beq_eq_false_iff_ne.mpr notSpace]
  have unmarked : ∀ part ∈ parts, ' ' ∉ part := by
    intro part partMem spaceMem
    cases unblank part partMem ' ' spaceMem
  rw [words, nonemptyPieces, pieces_congr spaceOnly]
  cases parts with
  | nil => rfl
  | cons part rest =>
      rw [pieces_intercalate (List.cons_ne_nil part rest) unmarked, List.filter_eq_self]
      intro word wordMem
      simpa using nonempty word wordMem

private theorem intercalate_comma (part : List Char) (rest : List (List Char)) :
    [',', ' '].intercalate (part :: rest) = [','].intercalate (part :: rest.map (' ' :: ·)) := by
  induction rest generalizing part with
  | nil => rfl
  | cons next rest ih =>
      rw [List.intercalate_cons_cons, List.map_cons, List.intercalate_cons_cons, ih,
        List.intercalate_cons_cons_left]
      simp

/-- Texts without comma that were joined by commas can be taken apart again. -/
theorem join_comma_inj {texts others : List String} (nonempty : texts ≠ []) (othersNonempty : others ≠ [])
    (unmarked : ∀ text ∈ texts, ',' ∉ text.toList) (othersUnmarked : ∀ text ∈ others, ',' ∉ text.toList)
    (same : ", ".intercalate texts = ", ".intercalate others) : texts = others := by
  have pieces_join {text : String} {rest : List String}
      (unmarked : ∀ other ∈ text :: rest, ',' ∉ other.toList) :
      pieces (· == ',') (", ".intercalate (text :: rest)).toList =
        text.toList :: rest.map fun other => ' ' :: other.toList := by
    rw [String.toList_intercalate, List.map_cons]
    refine (congrArg _ (intercalate_comma _ _)).trans ?_
    rw [pieces_intercalate (List.cons_ne_nil _ _), List.map_map]
    · rfl
    · simpa using unmarked
  cases texts with
  | nil => exact absurd rfl nonempty
  | cons text rest =>
      cases others with
      | nil => exact absurd rfl othersNonempty
      | cons other otherRest =>
          have samePieces := congrArg (fun joined => pieces (· == ',') joined.toList) same
          simp only [pieces_join unmarked, pieces_join othersUnmarked, List.cons.injEq] at samePieces
          have restEq : rest = otherRest := by
            apply List.map_injective_iff.mpr _ samePieces.2
            intro first second charsEq
            exact String.toList_inj.mp (List.cons.inj charsEq).2
          rw [String.toList_inj.mp samePieces.1, restEq]

theorem cutAt?_eq_some_iff {text before after : List Char} :
    cutAt? mark text = some (before, after) ↔ mark ∉ before ∧ text = before ++ mark :: after := by
  induction text generalizing before with
  | nil => simp [cutAt?]
  | cons c rest ih =>
      rw [cutAt?]
      by_cases found : c = mark
      · subst found
        rw [if_pos rfl]
        constructor
        · intro cut
          obtain ⟨rfl, rfl⟩ := Prod.mk.inj (Option.some.inj cut)
          exact ⟨List.not_mem_nil, rfl⟩
        · rintro ⟨unmarked, textEq⟩
          cases before with
          | nil =>
              obtain ⟨_, rfl⟩ := List.cons.inj textEq
              rfl
          | cons first before =>
              obtain ⟨rfl, _⟩ := List.cons.inj textEq
              exact absurd List.mem_cons_self unmarked
      · rw [if_neg found]
        constructor
        · intro cut
          obtain ⟨⟨front, back⟩, restCut, pairEq⟩ := Option.map_eq_some_iff.mp cut
          obtain ⟨rfl, rfl⟩ := Prod.mk.inj pairEq
          obtain ⟨unmarked, rfl⟩ := ih.mp restCut
          exact ⟨by simpa [Ne.symm found] using unmarked, rfl⟩
        · rintro ⟨unmarked, textEq⟩
          cases before with
          | nil => exact absurd (List.cons.inj textEq).1 found
          | cons first before =>
              obtain ⟨rfl, rfl⟩ := List.cons.inj textEq
              rw [ih.mpr ⟨fun marked => unmarked (List.mem_cons_of_mem c marked), rfl⟩]
              rfl

/-- Where the first mark is, a text can be taken apart in one way only. -/
theorem append_mark_inj {front back otherFront otherBack : List Char} (unmarked : mark ∉ front)
    (otherUnmarked : mark ∉ otherFront) (same : front ++ mark :: back = otherFront ++ mark :: otherBack) :
    front = otherFront ∧ back = otherBack := by
  have cut : cutAt? mark (front ++ mark :: back) = some (front, back) :=
    cutAt?_eq_some_iff.mpr ⟨unmarked, rfl⟩
  have otherCut := cutAt?_eq_some_iff.mpr ⟨otherUnmarked, same⟩
  exact Prod.mk.inj (Option.some.inj (cut.symm.trans otherCut))

/-- Where the last mark is, a text can be taken apart in one way only. -/
theorem append_last_mark_inj {front back otherFront otherBack : List Char} (unmarked : mark ∉ back)
    (otherUnmarked : mark ∉ otherBack) (same : front ++ mark :: back = otherFront ++ mark :: otherBack) :
    front = otherFront ∧ back = otherBack := by
  have reversed := congrArg List.reverse same
  simp only [List.reverse_append, List.reverse_cons, List.append_assoc, List.singleton_append] at reversed
  obtain ⟨backEq, frontEq⟩ := append_mark_inj (by simpa using unmarked) (by simpa using otherUnmarked)
    reversed
  exact ⟨List.reverse_inj.mp frontEq, List.reverse_inj.mp backEq⟩

end OpcodeTable.Text
