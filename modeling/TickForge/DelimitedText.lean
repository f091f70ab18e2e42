import Mathlib.Data.List.DropRight
import Mathlib.Tactic.Common

/-!
# Blank-padded, delimited sequences

Trimming drops the blanks at both ends of a sequence and nothing else, so it
forgets padding; splitting at a separator that is no blank commutes with it.
Words are what stands between blanks, lines what stands before the breaks; both
are found again in a text put together from them. The alphabet, the blanks and the separator are arbitrary.
-/

namespace TickForge.DelimitedText

set_option autoImplicit false

variable {Letter : Type*} (blank : Letter → Bool)

def trimmed (text : List Letter) : List Letter := (text.dropWhile blank).rdropWhile blank

section Trimming

theorem trimmed_eq_nil_iff (text : List Letter) :
    trimmed blank text = [] ↔ ∀ letter ∈ text, blank letter = true := by
  rw [trimmed, List.rdropWhile_eq_nil_iff]
  constructor
  · intro allBlank
    have none : text.dropWhile blank = [] := by
      by_contra kept
      have first := List.head_dropWhile_not blank kept
      rw [allBlank _ (List.head_mem kept)] at first
      cases first
    exact List.dropWhile_eq_nil_iff.mp none
  · intro allBlank letter kept
    exact allBlank letter ((List.dropWhile_suffix blank).subset kept)

/-- Padding in front is dropped. -/
theorem trimmed_append_left (padding text : List Letter)
    (allBlank : ∀ letter ∈ padding, blank letter = true) :
    trimmed blank (padding ++ text) = trimmed blank text := by
  induction padding with
  | nil => rfl
  | cons letter rest ih =>
      have first := allBlank letter List.mem_cons_self
      rw [List.cons_append, trimmed, List.dropWhile_cons_of_pos first]
      exact ih fun other listed => allBlank other (List.mem_cons_of_mem _ listed)

theorem rdropWhile_append_right (text padding : List Letter)
    (allBlank : ∀ letter ∈ padding, blank letter = true) :
    (text ++ padding).rdropWhile blank = text.rdropWhile blank := by
  induction padding using List.reverseRecOn with
  | nil => rw [List.append_nil]
  | append_singleton rest letter ih =>
      have last := allBlank letter (by simp)
      rw [← List.append_assoc, List.rdropWhile_concat_pos _ _ _ last]
      exact ih fun other listed => allBlank other (List.mem_append_left _ listed)

/-- Padding behind is dropped. -/
theorem trimmed_append_right (text padding : List Letter)
    (allBlank : ∀ letter ∈ padding, blank letter = true) :
    trimmed blank (text ++ padding) = trimmed blank text := by
  by_cases empty : text.dropWhile blank = []
  · have textBlank := List.dropWhile_eq_nil_iff.mp empty
    have wholeBlank : ∀ letter ∈ text ++ padding, blank letter = true := by
      intro letter listed
      exact (List.mem_append.mp listed).elim (textBlank letter) (allBlank letter)
    rw [(trimmed_eq_nil_iff blank _).mpr wholeBlank, (trimmed_eq_nil_iff blank _).mpr textBlank]
  · have split : (text ++ padding).dropWhile blank = text.dropWhile blank ++ padding := by
      rw [List.dropWhile_append, if_neg (by simpa using empty)]
    rw [trimmed, split, rdropWhile_append_right blank _ _ allBlank]
    rfl

/-- A sequence without blanks is left alone. -/
theorem trimmed_of_no_blank (text : List Letter)
    (noBlank : ∀ letter ∈ text, blank letter = false) : trimmed blank text = text := by
  have kept : text.dropWhile blank = text := by
    cases text with
    | nil => rfl
    | cons letter rest =>
        exact List.dropWhile_cons_of_neg (by simp [noBlank letter List.mem_cons_self])
  rw [trimmed, kept, List.rdropWhile_eq_self_iff]
  intro nonempty
  simp [noBlank _ (List.getLast_mem nonempty)]

theorem trimmed_padded (before text after : List Letter)
    (blankBefore : ∀ letter ∈ before, blank letter = true)
    (noBlank : ∀ letter ∈ text, blank letter = false)
    (blankAfter : ∀ letter ∈ after, blank letter = true) :
    trimmed blank (before ++ text ++ after) = text := by
  rw [trimmed_append_right blank _ _ blankAfter, trimmed_append_left blank _ _ blankBefore,
    trimmed_of_no_blank blank text noBlank]

/-- What trimming drops is blank on both sides. -/
theorem trimmed_decomposition (text : List Letter) :
    ∃ before after, text = before ++ trimmed blank text ++ after ∧
      (∀ letter ∈ before, blank letter = true) ∧ (∀ letter ∈ after, blank letter = true) := by
  refine ⟨text.takeWhile blank, (text.dropWhile blank).rtakeWhile blank, ?_, ?_, ?_⟩
  · rw [trimmed, List.append_assoc, List.rdropWhile_append_rtakeWhile,
      List.takeWhile_append_dropWhile]
  · intro letter taken
    exact List.mem_takeWhile_imp taken
  · intro letter taken
    exact List.mem_rtakeWhile_imp taken

end Trimming

section Splitting

variable [DecidableEq Letter] (separator : Letter)

theorem split_pieces_free (text : List Letter) :
    ∀ piece ∈ text.splitOn separator, separator ∉ piece := by
  induction text with
  | nil => simp
  | cons letter rest ih =>
      rw [List.splitOn_cons_eq_if_modifyHead]
      split_ifs with cut
      · simpa using ih
      · cases split : rest.splitOn separator with
        | nil => simp
        | cons piece others =>
            rw [split, List.forall_mem_cons] at ih
            rw [List.modifyHead_cons, List.forall_mem_cons, List.mem_cons, not_or]
            refine ⟨⟨fun same => cut (by simp [same]), ih.1⟩, ih.2⟩

omit [DecidableEq Letter] in
theorem joined_avoids (other : Letter) (apart : other ≠ separator) (pieces : List (List Letter))
    (absent : ∀ piece ∈ pieces, other ∉ piece) : other ∉ [separator].intercalate pieces := by
  induction pieces with
  | nil => simp
  | cons piece rest ih =>
      rw [List.forall_mem_cons] at absent
      cases rest with
      | nil => simpa using absent.1
      | cons next others =>
          rw [List.intercalate_cons_cons]
          simp only [List.mem_append, List.mem_singleton, not_or]
          exact ⟨⟨absent.1, apart⟩, ih absent.2⟩

theorem split_append_left (padding text : List Letter) (absent : separator ∉ padding) :
    (padding ++ text).splitOn separator =
      (text.splitOn separator).modifyHead (padding ++ ·) := by
  induction padding with
  | nil =>
      rw [List.nil_append]
      cases text.splitOn separator <;> rfl
  | cons letter rest ih =>
      have apart : letter ≠ separator := fun same => absent (same ▸ List.mem_cons_self)
      rw [List.cons_append, List.splitOn_cons_eq_if_modifyHead, if_neg (by simpa using apart),
        ih fun listed => absent (List.mem_cons_of_mem _ listed)]
      cases text.splitOn separator <;> rfl

/-- What follows the text stays in its last piece. -/
theorem split_append_right (text padding : List Letter) (absent : separator ∉ padding) :
    ∃ pieces last, text.splitOn separator = pieces ++ [last] ∧
      (text ++ padding).splitOn separator = pieces ++ [last ++ padding] := by
  induction text with
  | nil => exact ⟨[], [], rfl, List.splitOn_eq_singleton absent⟩
  | cons letter rest ih =>
      obtain ⟨pieces, last, before, after⟩ := ih
      rw [List.cons_append, List.splitOn_cons_eq_if_modifyHead,
        List.splitOn_cons_eq_if_modifyHead, before, after]
      by_cases cut : letter == separator
      · rw [if_pos cut, if_pos cut]
        exact ⟨[] :: pieces, last, rfl, rfl⟩
      · rw [if_neg cut, if_neg cut]
        cases pieces with
        | nil => exact ⟨[], letter :: last, rfl, rfl⟩
        | cons piece others => exact ⟨(letter :: piece) :: others, last, rfl, rfl⟩

/-- Trimming the whole first changes no trimmed piece. -/
theorem split_trimmed (solid : blank separator = false) (text : List Letter) :
    ((trimmed blank text).splitOn separator).map (trimmed blank) =
      (text.splitOn separator).map (trimmed blank) := by
  have absent : ∀ padding : List Letter, (∀ letter ∈ padding, blank letter = true) →
      separator ∉ padding := by
    intro padding allBlank listed
    rw [allBlank separator listed] at solid
    cases solid
  obtain ⟨before, after, whole, blankBefore, blankAfter⟩ := trimmed_decomposition blank text
  obtain ⟨pieces, last, split, padded⟩ :=
    split_append_right separator (before ++ trimmed blank text) after (absent after blankAfter)
  have behind : (text.splitOn separator).map (trimmed blank) =
      ((before ++ trimmed blank text).splitOn separator).map (trimmed blank) := by
    conv_lhs => rw [whole]
    rw [split, padded]
    simp only [List.map_append, List.map_cons, trimmed_append_right blank _ _ blankAfter]
  rw [behind, split_append_left separator before _ (absent before blankBefore)]
  cases (trimmed blank text).splitOn separator with
  | nil => rfl
  | cons piece others =>
      simp only [List.modifyHead_cons, List.map_cons,
        trimmed_append_left blank _ _ blankBefore]

end Splitting

section Words

/-- The words of a text: runs of blanks separate, none is empty. -/
def words (text : List Letter) : List (List Letter) :=
  (text.splitOnP blank).filter fun word => !word.isEmpty

theorem split_spaced (separator : Letter) (separates : blank separator = true)
    (first : List Letter) (tokens : List (List Letter))
    (firstSolid : ∀ letter ∈ first, blank letter = false)
    (solid : ∀ token ∈ tokens, ∀ letter ∈ token, blank letter = false) :
    (first ++ tokens.flatMap (separator :: ·)).splitOnP blank = first :: tokens := by
  induction tokens generalizing first with
  | nil =>
      rw [List.flatMap_nil, List.append_nil]
      exact List.splitOnP_eq_singleton firstSolid
  | cons token rest ih =>
      rw [List.forall_mem_cons] at solid
      rw [List.flatMap_cons, List.cons_append,
        List.splitOnP_append_cons_of_forall_mem firstSolid _ separates, ih token solid.1 solid.2]

/-- Words with a separator put before each are found again. -/
theorem words_spaced (separator : Letter) (separates : blank separator = true)
    (tokens : List (List Letter)) (nonempty : ∀ token ∈ tokens, token ≠ [])
    (solid : ∀ token ∈ tokens, ∀ letter ∈ token, blank letter = false) :
    words blank (tokens.flatMap (separator :: ·)) = tokens := by
  have split := split_spaced blank separator separates [] tokens (by simp) solid
  rw [List.nil_append] at split
  rw [words, split, List.filter_cons_of_neg (by simp), List.filter_eq_self]
  intro token listed
  simpa using nonempty token listed

theorem words_append (before after : List Letter) (separator : Letter)
    (separates : blank separator = true) :
    words blank (before ++ separator :: after) = words blank before ++ words blank after := by
  rw [words, List.splitOnP_append_cons _ _ separates, List.filter_append]
  rfl

theorem words_of_blanks (text : List Letter) (allBlank : ∀ letter ∈ text, blank letter = true) :
    words blank text = [] := by
  induction text with
  | nil => rfl
  | cons letter rest ih =>
      rw [List.forall_mem_cons] at allBlank
      have split := words_append blank [] rest letter allBlank.1
      rw [List.nil_append, ih allBlank.2] at split
      exact split

theorem words_padded (before text after : List Letter)
    (blankBefore : ∀ letter ∈ before, blank letter = true)
    (blankAfter : ∀ letter ∈ after, blank letter = true) :
    words blank (before ++ text ++ after) = words blank text := by
  induction before with
  | nil =>
      rw [List.nil_append]
      cases after with
      | nil => rw [List.append_nil]
      | cons letter rest =>
          rw [List.forall_mem_cons] at blankAfter
          rw [words_append blank text rest letter blankAfter.1,
            words_of_blanks blank rest blankAfter.2, List.append_nil]
  | cons letter rest ih =>
      rw [List.forall_mem_cons] at blankBefore
      have split := words_append blank [] (rest ++ text ++ after) letter blankBefore.1
      rw [List.nil_append, ih blankBefore.2] at split
      exact split

/-- Trimming takes no word away. -/
theorem words_trimmed (text : List Letter) : words blank (trimmed blank text) = words blank text := by
  rcases trimmed_decomposition blank text with ⟨before, after, whole, blankBefore, blankAfter⟩
  have padded := words_padded blank before (trimmed blank text) after blankBefore blankAfter
  rw [← whole] at padded
  exact padded.symm

end Words

section Lines

variable (breaks : Letter → Bool)

/-- The lines of a text; a break ends a line and nothing follows the last one. -/
def linesOf (text : List Letter) : List (List Letter) :=
  let pieces := text.splitOnP breaks
  if (pieces.getLast?.getD []).isEmpty then pieces.dropLast else pieces

theorem split_terminated (terminator : Letter) (ends : breaks terminator = true)
    (lines : List (List Letter)) (unbroken : ∀ line ∈ lines, ∀ letter ∈ line, breaks letter = false) :
    (lines.flatMap (· ++ [terminator])).splitOnP breaks = lines ++ [[]] := by
  induction lines with
  | nil => rfl
  | cons line rest ih =>
      rw [List.forall_mem_cons] at unbroken
      rw [List.flatMap_cons, List.append_assoc, List.singleton_append,
        List.splitOnP_append_cons_of_forall_mem unbroken.1 _ ends, ih unbroken.2, List.cons_append]

/-- Lines that were ended one by one are found again. -/
theorem lines_of_terminated (terminator : Letter) (ends : breaks terminator = true)
    (lines : List (List Letter)) (unbroken : ∀ line ∈ lines, ∀ letter ∈ line, breaks letter = false) :
    linesOf breaks (lines.flatMap (· ++ [terminator])) = lines := by
  rw [linesOf, split_terminated breaks terminator ends lines unbroken]
  simp

/-- The lines of a text with the letter that ends them; the last one may lack it. -/
def keptLines [DecidableEq Letter] (terminator : Letter) (text : List Letter) :
    List (List Letter) :=
  let pieces := text.splitOnP (· == terminator)
  let last := pieces.getLast?.getD []
  pieces.dropLast.map (· ++ [terminator]) ++ if last.isEmpty then [] else [last]

theorem kept_lines_of_terminated [DecidableEq Letter] (terminator : Letter)
    (lines : List (List Letter)) (absent : ∀ line ∈ lines, terminator ∉ line) :
    keptLines terminator (lines.flatMap (· ++ [terminator])) = lines.map (· ++ [terminator]) := by
  have unbroken : ∀ line ∈ lines, ∀ letter ∈ line, (letter == terminator) = false := by
    intro line listed letter inside
    exact beq_eq_false_iff_ne.mpr fun same => absent line listed (same ▸ inside)
  rw [keptLines, split_terminated (· == terminator) terminator (beq_self_eq_true _) lines unbroken]
  simp

end Lines

end TickForge.DelimitedText
