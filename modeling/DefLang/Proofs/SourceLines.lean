import DefLang.Proofs.SnippetPlaces
import Mathlib.Data.List.DropRight

/-!
# The lines of a source

A place divides its source into four parts: the earlier lines with their line
feeds, the two halves of the line that holds it, and the later lines. From these
parts the number of the line is seen to be its position among the pieces between
line feeds, and a character that is neither a line feed nor a carriage return is
still in its place after the carriage returns at the end are removed.
-/
namespace DefLang.Snippet

open Text

/-- Whether a character may stand inside a line. -/
def inLine (character : Char) : Bool := character ≠ '\n'

theorem lastLine_eq_rtakeWhile (text : List Char) : lastLine text = text.rtakeWhile inLine := rfl

theorem firstLine_eq_takeWhile (text : List Char) : firstLine text = text.takeWhile inLine := rfl

theorem newline_notMem_firstLine (text : List Char) : '\n' ∉ firstLine text := by
  intro member
  have inside := List.mem_takeWhile_imp member
  simp at inside

theorem newline_notMem_lastLine (text : List Char) : '\n' ∉ lastLine text := by
  intro member
  have inside := List.mem_takeWhile_imp (List.mem_reverse.mp member)
  simp at inside

/-- The lines of a text before its last line, with their line feeds. -/
def earlierLines (text : List Char) : List Char := text.rdropWhile inLine

/-- What follows the first line of a text, from its line feed on. -/
def laterLines (text : List Char) : List Char := text.dropWhile inLine

theorem earlierLines_append_lastLine (text : List Char) :
    earlierLines text ++ lastLine text = text := by
  rw [lastLine_eq_rtakeWhile]
  exact List.rdropWhile_append_rtakeWhile

theorem firstLine_append_laterLines (text : List Char) :
    firstLine text ++ laterLines text = text := by
  rw [firstLine_eq_takeWhile]
  exact List.takeWhile_append_dropWhile

/-- The parts into which a place divides its source. -/
theorem append_line_append (before after : List Char) :
    earlierLines before ++ (lastLine before ++ firstLine after) ++ laterLines after =
      before ++ after := by
  rw [← List.append_assoc, earlierLines_append_lastLine, List.append_assoc,
    firstLine_append_laterLines]

theorem count_newline_earlierLines (text : List Char) :
    (earlierLines text).count '\n' = text.count '\n' := by
  have counted := congrArg (List.count '\n') (earlierLines_append_lastLine text)
  rwa [List.count_append, List.count_eq_zero.mpr (newline_notMem_lastLine text),
    Nat.add_zero] at counted

theorem earlierLines_eq (text : List Char) :
    earlierLines text = [] ∨ ∃ lines, earlierLines text = lines ++ ['\n'] := by
  rcases List.eq_nil_or_concat' (earlierLines text) with empty | ⟨lines, last, ended⟩
  · exact Or.inl empty
  · have nonempty : text.rdropWhile inLine ≠ [] := by
      change earlierLines text ≠ []
      simp [ended]
    have outside := List.rdropWhile_last_not inLine text nonempty
    have isLast : (text.rdropWhile inLine).getLast nonempty = last := by
      apply List.getLast_of_getLast?_eq_some
      change (earlierLines text).getLast? = some last
      simp [ended]
    rw [isLast] at outside
    obtain rfl : last = '\n' := by simpa [inLine] using outside
    exact Or.inr ⟨lines, ended⟩

theorem laterLines_eq (text : List Char) :
    laterLines text = [] ∨ ∃ lines, laterLines text = '\n' :: lines := by
  have outside := List.head?_dropWhile_not inLine text
  rw [← laterLines] at outside
  cases rest : laterLines text with
  | nil => exact Or.inl rfl
  | cons first lines =>
      rw [rest] at outside
      obtain rfl : first = '\n' := by simpa [inLine] using outside
      exact Or.inr ⟨lines, rfl⟩

theorem length_splitOn (text : List Char) :
    (text.splitOn '\n').length = text.count '\n' + 1 := by
  induction text with
  | nil => simp
  | cons character rest inductionHypothesis =>
      rw [List.splitOn_cons_eq_if_modifyHead]
      by_cases newline : character = '\n'
      · simp [newline, inductionHypothesis]
      · simp [newline, inductionHypothesis]

/-- The line that holds a place is found by its number among the pieces of the
source between line feeds. -/
theorem getElem?_splitOn_append (before after : List Char) :
    ((before ++ after).splitOn '\n')[before.count '\n']? =
      some (lastLine before ++ firstLine after) := by
  have inside : '\n' ∉ lastLine before ++ firstLine after := by
    simp only [List.mem_append, not_or]
    exact ⟨newline_notMem_lastLine before, newline_notMem_firstLine after⟩
  have isFirst : (((lastLine before ++ firstLine after) ++ laterLines after).splitOn '\n')[0]? =
      some (lastLine before ++ firstLine after) := by
    rcases laterLines_eq after with none | ⟨lines, some⟩
    · rw [none, List.append_nil, List.splitOn_eq_singleton inside]
      rfl
    · rw [some, List.splitOn_append_cons_self_of_not_mem inside]
      rfl
  rw [← append_line_append, ← count_newline_earlierLines, List.append_assoc]
  rcases earlierLines_eq before with none | ⟨lines, some⟩
  · rw [none, List.nil_append, List.count_nil]
    exact isFirst
  · have number : (lines ++ ['\n']).count '\n' = (lines.splitOn '\n').length := by
      rw [length_splitOn]
      simp
    rw [some, number, List.append_assoc, List.singleton_append, List.splitOn_append_cons_self,
      List.getElem?_append_right (Nat.le_refl _), Nat.sub_self]
    exact isFirst

section Returns

variable (text : List Char)

theorem trimReturns_eq_rdropWhile : trimReturns text = text.rdropWhile (· = '\r') := rfl

/-- Only carriage returns are removed, and all of them. -/
theorem exists_trimReturns_append :
    ∃ returns, trimReturns text ++ List.replicate returns '\r' = text := by
  have run : text.rtakeWhile (· = '\r') =
      List.replicate (text.rtakeWhile (· = '\r')).length '\r' := by
    apply List.eq_replicate_of_mem
    intro character member
    simpa using List.mem_rtakeWhile_imp member
  refine ⟨(text.rtakeWhile (· = '\r')).length, ?_⟩
  rw [← run, trimReturns_eq_rdropWhile]
  exact List.rdropWhile_append_rtakeWhile

theorem getLast?_trimReturns : (trimReturns text).getLast? ≠ some '\r' := by
  intro isReturn
  rw [trimReturns_eq_rdropWhile] at isReturn
  have nonempty : text.rdropWhile (· = '\r') ≠ [] := by
    rintro empty
    simp [empty] at isReturn
  have noReturn := List.rdropWhile_last_not (· = '\r') text nonempty
  simp [List.getLast_of_getLast?_eq_some isReturn] at noReturn

/-- A character that is no carriage return keeps its place. -/
theorem getElem?_trimReturns {index : Nat} {character : Char}
    (found : text[index]? = some character) (noReturn : character ≠ '\r') :
    (trimReturns text)[index]? = some character := by
  obtain ⟨returns, joined⟩ := exists_trimReturns_append text
  rw [← joined] at found
  by_cases kept : index < (trimReturns text).length
  · rwa [List.getElem?_append_left kept] at found
  · rw [List.getElem?_append_right (by omega)] at found
    have removed := List.mem_of_getElem? found
    exact absurd (List.eq_of_mem_replicate removed) noReturn

end Returns

end DefLang.Snippet
