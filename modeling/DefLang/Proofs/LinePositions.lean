import DefLang.Proofs.ByteSlices
import Mathlib.Algebra.GroupWithZero.Nat
import Mathlib.Data.Prod.Lex

/-!
# Lines and columns name offsets

A snippet names a place by a line and a column. The lines of a source follow each
other without a gap: each ends with its line feed, right before the next one
starts, so exactly one of them holds a given offset. The offset is got back from
the start of that line and the characters before the column. Positions are
therefore in the same order as the offsets that they name.
-/
namespace DefLang

namespace Text

/-- The pieces of a text between its line feeds. -/
def lines (text : List Char) : List (List Char) := text.splitOn '\n'

/-- The offset at which a line starts, after the earlier lines and their line feeds. -/
def lineStart (text : List Char) (index : Nat) : Nat :=
  (((lines text).take index).map fun line => byteLength line + '\n'.utf8Size).sum

/-- The line holds the offset. A line feed is held by the line that it ends. -/
def LineHolds (text : List Char) (index offset : Nat) : Prop :=
  ∃ line, (lines text)[index]? = some line ∧
    lineStart text index ≤ offset ∧ offset ≤ lineStart text index + byteLength line

section Lines

variable {text line : List Char} {index other offset : Nat}

theorem lineStart_succ (found : (lines text)[index]? = some line) :
    lineStart text (index + 1) = lineStart text index + byteLength line + '\n'.utf8Size := by
  obtain ⟨inside, rfl⟩ := List.getElem?_eq_some_iff.mp found
  rw [lineStart, List.take_add_one, found, Option.toList_some, List.map_append, List.sum_append,
    lineStart, Nat.add_assoc]
  rfl

theorem lineStart_mono (ordered : index ≤ other) :
    lineStart text index ≤ lineStart text other := by
  obtain ⟨more, rfl⟩ := Nat.exists_eq_add_of_le ordered
  rw [lineStart, lineStart, List.take_add, List.map_append, List.sum_append]
  exact Nat.le_add_right _ _

/-- A line ends before every later line starts. -/
theorem lineEnd_lt_lineStart (found : (lines text)[index]? = some line) (later : index < other) :
    lineStart text index + byteLength line < lineStart text other := by
  have next := lineStart_succ found
  have notBefore : lineStart text (index + 1) ≤ lineStart text other := lineStart_mono later
  have positive := '\n'.utf8Size_pos
  omega

theorem LineHolds.le (holds : LineHolds text index offset)
    (otherHolds : LineHolds text other offset) : other ≤ index := by
  obtain ⟨line, found, -, notAfter⟩ := holds
  obtain ⟨otherLine, otherFound, notBefore, -⟩ := otherHolds
  by_contra later
  have ended := lineEnd_lt_lineStart found (Nat.lt_of_not_le later)
  omega

theorem LineHolds.unique (holds : LineHolds text index offset)
    (otherHolds : LineHolds text other offset) : other = index :=
  Nat.le_antisymm (holds.le otherHolds) (otherHolds.le holds)

end Lines

/-- The lines of a text take its bytes and one more line feed. -/
theorem sum_lines (text : List Char) :
    ((lines text).map fun line => byteLength line + '\n'.utf8Size).sum =
      byteLength text + '\n'.utf8Size := by
  rw [lines]
  induction text with
  | nil => simp
  | cons character rest inductionHypothesis =>
      rw [List.splitOn_cons_eq_if_modifyHead]
      split
      case isTrue newline =>
        obtain rfl : character = '\n' := by simpa using newline
        rw [List.map_cons, List.sum_cons, inductionHypothesis, byteLength_cons, byteLength_nil]
        omega
      case isFalse =>
        obtain ⟨first, later, pieces⟩ :=
          List.exists_cons_of_ne_nil (List.splitOn_ne_nil '\n' rest)
        rw [pieces, List.map_cons, List.sum_cons] at inductionHypothesis
        rw [pieces, List.modifyHead_cons, List.map_cons, List.sum_cons, byteLength_cons,
          byteLength_cons]
        omega

end Text

namespace Snippet

open Text

theorem lineStart_append (before after : List Char) :
    lineStart (before ++ after) (before.count '\n') = byteLength (earlierLines before) := by
  rw [← count_newline_earlierLines, ← append_line_append before after, List.append_assoc]
  rcases earlierLines_eq before with none | ⟨earlier, some⟩
  · rw [none]
    simp [lineStart]
  · have number : (earlier ++ ['\n']).count '\n' = (lines earlier).length := by
      rw [lines, length_splitOn]
      simp
    have pieces (later : List Char) :
        lines (earlier ++ '\n' :: later) = lines earlier ++ lines later :=
      List.splitOn_append_cons_self ..
    rw [some, number, List.append_assoc, List.singleton_append, lineStart, pieces,
      List.take_left, sum_lines, byteLength_append]
    rfl

/-- The snippet names an offset by the line that holds it and by the characters of
that line before the offset. It shows the line without the carriage returns at its
end. -/
structure Locates (snippet : Snippet) (text : List Char) (offset index : Nat)
    (line : List Char) : Prop where
  numbered : snippet.line = index + 1
  found : (lines text)[index]? = some line
  holds : ∀ other, LineHolds text other offset ↔ other = index
  shown : ∃ returns, snippet.text.toList ++ List.replicate returns '\r' = line
  trimmed : snippet.text.toList.getLast? ≠ some '\r'
  column : ∃ passed, passed ≤ line.length ∧ snippet.column = passed + 1 ∧
    lineStart text index + byteLength (line.take passed) = offset

theorem locates_between (before after : List Char) :
    (between before after).Locates (before ++ after) (byteLength before) (before.count '\n')
      (lastLine before ++ firstLine after) := by
  have found := getElem?_splitOn_append before after
  have size : byteLength (earlierLines before) + byteLength (lastLine before) =
      byteLength before := by
    rw [← byteLength_append, earlierLines_append_lastLine]
  have holds : LineHolds (before ++ after) (before.count '\n') (byteLength before) := by
    refine ⟨_, found, ?_, ?_⟩
    · rw [lineStart_append]
      omega
    · rw [lineStart_append, byteLength_append]
      omega
  have text : (between before after).text.toList =
      trimReturns (lastLine before ++ firstLine after) := String.toList_ofList
  refine ⟨rfl, found, fun other => ⟨holds.unique, ?_⟩, ?_, ?_, ?_⟩
  · rintro rfl
    exact holds
  · rw [text]
    exact exists_trimReturns_append _
  · rw [text]
    exact getLast?_trimReturns _
  · refine ⟨(lastLine before).length, by simp, rfl, ?_⟩
    rw [lineStart_append, List.take_left, size]

section Order

variable {text line otherLine : List Char} {snippet other : Snippet}
  {first second index otherIndex : Nat}

/-- A position further on in the text is a later line, or the same line and a later
column. -/
theorem Locates.lex_lt (located : snippet.Locates text first index line)
    (otherLocated : other.Locates text second otherIndex otherLine) (ordered : first < second) :
    toLex (snippet.line, snippet.column) < toLex (other.line, other.column) := by
  rw [Prod.Lex.toLex_lt_toLex, located.numbered, otherLocated.numbered]
  obtain ⟨passed, inside, column, place⟩ := located.column
  obtain ⟨otherPassed, otherInside, otherColumn, otherPlace⟩ := otherLocated.column
  rcases Nat.lt_trichotomy index otherIndex with earlier | rfl | later
  · exact Or.inl (by omega)
  · refine Or.inr ⟨rfl, ?_⟩
    obtain rfl : line = otherLine :=
      Option.some.inj (located.found.symm.trans otherLocated.found)
    by_contra notAfter
    have shorter : otherPassed ≤ passed := by omega
    obtain ⟨more, joined⟩ := List.take_prefix_take_left shorter (l := line)
    have sizes := congrArg byteLength joined
    rw [byteLength_append] at sizes
    omega
  · have before := lineEnd_lt_lineStart otherLocated.found later
    have otherInLine := List.take_append_drop otherPassed otherLine
    have sizes := congrArg byteLength otherInLine
    rw [byteLength_append] at sizes
    omega

end Order

section Shown

variable {source : String} {offset : Nat}

theorem at?_eq_none_iff : at? source offset = none ↔
    ¬ IsBoundary source.toList (min offset (byteLength source.toList)) := by
  rw [isBoundary_iff_splitAt?, at?]
  cases splitAt? source.toList (min offset (byteLength source.toList)) <;> simp

/-- Whatever is shown for an offset names it, or the end if it lies beyond. -/
theorem exists_locates_of_at? {snippet : Snippet} (shown : at? source offset = some snippet) :
    ∃ index line, snippet.Locates source.toList (min offset (byteLength source.toList))
      index line := by
  rw [at?] at shown
  cases cut : splitAt? source.toList (min offset (byteLength source.toList)) with
  | none => simp [cut] at shown
  | some parts =>
      obtain ⟨before, after⟩ := parts
      obtain ⟨split, place⟩ := splitAt?_sound cut
      obtain rfl : between before after = snippet := by simpa [cut] using shown
      rw [← place, ← split]
      exact ⟨_, _, locates_between before after⟩

theorem exists_locates_of_isBoundary (boundary : IsBoundary source.toList offset) :
    ∃ snippet index line, at? source offset = some snippet ∧
      snippet.Locates source.toList offset index line := by
  obtain ⟨snippet, shown⟩ := exists_at?_of_isPlace (Or.inl boundary)
  obtain ⟨index, line, located⟩ := exists_locates_of_at? shown
  rw [Nat.min_eq_left boundary.le] at located
  exact ⟨snippet, index, line, shown, located⟩

end Shown

/-- An offset, or the end of the source if it lies beyond, is shown unless it falls
inside a character, and no other cut is ever refused. What is shown names the offset,
and later offsets have later positions. -/
theorem positions_name_offsets (source : String) :
    (∀ offset,
      let place := min offset (byteLength source.toList)
      cut? source offset = at? source offset ∧
      (at? source offset = none ↔ ¬ IsBoundary source.toList place) ∧
      ∀ snippet, at? source offset = some snippet →
        ∃ index line, snippet.Locates source.toList place index line) ∧
    ∀ first second, IsBoundary source.toList first → IsBoundary source.toList second →
      first < second → ∃ snippet other, at? source first = some snippet ∧
        at? source second = some other ∧
        toLex (snippet.line, snippet.column) < toLex (other.line, other.column) := by
  refine ⟨fun offset => ⟨cut?_eq_at? source offset, at?_eq_none_iff, ?_⟩, ?_⟩
  · intro snippet shown
    exact exists_locates_of_at? shown
  · intro first second boundary otherBoundary ordered
    obtain ⟨snippet, index, line, shown, located⟩ := exists_locates_of_isBoundary boundary
    obtain ⟨other, otherIndex, otherLine, otherShown, otherLocated⟩ :=
      exists_locates_of_isBoundary otherBoundary
    exact ⟨snippet, other, shown, otherShown, located.lex_lt otherLocated ordered⟩

/-- The offsets before and after a line feed that two carriage returns precede. -/
theorem positions_around_line_feed :
    let source := "aé\r\r\n\nz"
    (at? source 5 = some ⟨1, 5, "aé"⟩ ∧
      ∃ index line, Locates ⟨1, 5, "aé"⟩ source.toList 5 index line) ∧
    (IsBoundary source.toList 5 ∧ IsBoundary source.toList 6) ∧
    ∃ snippet other, at? source 5 = some snippet ∧ at? source 6 = some other ∧
      toLex (snippet.line, snippet.column) < toLex (other.line, other.column) := by
  intro source
  have shown : at? source 5 = some ⟨1, 5, "aé"⟩ := by decide +kernel
  have boundary : IsBoundary source.toList 5 := by decide +kernel
  have otherBoundary : IsBoundary source.toList 6 := by decide +kernel
  obtain ⟨named, ordered⟩ := positions_name_offsets source
  have located := (named 5).2.2 _ shown
  rw [Nat.min_eq_left boundary.le] at located
  exact ⟨⟨shown, located⟩, ⟨boundary, otherBoundary⟩,
    ordered 5 6 boundary otherBoundary (by decide)⟩

end Snippet

end DefLang
