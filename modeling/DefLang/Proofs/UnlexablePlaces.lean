import DefLang.Proofs.SourceLayout
import Mathlib.Order.Bounds.Basic

/-!
# Scanning stops at the first place where no token can stand

Whether a source can be scanned is a question about its characters and the longest
runs of word characters in it, wherever they stand. The scanner sees no more than the
text that is left. What connects the two is that it never stands inside a run: the
text that it has read is cut off from the rest between two words. So a place that it
has passed is a place of the whole source where a token stands, and where it stops a
run starts or a character is out of place.
-/
namespace DefLang.Token

/-- The character is an ASCII letter, an ASCII digit or the underscore. -/
def InWord (character : Char) : Prop :=
  character.isAlpha ∨ character.isDigit ∨ character = '_'

/-- The character belongs to no word and is neither a space nor a mark. -/
def IsStray (character : Char) : Prop :=
  ¬ InWord character ∧
    character ∉ [' ', '\t', '\n', '\x0b', '\x0c', '\r'] ∧ character ∉ ['(', ')', ',']

/-- The characters between two parts of a text are a run of word characters that
cannot be made longer on either side. -/
structure IsRun (before run after : List Char) : Prop where
  nonempty : run ≠ []
  inWord : ∀ character ∈ run, InWord character
  starts : ∀ character ∈ before.getLast?, ¬ InWord character
  ends : ∀ character ∈ after.head?, ¬ InWord character

/-- Between two parts of a text there is a stray character, or the start of a longest
run that has neither letters only nor digits only. -/
inductive IsUnlexable (before : List Char) : List Char → Prop where
  | stray {character : Char} {after : List Char} (isStray : IsStray character) :
      IsUnlexable before (character :: after)
  | mixed {run after : List Char} (isRun : IsRun before run after)
      (notLetters : ¬ ∀ character ∈ run, character.isAlpha)
      (notDigits : ¬ ∀ character ∈ run, character.isDigit) :
      IsUnlexable before (run ++ after)

/-- The place at a byte offset of a text is unlexable. -/
def UnlexableAt (text : List Char) (offset : Nat) : Prop :=
  ∃ before after, Text.splitAt? text offset = some (before, after) ∧ IsUnlexable before after

theorem IsUnlexable.stray_or_mixed {before text : List Char} (place : IsUnlexable before text) :
    (∃ character after, text = character :: after ∧ IsStray character) ∨
      ∃ run after, text = run ++ after ∧ IsRun before run after ∧
        (¬ ∀ character ∈ run, character.isAlpha) ∧ ¬ ∀ character ∈ run, character.isDigit := by
  cases place with
  | stray isStray => exact Or.inl ⟨_, _, rfl, isStray⟩
  | mixed isRun notLetters notDigits => exact Or.inr ⟨_, _, rfl, isRun, notLetters, notDigits⟩

section Characters

variable {character : Char}

theorem inWord_iff : InWord character ↔ isWordCharacter character := by
  simp [InWord, isWordCharacter, Char.isAlphanum, or_assoc]

theorem isSpace_iff :
    isSpace character ↔ character ∈ [' ', '\t', '\n', '\x0b', '\x0c', '\r'] := by
  simp [isSpace, or_assoc]

theorem Kind.ofMark?_eq_none_iff :
    Kind.ofMark? character = none ↔ character ∉ ['(', ')', ','] := by
  by_cases opening : character = '('
  · simp [Kind.ofMark?, opening]
  by_cases closing : character = ')'
  · simp [Kind.ofMark?, closing]
  by_cases comma : character = ',' <;> simp [Kind.ofMark?, opening, closing, comma]

theorem isStray_iff : IsStray character ↔
    isWordCharacter character = false ∧ isSpace character = false ∧
      Kind.ofMark? character = none := by
  rw [IsStray, inWord_iff, ← isSpace_iff, Kind.ofMark?_eq_none_iff]
  simp

end Characters

theorem Kind.ofWord?_eq_none_iff {word : List Char} :
    Kind.ofWord? word = none ↔
      (¬ ∀ character ∈ word, character.isAlpha) ∧ ¬ ∀ character ∈ word, character.isDigit := by
  rw [← List.all_eq_true, ← List.all_eq_true]
  by_cases isDef : word = ['d', 'e', 'f']
  · subst isDef
    simp [Kind.ofWord?]
  by_cases isEnd : word = ['e', 'n', 'd']
  · subst isEnd
    simp [Kind.ofWord?]
  cases letters : word.all Char.isAlpha <;> cases digits : word.all Char.isDigit <;>
    simp [Kind.ofWord?, isDef, isEnd, letters, digits]

/-- The scanner gets over the first part of a text when the second one follows. -/
inductive Passes : List Char → List Char → Prop where
  | nothing {rest : List Char} : Passes [] rest
  | space {character : Char} {later rest : List Char} (isSpace : isSpace character)
      (continued : Passes later rest) : Passes (character :: later) rest
  | token {kind : Kind} {text later rest : List Char} (admitted : kind.Admits text)
      (ended : kind.isWord → EndsWord (later ++ rest)) (continued : Passes later rest) :
      Passes (text ++ later) rest

/-- The scanner stops at the start of the text. -/
def IsStuck : List Char → Prop
  | [] => False
  | character :: later => isSpace character = false ∧
      if isWordCharacter character then
        Kind.ofWord? (character :: later.takeWhile isWordCharacter) = none
      else Kind.ofMark? character = none

theorem IsStuck.scan_eq {rest : List Char} (stuck : IsStuck rest) (offset : Nat) :
    scan offset rest = .error ⟨offset, .unmatched (String.ofList rest)⟩ := by
  cases rest with
  | nil => exact absurd stuck id
  | cons character later =>
      obtain ⟨noSpace, unmatched⟩ := stuck
      split at unmatched
      next inWord =>
        rw [scan_of_word noSpace inWord]
        simp only [unmatched]
      next notInWord =>
        rw [scan_of_mark noSpace (by simpa using notInWord)]
        simp only [unmatched]

/-- Every text is passed up to its end or up to where the scanner stops. -/
theorem exists_passes (text : List Char) :
    ∃ before rest, before ++ rest = text ∧ Passes before rest ∧ (rest = [] ∨ IsStuck rest) := by
  fun_induction scan 0 text with
  | case1 offset => exact ⟨[], [], rfl, .nothing, Or.inl rfl⟩
  | case2 offset character later space inductionHypothesis =>
      obtain ⟨before, rest, rfl, passed, stopped⟩ := inductionHypothesis
      exact ⟨character :: before, rest, rfl, .space space passed, stopped⟩
  | case3 offset character later noSpace inWord word unmatched =>
      refine ⟨[], character :: later, rfl, .nothing, Or.inr ⟨by simpa using noSpace, ?_⟩⟩
      rwa [if_pos inWord]
  | case4 offset character later noSpace inWord word kind matched inductionHypothesis =>
      obtain ⟨before, rest, split, passed, stopped⟩ := inductionHypothesis
      obtain ⟨_, admitted⟩ := (Kind.ofWord?_eq_some_iff (by simp [word])).mp matched
      have ended : EndsWord (before ++ rest) := by
        rw [split]
        exact endsWord_dropWhile later
      refine ⟨word ++ before, rest, ?_, .token admitted (fun _ => ended) passed, stopped⟩
      rw [List.append_assoc, split, List.cons_append, List.takeWhile_append_dropWhile]
  | case5 offset character later noSpace notInWord unmatched =>
      refine ⟨[], character :: later, rfl, .nothing, Or.inr ⟨by simpa using noSpace, ?_⟩⟩
      rwa [if_neg notInWord]
  | case6 offset character later noSpace notInWord kind matched inductionHypothesis =>
      obtain ⟨before, rest, rfl, passed, stopped⟩ := inductionHypothesis
      obtain ⟨noWord, admitted⟩ := Kind.ofMark?_eq_some_iff.mp matched
      exact ⟨[character] ++ before, rest, rfl, .token admitted (by simp [noWord]) passed, stopped⟩

theorem EndsWord.of_append {first second : List Char} (ended : EndsWord (first ++ second)) :
    EndsWord first := by
  cases first with
  | nil => exact endsWord_nil
  | cons character first => exact endsWord_cons (ended character rfl)

section Passes

variable {before rest : List Char}

/-- What is passed can be scanned alone. -/
theorem Passes.exists_scan_eq_ok (passed : Passes before rest) (offset : Nat) :
    ∃ tokens, scan offset before = .ok tokens := by
  induction passed generalizing offset with
  | nothing => exact ⟨[], scan_nil⟩
  | space isSpace _ inductionHypothesis =>
      rw [scan_of_space isSpace]
      exact inductionHypothesis _
  | @token kind text later rest admitted ended _ inductionHypothesis =>
      obtain ⟨tokens, scanned⟩ := inductionHypothesis (offset + Text.byteLength text)
      rw [scan_of_admits offset admitted fun word => (ended word).of_append, scanned]
      exact ⟨_, rfl⟩

/-- Behind what is passed the scanner goes on, and stops where it stops there. -/
theorem Passes.scan_eq_error (passed : Passes before rest) {offset : Nat} {found : Diagnostic}
    (stopped : scan (offset + Text.byteLength before) rest = .error found) :
    scan offset (before ++ rest) = .error found := by
  induction passed generalizing offset with
  | nothing => simpa using stopped
  | space isSpace _ inductionHypothesis =>
      rw [Text.byteLength_cons, ← Nat.add_assoc] at stopped
      rw [List.cons_append, scan_of_space isSpace]
      exact inductionHypothesis stopped
  | token admitted ended _ inductionHypothesis =>
      rw [Text.byteLength_append, ← Nat.add_assoc] at stopped
      rw [List.append_assoc, scan_of_admits offset admitted ended, inductionHypothesis stopped]
      rfl

end Passes

/-- No word is cut between the two parts of a text. -/
def CutsNoWord (before after : List Char) : Prop :=
  ∀ last ∈ before.getLast?, isWordCharacter last → EndsWord after

section CutsNoWord

variable {earlier before rest : List Char}

theorem cutsNoWord_nil : CutsNoWord [] rest := by
  intro last isLast
  cases isLast

theorem cutsNoWord_of_outside {character : Char} (outside : isWordCharacter character = false) :
    CutsNoWord (earlier ++ [character]) rest := by
  intro last isLast inWord
  obtain rfl : character = last := by simpa using isLast
  exact absurd inWord (by simp [outside])

theorem Kind.Admits.cutsNoWord {kind : Kind} {text : List Char} (admitted : kind.Admits text)
    (ended : kind.isWord → EndsWord rest) : CutsNoWord (earlier ++ text) rest := by
  cases word : kind.isWord with
  | true => exact fun _ _ _ => ended word
  | false =>
      obtain ⟨mark, rfl, -, outside⟩ := admitted.exists_mark word
      exact cutsNoWord_of_outside outside

/-- The scanner never stops inside a word. -/
theorem Passes.cutsNoWord (passed : Passes before rest)
    (start : CutsNoWord earlier (before ++ rest)) : CutsNoWord (earlier ++ before) rest := by
  induction passed generalizing earlier with
  | nothing => simpa using start
  | @space character later rest isSpace _ inductionHypothesis =>
      have next : CutsNoWord (earlier ++ [character]) (later ++ rest) :=
        cutsNoWord_of_outside (isWordCharacter_of_isSpace isSpace)
      simpa using inductionHypothesis next
  | @token kind text later rest admitted ended _ inductionHypothesis =>
      have next : CutsNoWord (earlier ++ text) (later ++ rest) := admitted.cutsNoWord ended
      simpa using inductionHypothesis next

/-- A word that starts at such a cut is a longest run. -/
theorem CutsNoWord.isRun {character : Char} {later : List Char}
    (cut : CutsNoWord earlier (character :: later)) (inWord : isWordCharacter character) :
    IsRun earlier (character :: later.takeWhile isWordCharacter)
      (later.dropWhile isWordCharacter) where
  nonempty := by simp
  inWord := by
    simp only [inWord_iff]
    exact List.forall_mem_cons.mpr ⟨inWord, List.all_eq_true.mp List.all_takeWhile⟩
  starts := by
    intro last isLast lastInWord
    have outside := cut last isLast (inWord_iff.mp lastInWord) character rfl
    exact absurd inWord (by simp [outside])
  ends := by
    intro next isHead nextInWord
    have outside := endsWord_dropWhile later next isHead
    exact absurd (inWord_iff.mp nextInWord) (by simp [outside])

/-- Where the scanner stops there is a stray character or a mixed run. -/
theorem IsStuck.isUnlexable (stuck : IsStuck rest) (cut : CutsNoWord earlier rest) :
    IsUnlexable earlier rest := by
  cases rest with
  | nil => exact absurd stuck id
  | cons character later =>
      obtain ⟨noSpace, unmatched⟩ := stuck
      split at unmatched
      next inWord =>
        obtain ⟨notLetters, notDigits⟩ := Kind.ofWord?_eq_none_iff.mp unmatched
        have place := IsUnlexable.mixed (cut.isRun inWord) notLetters notDigits
        rwa [List.cons_append, List.takeWhile_append_dropWhile] at place
      next notInWord =>
        exact .stray (isStray_iff.mpr ⟨by simpa using notInWord, noSpace, unmatched⟩)

end CutsNoWord

theorem takeWhile_append_of_endsWord {word rest : List Char}
    (inWord : ∀ character ∈ word, isWordCharacter character) (ended : EndsWord rest) :
    (word ++ rest).takeWhile isWordCharacter = word := by
  rw [List.takeWhile_append_of_pos inWord]
  cases rest with
  | nil => simp
  | cons next rest => simp [ended next rfl]

theorem IsRun.takeWhile_eq {before run after : List Char} (isRun : IsRun before run after) :
    (run ++ after).takeWhile isWordCharacter = run := by
  apply takeWhile_append_of_endsWord
  · intro character member
    exact inWord_iff.mp (isRun.inWord character member)
  · intro next isHead
    simpa [inWord_iff] using isRun.ends next isHead

section Lexable

variable {earlier before rest : List Char} {character : Char}

/-- A character outside of words that is no stray one starts no unlexable place. -/
theorem not_isUnlexable_of_outside (outside : isWordCharacter character = false)
    (noStray : ¬ IsStray character) : ¬ IsUnlexable earlier (character :: rest) := by
  intro place
  rcases place.stray_or_mixed with ⟨_, _, text_eq, isStray⟩ | ⟨run, after, text_eq, isRun, -⟩
  · obtain ⟨rfl, -⟩ := List.cons.inj text_eq
    exact noStray isStray
  · obtain ⟨first, later, rfl⟩ := List.exists_cons_of_ne_nil isRun.nonempty
    obtain ⟨rfl, -⟩ := List.cons.inj text_eq
    have inWord := inWord_iff.mp (isRun.inWord character (by simp))
    exact absurd inWord (by simp [outside])

theorem Kind.Admits.ofWord?_ne_none {kind : Kind} {text : List Char}
    (admitted : kind.Admits text) (word : kind.isWord) : Kind.ofWord? text ≠ none := by
  obtain ⟨nonempty, -⟩ := admitted.isWordText word
  rw [(Kind.ofWord?_eq_some_iff nonempty).mpr ⟨word, admitted⟩]
  simp

/-- No place inside a word, and not its start either, is unlexable. -/
theorem not_isUnlexable_of_word {kind : Kind} {first second : List Char}
    (admitted : kind.Admits (first ++ second)) (word : kind.isWord) (ended : EndsWord rest)
    (inside : second ≠ []) : ¬ IsUnlexable (earlier ++ first) (second ++ rest) := by
  obtain ⟨-, inWord⟩ := admitted.isWordText word
  intro place
  rcases place.stray_or_mixed with ⟨_, _, text_eq, isStray⟩ | ⟨run, after, text_eq, isRun, mixed⟩
  · obtain ⟨character, later, rfl⟩ := List.exists_cons_of_ne_nil inside
    obtain ⟨rfl, -⟩ := List.cons.inj text_eq
    exact isStray.1 (inWord_iff.mpr (inWord _ (by simp)))
  · rcases List.eq_nil_or_concat' first with rfl | ⟨start, last, rfl⟩
    · have same : run = second := by
        rw [← isRun.takeWhile_eq, ← text_eq]
        exact takeWhile_append_of_endsWord inWord ended
      subst same
      exact admitted.ofWord?_ne_none word (Kind.ofWord?_eq_none_iff.mpr mixed)
    · exact isRun.starts last (by simp) (inWord_iff.mpr (inWord last (by simp)))

/-- No place inside a token, and not its start either, is unlexable. -/
theorem not_isUnlexable_of_admits {kind : Kind} {first second : List Char}
    (admitted : kind.Admits (first ++ second)) (ended : kind.isWord → EndsWord rest)
    (inside : second ≠ []) : ¬ IsUnlexable (earlier ++ first) (second ++ rest) := by
  cases word : kind.isWord with
  | true => exact not_isUnlexable_of_word admitted word (ended word) inside
  | false =>
      obtain ⟨mark, text_eq, -, outside⟩ := admitted.exists_mark word
      have single : first = [] ∧ second = [mark] := by
        rcases List.append_eq_singleton_iff.mp text_eq with parts | ⟨-, nothing⟩
        · exact parts
        · exact absurd nothing inside
      obtain ⟨rfl, rfl⟩ := single
      apply not_isUnlexable_of_outside outside
      rw [isStray_iff, Kind.ofMark?_eq_some_iff.mpr ⟨word, admitted⟩]
      simp

/-- What is passed has no unlexable place in it. -/
theorem Passes.not_isUnlexable (passed : Passes before rest) (earlier : List Char)
    {first second : List Char} (split : first ++ second = before) (inside : second ≠ []) :
    ¬ IsUnlexable (earlier ++ first) (second ++ rest) := by
  induction passed generalizing earlier first with
  | nothing => simp_all
  | @space character later rest isSpace _ inductionHypothesis =>
      cases first with
      | nil =>
          obtain rfl : second = character :: later := split
          apply not_isUnlexable_of_outside (isWordCharacter_of_isSpace isSpace)
          simp [isStray_iff, isSpace]
      | cons head first =>
          obtain ⟨rfl, laterSplit⟩ := List.cons.inj split
          simpa using inductionHypothesis (earlier ++ [head]) laterSplit
  | @token kind text later rest admitted ended _ inductionHypothesis =>
      rcases List.append_eq_append_iff.mp split with
        ⟨middle, rfl, rfl⟩ | ⟨middle, rfl, laterSplit⟩
      · -- The place is in the token, or right behind it.
        by_cases behind : middle = []
        · subst behind
          simpa using inductionHypothesis (earlier ++ first) (List.nil_append later)
        · rw [List.append_assoc]
          exact not_isUnlexable_of_admits admitted ended behind
      · simpa using inductionHypothesis (earlier ++ text) laterSplit.symm

theorem not_isUnlexable_nil : ¬ IsUnlexable before [] := by
  intro place
  rcases place.stray_or_mixed with ⟨_, _, text_eq, -⟩ | ⟨run, after, text_eq, isRun, -⟩
  · cases text_eq
  · exact isRun.nonempty (List.append_eq_nil_iff.mp text_eq.symm).1

/-- An unlexable place of the whole text is not before the end of what is passed. -/
theorem Passes.byteLength_le (passed : Passes before rest) {first second : List Char}
    (split : first ++ second = before ++ rest) (place : IsUnlexable first second) :
    Text.byteLength before ≤ Text.byteLength first := by
  rcases List.append_eq_append_iff.mp split with
    ⟨middle, rfl, rfl⟩ | ⟨middle, rfl, -⟩
  · by_cases behind : middle = []
    · simp [behind]
    · exact absurd place (passed.not_isUnlexable [] rfl behind)
  · simp

end Lexable

end DefLang.Token

namespace DefLang

open Token

/-- A source is scanned in full, and no place of it is unlexable, or the scanner stops
at the first unlexable place, having scanned all before it. -/
theorem tokenize_cases (source : String) :
    ((∃ tokens, tokenize source = .ok tokens) ∧ ∀ offset, ¬ UnlexableAt source.toList offset) ∨
    ∃ before after, before ++ after = source.toList ∧
      tokenize source =
        .error ⟨Text.byteLength before, .unmatched (String.ofList after)⟩ ∧
      IsLeast {offset | UnlexableAt source.toList offset} (Text.byteLength before) ∧
      ∃ tokens, tokenize (String.ofList before) = .ok tokens := by
  obtain ⟨before, rest, split, passed, stopped⟩ := exists_passes source.toList
  obtain ⟨tokens, scanned⟩ := passed.exists_scan_eq_ok 0
  rcases stopped with rfl | stuck
  · rw [List.append_nil] at split
    refine Or.inl ⟨⟨tokens, by rw [tokenize, ← split, scanned]⟩, ?_⟩
    rintro offset ⟨first, second, cut, place⟩
    obtain ⟨joined, -⟩ := Text.splitAt?_sound cut
    by_cases ended : second = []
    · rw [ended] at place
      exact not_isUnlexable_nil place
    · have lexable : ¬ IsUnlexable ([] ++ first) (second ++ []) :=
        passed.not_isUnlexable [] (joined.trans split.symm) ended
      exact lexable (by simpa using place)
  · have start : CutsNoWord before rest := by
      have whole : CutsNoWord [] (before ++ rest) := cutsNoWord_nil
      simpa using passed.cutsNoWord whole
    have stops : scan (0 + Text.byteLength before) rest =
        .error ⟨Text.byteLength before, .unmatched (String.ofList rest)⟩ := by
      rw [Nat.zero_add]
      exact stuck.scan_eq (Text.byteLength before)
    refine Or.inr ⟨before, rest, split, ?_, ⟨?_, ?_⟩, tokens, ?_⟩
    · rw [tokenize, ← split]
      exact passed.scan_eq_error stops
    · exact ⟨before, rest, Text.splitAt?_eq_some_iff.mpr ⟨split, rfl⟩, stuck.isUnlexable start⟩
    · rintro offset ⟨first, second, cut, place⟩
      obtain ⟨joined, rfl⟩ := Text.splitAt?_sound cut
      exact passed.byteLength_le (joined.trans split.symm) place
    · rw [tokenize, String.toList_ofList, scanned]

/-- A source cannot be scanned exactly when some place of it is unlexable. The first
such place is then reported, with all that is left from there on, and what stands
before it can be scanned. -/
theorem tokenize_stops_at_first_unlexable (source : String) :
    ((∃ found, tokenize source = .error found) ↔ ∃ offset, UnlexableAt source.toList offset) ∧
    ∀ offset, IsLeast {offset | UnlexableAt source.toList offset} offset →
      ∃ before after, Text.splitAt? source.toList offset = some (before, after) ∧
        tokenize source = .error ⟨offset, .unmatched (String.ofList after)⟩ ∧
        (∃ snippet, Snippet.at? source offset = some snippet) ∧
        ∃ tokens, tokenize (String.ofList before) = .ok tokens := by
  rcases tokenize_cases source with
    ⟨⟨tokens, scanned⟩, lexable⟩ | ⟨before, after, split, stopped, least, scanned⟩
  · refine ⟨?_, fun offset least => absurd least.1 (lexable offset)⟩
    simp [scanned, lexable]
  · refine ⟨⟨fun _ => ⟨_, least.1⟩, fun _ => ⟨_, stopped⟩⟩, ?_⟩
    intro offset otherLeast
    obtain rfl := otherLeast.unique least
    have boundary : Text.IsBoundary source.toList (Text.byteLength before) :=
      ⟨before, after, split, rfl⟩
    exact ⟨before, after, Text.splitAt?_eq_some_iff.mpr ⟨split, rfl⟩, stopped,
      Snippet.exists_at?_of_isPlace (Or.inl boundary), scanned⟩

example : tokenize "x, aé_1" = .error ⟨4, .unmatched "é_1"⟩ := by decide +kernel

end DefLang
