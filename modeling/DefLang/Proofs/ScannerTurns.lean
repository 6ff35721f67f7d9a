import DefLang.Proofs.ByteSlices
import DefLang.Proofs.Relocation

/-!
# Every cut falls between two characters

The scanner is taken apart into turns that know nothing but a byte offset, its
cursor. A turn cuts the source at the cursor, drops spaces, measures a word in
bytes and cuts out as many, and any of these cuts may be refused. From a cursor
between two characters none is, and the next cursor is between two characters
again. The turns lead to the tokens of the source, or to the place where no
token starts. Offsets are handed on inside tokens from there, so that every
diagnostic has a place that can be shown.
-/
namespace DefLang

namespace Token

open Text

/-- How many bytes of a word a text starts with. -/
def wordLength (text : List Char) : Nat :=
  ((bytes text).takeWhile (onByte isWordCharacter)).length

theorem toNat_lt_of_isWordCharacter {character : Char} (inWord : isWordCharacter character) :
    character.toNat < 128 := by
  change character.val.toNat < 128
  rcases Bool.or_eq_true_iff.mp inWord with alphanumeric | underscore
  · rcases Bool.or_eq_true_iff.mp alphanumeric with letter | digit
    · have bounds := bounds_of_isAlpha letter
      omega
    · have bounds := bounds_of_isDigit digit
      omega
  · rw [of_decide_eq_true underscore]
    decide

theorem isAsciiClass_isWordCharacter : IsAsciiClass isWordCharacter := by
  refine ⟨false, fun character beyond => Bool.eq_false_iff.mpr fun inWord => ?_⟩
  exact absurd (toNat_lt_of_isWordCharacter inWord) (Nat.not_lt.mpr beyond)

theorem wordLength_eq (text : List Char) :
    wordLength text = byteLength (text.takeWhile isWordCharacter) := by
  rw [wordLength, isAsciiClass_isWordCharacter.takeWhile_bytes, length_bytes]

/-- The kind and the byte length of the token that a text starts with, if there is
one. There is no answer when a cut is refused. -/
def lexeme? (text : List Char) : Option (Option (Kind × Nat)) :=
  if wordLength text = 0 then
    some (text.head?.bind fun mark => (Kind.ofMark? mark).map fun kind => (kind, mark.utf8Size))
  else do
    let word ← slice? text 0 (wordLength text)
    return (Kind.ofWord? word).map fun kind => (kind, wordLength text)

/-- What one turn of the scanner leads to. -/
inductive Turn where
  | finished
  | stuck (found : Diagnostic)
  | taken (token : Token) (next : Nat)

/-- One turn of the scanner from a cursor. There is no turn when a cut is refused. -/
def turn? (source : String) (cursor : Nat) : Option Turn := do
  let text := source.toList
  let remaining ← slice? text cursor (byteLength text)
  let start := byteLength text - byteLength (remaining.dropWhile isSpace)
  if byteLength text ≤ start then
    return .finished
  let rest ← slice? text start (byteLength text)
  match ← lexeme? rest with
  | none =>
      let found ← Diagnostic.unmatched? source start
      return .stuck found
  | some (kind, length) =>
      let word ← slice? rest 0 length
      return .taken ⟨kind, String.ofList word, start⟩ (start + length)

/-- The scanner comes to the cursor, from the start of the source on. -/
inductive Visits (source : String) : Nat → Prop where
  | start : Visits source 0
  | next {cursor next : Nat} {token : Token} (visited : Visits source cursor)
      (turned : turn? source cursor = some (.taken token next)) : Visits source next

/-- The turns from a cursor on have this result. -/
inductive Scans (source : String) : Nat → Except Diagnostic (List Token) → Prop where
  | finished {cursor : Nat} (turned : turn? source cursor = some .finished) :
      Scans source cursor (.ok [])
  | stuck {cursor : Nat} {found : Diagnostic}
      (turned : turn? source cursor = some (.stuck found)) : Scans source cursor (.error found)
  | taken {cursor next : Nat} {token : Token} {result : Except Diagnostic (List Token)}
      (turned : turn? source cursor = some (.taken token next))
      (continued : Scans source next result) : Scans source cursor ((token :: ·) <$> result)

/-- The offsets that a turn finds are between two characters, in order, and it
takes at least one byte. -/
def Turn.WithinBounds (source : String) (cursor : Nat) : Turn → Prop
  | finished => True
  | stuck found => cursor ≤ found.offset ∧ IsBoundary source.toList found.offset
  | taken token next => cursor ≤ token.offset ∧ IsBoundary source.toList token.offset ∧
      token.offset < next ∧ IsBoundary source.toList next

/-- Where no space stands, the text starts with a token that is scanned, or with
none. -/
theorem lexeme?_cases {character : Char} (later : List Char) (offset : Nat)
    (noSpace : isSpace character = false) :
    (lexeme? (character :: later) = some none ∧
      scan offset (character :: later) =
        .error ⟨offset, .unmatched (String.ofList (character :: later))⟩) ∨
    ∃ kind text after, text ≠ [] ∧ text ++ after = character :: later ∧
      lexeme? (character :: later) = some (some (kind, byteLength text)) ∧
      scan offset (character :: later) =
        (⟨kind, String.ofList text, offset⟩ :: ·) <$> scan (offset + byteLength text) after := by
  have positive := character.utf8Size_pos
  cases inWord : isWordCharacter character with
  | true =>
      let word := character :: later.takeWhile isWordCharacter
      have split : word ++ later.dropWhile isWordCharacter = character :: later := by
        simp [word, List.takeWhile_append_dropWhile]
      have length : wordLength (character :: later) = byteLength word := by
        rw [wordLength_eq, List.takeWhile_cons_of_pos inWord]
      have someBytes : byteLength word ≠ 0 := by
        rw [byteLength_cons]
        omega
      have matched : lexeme? (character :: later) =
          some ((Kind.ofWord? word).map fun kind => (kind, byteLength word)) := by
        rw [lexeme?, length, if_neg someBytes, slice?_start split]
        rfl
      rw [scan_of_word noSpace inWord, matched]
      cases kindOfWord : Kind.ofWord? word with
      | none => exact Or.inl ⟨rfl, by simp only [word] at kindOfWord; simp only [kindOfWord]⟩
      | some kind =>
          refine Or.inr ⟨kind, word, _, by simp [word], split, rfl, ?_⟩
          simp only [word] at kindOfWord
          simp only [kindOfWord]
          rfl
  | false =>
      have length : wordLength (character :: later) = 0 := by
        rw [wordLength_eq]
        simp [inWord]
      have matched : lexeme? (character :: later) =
          some ((Kind.ofMark? character).map fun kind => (kind, character.utf8Size)) := by
        rw [lexeme?, if_pos length]
        rfl
      rw [scan_of_mark noSpace inWord, matched]
      cases kindOfMark : Kind.ofMark? character with
      | none => exact Or.inl ⟨rfl, rfl⟩
      | some kind => exact Or.inr ⟨kind, [character], later, by simp, rfl, rfl, rfl⟩

section Turn

variable {source : String}

/-- A turn from a place between two characters: it never fails, and it does what
the scanner does with the text from there on. -/
theorem turn?_cases {before remaining : List Char} (split : before ++ remaining = source.toList) :
    (turn? source (byteLength before) = some .finished ∧
      scan (byteLength before) remaining = .ok []) ∨
    (∃ gap rest, gap ++ rest = remaining ∧
      turn? source (byteLength before) =
        some (.stuck ⟨byteLength (before ++ gap), .unmatched (String.ofList rest)⟩) ∧
      scan (byteLength before) remaining =
        .error ⟨byteLength (before ++ gap), .unmatched (String.ofList rest)⟩) ∨
    ∃ gap kind text after, text ≠ [] ∧ gap ++ text ++ after = remaining ∧
      turn? source (byteLength before) =
        some (.taken ⟨kind, String.ofList text, byteLength (before ++ gap)⟩
          (byteLength (before ++ gap ++ text))) ∧
      scan (byteLength before) remaining =
        (⟨kind, String.ofList text, byteLength (before ++ gap)⟩ :: ·) <$>
          scan (byteLength (before ++ gap ++ text)) after := by
  obtain ⟨gap, rest, parts, spaces, rest_eq⟩ : ∃ gap rest, gap ++ rest = remaining ∧
      gap.all isSpace ∧ remaining.dropWhile isSpace = rest :=
    ⟨_, _, List.takeWhile_append_dropWhile, List.all_takeWhile, rfl⟩
  have fromGap : (before ++ gap) ++ rest = source.toList := by
    rw [List.append_assoc, parts, split]
  have size : byteLength source.toList = byteLength (before ++ gap) + byteLength rest := by
    rw [← fromGap, byteLength_append]
  have start : byteLength source.toList - byteLength rest = byteLength (before ++ gap) := by
    omega
  have skipped : scan (byteLength before) remaining = scan (byteLength (before ++ gap)) rest := by
    rw [← parts, scan_spaces _ _ spaces, byteLength_append]
  cases rest with
  | nil =>
      refine Or.inl ⟨?_, by rw [skipped, scan_nil]⟩
      have ended : byteLength source.toList ≤ byteLength (before ++ gap) := by
        rw [size, byteLength_nil, Nat.add_zero]
      simp only [turn?, slice?_end split, Option.bind_eq_bind, Option.bind_some, rest_eq, start,
        ended, if_true]
      rfl
  | cons character later =>
      have noSpace : isSpace character = false := by
        have first := List.head?_dropWhile_not isSpace remaining
        rw [rest_eq] at first
        simpa using first
      have inside : ¬ byteLength source.toList ≤ byteLength (before ++ gap) := by
        have positive := character.utf8Size_pos
        rw [size, byteLength_cons]
        omega
      -- Past the spaces the turn depends on the lexeme alone.
      have turned : turn? source (byteLength before) = (do
          match ← lexeme? (character :: later) with
          | none =>
              let found ← Diagnostic.unmatched? source (byteLength (before ++ gap))
              return .stuck found
          | some (kind, length) =>
              let word ← slice? (character :: later) 0 length
              return .taken ⟨kind, String.ofList word, byteLength (before ++ gap)⟩
                (byteLength (before ++ gap) + length)) := by
        simp only [turn?, slice?_end split, Option.bind_eq_bind, Option.bind_some, rest_eq, start,
          inside, if_false, slice?_end fromGap]
      rcases lexeme?_cases later (byteLength (before ++ gap)) noSpace with
        ⟨unmatched, stopped⟩ | ⟨kind, text, after, nonempty, textSplit, matched, scanned⟩
      · refine Or.inr (Or.inl ⟨gap, character :: later, parts, ?_, skipped.trans stopped⟩)
        have cut := splitAt?_append (before ++ gap) (character :: later)
        rw [fromGap] at cut
        rw [turned, unmatched]
        simp only [Option.bind_eq_bind, Option.bind_some, Diagnostic.unmatched?, cut]
        rfl
      · refine Or.inr (Or.inr ⟨gap, kind, text, after, nonempty, ?_, ?_, ?_⟩)
        · rw [List.append_assoc, textSplit, parts]
        · rw [turned, matched, byteLength_append _ text]
          simp only [Option.bind_eq_bind, Option.bind_some, slice?_start textSplit]
          rfl
        · rw [skipped, scanned, byteLength_append _ text]

theorem withinBounds_of_isBoundary {cursor : Nat} (boundary : IsBoundary source.toList cursor) :
    ∃ turn, turn? source cursor = some turn ∧ turn.WithinBounds source cursor := by
  obtain ⟨before, remaining, split, rfl⟩ := boundary
  have ordered (gap : List Char) : byteLength before ≤ byteLength (before ++ gap) := by
    rw [byteLength_append]
    omega
  rcases turn?_cases split with
    ⟨turned, -⟩ | ⟨gap, rest, parts, turned, -⟩ |
      ⟨gap, kind, text, after, nonempty, parts, turned, -⟩
  · exact ⟨_, turned, trivial⟩
  · exact ⟨_, turned, ordered gap, before ++ gap, rest, by simp [parts, split], rfl⟩
  · refine ⟨_, turned, ordered gap, ?_, ?_, ?_⟩
    · exact ⟨before ++ gap, text ++ after, by simp [← split, ← parts], rfl⟩
    · obtain ⟨first, later, rfl⟩ := List.exists_cons_of_ne_nil nonempty
      have positive := first.utf8Size_pos
      change byteLength (before ++ gap) < byteLength (before ++ gap ++ first :: later)
      rw [byteLength_append _ (first :: later), byteLength_cons]
      omega
    · exact ⟨before ++ gap ++ text, after, by simp [← split, ← parts], rfl⟩

/-- The scanner never stands inside a character. -/
theorem Visits.isBoundary {cursor : Nat} (visited : Visits source cursor) :
    IsBoundary source.toList cursor := by
  induction visited with
  | start => exact ⟨[], source.toList, rfl, rfl⟩
  | next _ turned inductionHypothesis =>
      obtain ⟨turn, turned', within⟩ := withinBounds_of_isBoundary inductionHypothesis
      obtain rfl : turn = .taken _ _ := Option.some.inj (turned'.symm.trans turned)
      exact within.2.2.2

theorem scans_of_append (before remaining : List Char)
    (split : before ++ remaining = source.toList) :
    Scans source (byteLength before) (scan (byteLength before) remaining) := by
  rcases turn?_cases split with
    ⟨turned, scanned⟩ | ⟨gap, rest, parts, turned, scanned⟩ |
      ⟨gap, kind, text, after, nonempty, parts, turned, scanned⟩
  · rw [scanned]
    exact .finished turned
  · rw [scanned]
    exact .stuck turned
  · have shorter : after.length < remaining.length := by
      have textLength := List.length_pos_iff.mpr nonempty
      rw [← parts]
      simp only [List.length_append]
      omega
    rw [scanned]
    exact .taken turned (scans_of_append (before ++ gap ++ text) after (by
      simp [← split, ← parts]))
termination_by remaining.length

end Turn

/-- The turns from the start of a source find its tokens. -/
theorem scans_tokenize (source : String) : Scans source 0 (tokenize source) :=
  scans_of_append [] source.toList rfl

end Token

open Text

/-- Nothing is cut inside a character to show the place of the diagnostic. -/
def Diagnostic.CanBeShown (source : String) (found : Diagnostic) : Prop :=
  (∃ snippet, Snippet.cut? source found.offset = some snippet) ∧
    ∃ message, found.message? source = some message

theorem Diagnostic.canBeShown_of_isPlace {source : String} {found : Diagnostic}
    (place : Snippet.IsPlace source found.offset) : found.CanBeShown source := by
  obtain ⟨snippet, shown⟩ := Snippet.exists_at?_of_isPlace place
  refine ⟨⟨snippet, by rw [Snippet.cut?_eq_at?, shown]⟩, ?_⟩
  simp only [message?, shown]
  exact ⟨_, rfl⟩

/-- A fault is at the token that is blamed, or at the end of the source. -/
theorem Parser.Fault.offset_diagnostic (source : String) (fault : Parser.Fault) :
    (fault.diagnostic source).offset =
      (fault.token?.map Token.offset).getD (byteLength source.toList) := by
  rcases fault with ⟨expected, _ | found⟩ | param | literal | callee <;> rfl

/-- Whatever holds of the places of the tokens and of the end of the source holds
of the place of a fault. -/
theorem Parser.Fault.holds_at_offset {source : String} {tokens : List Token}
    {fault : Parser.Fault} {holds : Nat → Prop}
    (refused : Parser.definition tokens = .error fault)
    (atTokens : ∀ token ∈ tokens, holds token.offset)
    (atEnd : holds (byteLength source.toList)) : holds (fault.diagnostic source).offset := by
  rw [Parser.Fault.offset_diagnostic]
  cases blamed : fault.token? with
  | none => exact atEnd
  | some token => exact atTokens token (Parser.Fault.mem_of_definition_eq_error refused blamed)

/-- No definition is read where no token starts or where the parser finds a fault. -/
theorem readDefinition_error_cases {source : String} {found : Diagnostic}
    (stopped : readDefinition source = .error found) :
    (∃ before character later, tokenize source = .error found ∧
      before ++ character :: later = source.toList ∧ Token.isSpace character = false ∧
        found = ⟨byteLength before, .unmatched (String.ofList (character :: later))⟩) ∨
    ∃ tokens fault, tokenize source = .ok tokens ∧ Parser.definition tokens = .error fault ∧
      found = fault.diagnostic source := by
  rcases readDefinition_eq_error_iff.mp stopped with unmatched | ⟨tokens, tokenized, wrong⟩
  · obtain ⟨before, character, later, split, noSpace, place⟩ :=
      exists_append_of_tokenize_error unmatched
    exact Or.inl ⟨before, character, later, unmatched, split, noSpace, place⟩
  · obtain ⟨fault, ran, reported⟩ := parse_eq_error_iff.mp wrong
    rw [← Parser.definition_eq_run] at ran
    exact Or.inr ⟨tokens, fault, tokenized, ran, reported.symm⟩

theorem isBoundary_of_readDefinition_error {source : String} {found : Diagnostic}
    (stopped : readDefinition source = .error found) :
    IsBoundary source.toList found.offset := by
  rcases readDefinition_error_cases stopped with
    ⟨before, character, later, -, split, -, rfl⟩ | ⟨tokens, fault, tokenized, refused, rfl⟩
  · exact ⟨before, character :: later, split, rfl⟩
  · exact Parser.Fault.holds_at_offset refused (isBoundary_of_tokenize tokenized)
      (isBoundary_byteLength source.toList)

/-- Nothing is ever cut inside a character or beyond the end. All the cursors of
the scanner and all the ends of its tokens are between two characters of the
source, as is the place of every diagnostic, and its turns find the tokens. For
tokens from elsewhere it is enough that none of them is inside a character. -/
theorem cuts_between_characters (source : String) :
    (∀ cursor, Token.Visits source cursor →
      IsBoundary source.toList cursor ∧ cursor ≤ byteLength source.toList ∧
        ∃ turn, Token.turn? source cursor = some turn ∧ turn.WithinBounds source cursor) ∧
    Token.Scans source 0 (tokenize source) ∧
    (∀ error, compile source = .error error → ∃ found, error = .diagnostic found ∧
      IsBoundary source.toList found.offset ∧ found.offset ≤ byteLength source.toList ∧
        found.CanBeShown source) ∧
    ∀ tokens, (∀ token ∈ tokens, Snippet.IsPlace source token.offset) →
      ∀ found, parse source tokens = .error found → found.CanBeShown source := by
  refine ⟨?_, Token.scans_tokenize source, ?_, ?_⟩
  · intro cursor visited
    have boundary := visited.isBoundary
    exact ⟨boundary, boundary.le, Token.withinBounds_of_isBoundary boundary⟩
  · intro error refused
    obtain ⟨found, stopped, rfl⟩ := compile_eq_error_iff.mp refused
    have boundary := isBoundary_of_readDefinition_error stopped
    exact ⟨found, rfl, boundary, boundary.le, Diagnostic.canBeShown_of_isPlace (Or.inl boundary)⟩
  · intro tokens places found stopped
    obtain ⟨fault, ran, rfl⟩ := parse_eq_error_iff.mp stopped
    rw [← Parser.definition_eq_run] at ran
    exact Diagnostic.canBeShown_of_isPlace
      (Parser.Fault.holds_at_offset ran places (Or.inr (Nat.le_refl _)))

end DefLang
