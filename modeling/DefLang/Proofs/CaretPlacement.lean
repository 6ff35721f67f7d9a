import DefLang.Proofs.QuotedText
import DefLang.Proofs.ScannerTurns

/-!
# The caret of a message is under the fault

A message has two lines. The first quotes a line of the source after its number,
and nothing in it or in the wording of a cause breaks a line. The caret of the
second is as far to the right as the character at the place of the diagnostic is
in the first, since no fault is found at a carriage return and a quoted line
loses nothing else. At the end of the source there is no character, and the
caret goes past the closing quote by the carriage returns that are not shown.
-/
namespace DefLang

namespace Text

/-- There is only one way to divide a text at an offset. -/
theorem append_inj_of_byteLength {text first second before after : List Char}
    (firstSplit : first ++ second = text) (split : before ++ after = text)
    (same : byteLength first = byteLength before) : first = before ∧ second = after := by
  have cut := splitAt?_append first second
  rw [same, firstSplit, ← split, splitAt?_append] at cut
  simpa [eq_comm] using cut

end Text

open Text

theorem Token.Kind.newline_notMem_describe (kind : Token.Kind) : '\n' ∉ kind.describe.toList := by
  cases kind <;> decide

/-- A text that is worded as it stands in the source, without quoting. -/
def Cause.rawText? : Cause → Option String
  | .duplicateParameter name => some name
  | .integerOutOfRange text => some text
  | .unmatched _ | .unexpected _ _ | .tooDeep _ => none

theorem Cause.newline_notMem_message {cause : Cause}
    (oneLine : ∀ text ∈ cause.rawText?, '\n' ∉ text.toList) : '\n' ∉ cause.message.toList := by
  unfold message
  cases cause with
  | unmatched rest => simp [newline_notMem_quote]
  | unexpected expected found =>
      have describeExpected : '\n' ∉ expected.describe.toList := by
        cases expected with
        | token kind => exact kind.newline_notMem_describe
        | endOfInput => decide
      have describeFound : '\n' ∉ (Token.Kind.describeFound found).toList := by
        cases found with
        | some kind => exact kind.newline_notMem_describe
        | none => decide
      simp [describeExpected, describeFound]
  | duplicateParameter name => simp [oneLine name rfl]
  | integerOutOfRange text => simp [oneLine text rfl]
  | tooDeep limit => simp [newline_notMem_toDigits]

/-- No character of a token is a space. -/
theorem Token.Kind.Admits.noSpace {kind : Token.Kind} {text : List Char}
    (admitted : kind.Admits text) :
    text ≠ [] ∧ ∀ character ∈ text, Token.isSpace character = false := by
  cases word : kind.isWord with
  | true =>
      obtain ⟨nonempty, inWord⟩ := admitted.isWordText word
      exact ⟨nonempty, fun character member =>
        Token.isSpace_of_isWordCharacter (inWord character member)⟩
  | false =>
      obtain ⟨mark, rfl, noSpace, -⟩ := admitted.exists_mark word
      simpa using noSpace

/-- The text that a cause takes from the source is that of the token at fault. -/
theorem Parser.Fault.text_of_rawText? {source : String} {fault : Parser.Fault} {text : String}
    (raw : text ∈ (fault.diagnostic source).cause.rawText?) :
    ∃ token, fault.token? = some token ∧ token.text = text := by
  rcases fault with ⟨expected, _ | found⟩ | param | literal | callee <;> cases raw
  · exact ⟨param, rfl, rfl⟩
  · exact ⟨literal, rfl, rfl⟩

/-- The wording of what is wrong with a source is a single line. -/
theorem newline_notMem_of_readDefinition_error {source : String} {found : Diagnostic}
    (stopped : readDefinition source = .error found) : '\n' ∉ found.cause.message.toList := by
  apply Cause.newline_notMem_message
  intro text raw newline
  rcases readDefinition_error_cases stopped with
    ⟨before, character, later, -, -, -, rfl⟩ | ⟨tokens, fault, tokenized, refused, rfl⟩
  · cases raw
  · obtain ⟨token, blamed, rfl⟩ := Parser.Fault.text_of_rawText? raw
    have member := Parser.Fault.mem_of_definition_eq_error refused blamed
    have noSpace := (admits_of_tokenize tokenized token member).noSpace.2
    exact absurd (noSpace '\n' newline) (by decide)

namespace Snippet

/-- The shown line in quotes, after its number and the column. -/
def quotedLine (snippet : Snippet) : String :=
  Nat.repr snippet.line ++ ":" ++ Nat.repr snippet.column ++ ": '" ++ snippet.text ++ "'"

/-- A message of two lines. The first quotes a line of the source, which ends in
some more carriage returns, and the second has a caret before the reason. -/
structure Illustrates (snippet : Snippet) (source message : String) (returns caret : Nat)
    (reason : String) : Prop where
  oneBreak : message.toList.count '\n' = 1
  lines : message.toList.splitOn '\n' =
    [snippet.quotedLine.toList, List.replicate caret ' ' ++ "^ ".toList ++ reason.toList]
  line : ∃ index, snippet.line = index + 1 ∧
    (source.toList.splitOn '\n')[index]? =
      some (snippet.text.toList ++ List.replicate returns '\r')
  trimmed : snippet.text.toList.getLast? ≠ some '\r'

theorem toList_quotedLine (snippet : Snippet) :
    snippet.quotedLine.toList =
      snippet.position.toList ++ '\x27' :: (snippet.text.toList ++ ['\x27']) := by
  simp [quotedLine, position]

theorem toList_message (snippet : Snippet) (reason : String) :
    (snippet.render ++ " " ++ reason).toList =
      snippet.quotedLine.toList ++
        '\n' :: (List.replicate (snippet.position.length + snippet.column) ' ' ++ "^ ".toList ++
          reason.toList) := by
  simp [render, toList_quotedLine]

theorem newline_notMem_quotedLine {snippet : Snippet} (oneLine : '\n' ∉ snippet.text.toList) :
    '\n' ∉ snippet.quotedLine.toList := by
  simp [quotedLine, newline_notMem_toDigits, oneLine]

section Between

variable (before after : List Char)

theorem toList_text_between :
    (between before after).text.toList = trimReturns (lastLine before ++ firstLine after) := by
  simp [between]

theorem newline_notMem_text_between : '\n' ∉ (between before after).text.toList := by
  intro newline
  rw [toList_text_between, trimReturns_eq_rdropWhile] at newline
  have inLine := (List.rdropWhile_prefix _ _).mem newline
  rcases List.mem_append.mp inLine with inFirst | inSecond
  · exact newline_notMem_lastLine before inFirst
  · exact newline_notMem_firstLine after inSecond

/-- Whatever place is shown, the message has the lines of a snippet. -/
theorem illustrates_between {source reason : String} (split : before ++ after = source.toList)
    (oneLine : '\n' ∉ reason.toList) :
    ∃ returns, lastLine before ++ firstLine after =
        (between before after).text.toList ++ List.replicate returns '\r' ∧
      (between before after).Illustrates source
        ((between before after).render ++ " " ++ reason) returns
        ((between before after).position.length + (between before after).column) reason := by
  obtain ⟨returns, joined⟩ := exists_trimReturns_append (lastLine before ++ firstLine after)
  rw [← toList_text_between] at joined
  have inFirst : '\n' ∉ (between before after).quotedLine.toList :=
    newline_notMem_quotedLine (newline_notMem_text_between before after)
  have inSecond (caret : Nat) :
      '\n' ∉ List.replicate caret ' ' ++ "^ ".toList ++ reason.toList := by
    simp [oneLine]
  refine ⟨returns, joined.symm, ?_, ?_, ?_, ?_⟩
  · rw [toList_message, List.count_append, List.count_cons_self, List.count_eq_zero.mpr inFirst,
      List.count_eq_zero.mpr (inSecond _)]
  · rw [toList_message, List.splitOn_append_cons_self_of_not_mem inFirst,
      List.splitOn_eq_singleton (inSecond _)]
  · refine ⟨before.count '\n', rfl, ?_⟩
    rw [← split, getElem?_splitOn_append, joined]
  · rw [toList_text_between]
    exact getLast?_trimReturns _

end Between

theorem at?_of_append {source : String} {before after : List Char}
    (split : before ++ after = source.toList) :
    at? source (byteLength before) = some (between before after) := by
  have inside : min (byteLength before) (byteLength source.toList) = byteLength before := by
    rw [← split, byteLength_append]
    omega
  simp only [at?, inside]
  rw [← split, splitAt?_append]

/-- The caret is under the character at the place. -/
theorem getElem?_quotedLine_between (before later : List Char) {character : Char}
    (noSpace : Token.isSpace character = false) :
    let snippet := between before (character :: later)
    snippet.quotedLine.toList[snippet.position.length + snippet.column]? = some character := by
  intro snippet
  have noReturn : character ≠ '\r' := by
    rintro rfl
    cases noSpace
  have inLine : character ≠ '\n' := by
    rintro rfl
    cases noSpace
  have inSource : (lastLine before ++ firstLine (character :: later))[(lastLine before).length]? =
      some character := by
    simp [firstLine, inLine]
  have inText : snippet.text.toList[(lastLine before).length]? = some character := by
    rw [toList_text_between]
    exact getElem?_trimReturns _ inSource noReturn
  obtain ⟨inside, -⟩ := List.getElem?_eq_some_iff.mp inText
  have column : snippet.column = (lastLine before).length + 1 := rfl
  have afterPosition : snippet.position.toList.length ≤
      snippet.position.length + snippet.column := by
    rw [String.length_toList]
    exact Nat.le_add_right _ _
  rw [toList_quotedLine, List.getElem?_append_right afterPosition, String.length_toList,
    Nat.add_sub_cancel_left, column, List.getElem?_cons_succ, List.getElem?_append_left inside,
    inText]

/-- At the end of the source, the caret is not under a character of the line. -/
theorem caret_between_nil {before : List Char} {returns : Nat}
    (line : lastLine before =
      (between before []).text.toList ++ List.replicate returns '\r') :
    let snippet := between before []
    ∃ closing, closing + 1 = snippet.quotedLine.length ∧
      snippet.position.length + snippet.column = closing + returns := by
  intro snippet
  have column : snippet.column = snippet.text.length + returns + 1 := by
    change (lastLine before).length + 1 = _
    rw [line, List.length_append, List.length_replicate, String.length_toList]
  have quoted : snippet.quotedLine.length = snippet.position.length + snippet.text.length + 2 := by
    rw [← String.length_toList, toList_quotedLine]
    simp only [List.length_append, List.length_cons, List.length_nil, String.length_toList]
    omega
  exact ⟨snippet.position.length + snippet.text.length + 1, by omega, by omega⟩

end Snippet

/-- The text at which a diagnostic of a source points: what starts with no token,
or the token that is blamed. It may also point at the end of the source. -/
inductive Diagnostic.PointsAt (source : String) (found : Diagnostic) : Option String → Prop where
  | rest {text : String} (stopped : tokenize source = .error found)
      (cause : found.cause = .unmatched text) : PointsAt source found (some text)
  | token {tokens : List Token} {fault : Parser.Fault} {token : Token}
      (tokenized : tokenize source = .ok tokens)
      (stopped : Parser.definition tokens = .error fault)
      (reported : fault.diagnostic source = found) (blamed : fault.token? = some token) :
      PointsAt source found (some token.text)
  | endOfInput {expected : Expected} (cause : found.cause = .unexpected expected none) :
      PointsAt source found none

/-- The caret is under the first character of the text at the offset. At the end of
the source it is right of the closing quote by as many characters as are not shown. -/
def Snippet.CaretAt (snippet : Snippet) (source : String) (offset returns caret : Nat) :
    Option String → Prop
  | some text => ∃ before character later after,
      before ++ text.toList ++ after = source.toList ∧ byteLength before = offset ∧
        text.toList = character :: later ∧ snippet.quotedLine.toList[caret]? = some character
  | none => offset = byteLength source.toList ∧
      ∃ closing, closing + 1 = snippet.quotedLine.length ∧ caret = closing + returns

/-- The text at which a diagnostic points is in the source, at its offset. -/
theorem Diagnostic.PointsAt.exists_append {source text : String} {found : Diagnostic}
    (points : found.PointsAt source (some text)) :
    ∃ before character later after,
      before ++ (character :: later ++ after) = source.toList ∧ byteLength before = found.offset ∧
        text.toList = character :: later ∧ Token.isSpace character = false := by
  cases points with
  | rest stopped cause =>
      obtain ⟨before, character, later, split, noSpace, rfl⟩ :=
        exists_append_of_tokenize_error stopped
      obtain rfl := Cause.unmatched.inj cause
      exact ⟨before, character, later, [], by simpa using split, rfl, by simp, noSpace⟩
  | @token tokens fault token tokenized stopped reported blamed =>
      subst reported
      have member := Parser.Fault.mem_of_definition_eq_error stopped blamed
      obtain ⟨before, after, split, place⟩ := exists_append_of_tokenize tokenized token member
      obtain ⟨nonempty, noSpace⟩ := (admits_of_tokenize tokenized token member).noSpace
      obtain ⟨character, later, spelled⟩ := List.exists_cons_of_ne_nil nonempty
      rw [spelled] at split noSpace
      refine ⟨before, character, later, after, split, ?_, spelled, noSpace character (by simp)⟩
      rw [Parser.Fault.offset_diagnostic, blamed, place]
      rfl

theorem exists_pointsAt_of_readDefinition_error {source : String} {found : Diagnostic}
    (stopped : readDefinition source = .error found) :
    ∃ target, found.PointsAt source target := by
  rcases readDefinition_error_cases stopped with
    ⟨before, character, later, unmatched, -, -, rfl⟩ | ⟨tokens, fault, tokenized, refused, rfl⟩
  · exact ⟨_, .rest unmatched rfl⟩
  · cases blamed : fault.token? with
    | some token => exact ⟨_, .token tokenized refused rfl blamed⟩
    | none =>
        rcases fault with ⟨expected, _ | found⟩ | param | literal | callee <;> cases blamed
        exact ⟨none, .endOfInput rfl⟩

/-- Where nothing was found, it was looked for at the end of the source. -/
theorem offset_of_unexpected_none {source : String} {found : Diagnostic} {expected : Expected}
    (stopped : readDefinition source = .error found)
    (cause : found.cause = .unexpected expected none) :
    found.offset = byteLength source.toList := by
  rcases readDefinition_error_cases stopped with
    ⟨before, character, later, -, -, -, rfl⟩ | ⟨tokens, fault, tokenized, refused, rfl⟩
  · cases cause
  · rcases fault with ⟨expected, _ | found⟩ | param | literal | callee <;> cases cause
    rfl

/-- The message of an error has two lines: a line of the source by its number,
without carriage returns at its end, and a caret with the reason. The caret is under
the first character of what the diagnostic points at; when that is the end of the
source, it is right of the closing quote by the carriage returns that were removed. -/
def CompileError.PointsAtFault (source : String) (error : CompileError) : Prop :=
  ∃ found message, ∃ snippet : Snippet, ∃ returns caret, error = .diagnostic found ∧
    error.message? source = some message ∧
    snippet.Illustrates source message returns caret found.cause.message ∧
    (∃ target, found.PointsAt source target) ∧
    ∀ target, found.PointsAt source target →
      snippet.CaretAt source found.offset returns caret target

/-- Every source that is refused has a message that points at its fault. -/
theorem message_points_at_fault (source : String) (error : CompileError)
    (refused : compile source = .error error) : error.PointsAtFault source := by
  obtain ⟨found, stopped, rfl⟩ := compile_eq_error_iff.mp refused
  obtain ⟨before, after, split, place⟩ := isBoundary_of_readDefinition_error stopped
  have shown := Snippet.at?_of_append split
  obtain ⟨returns, line, illustrated⟩ := Snippet.illustrates_between before after split
    (newline_notMem_of_readDefinition_error stopped)
  refine ⟨found, _, Snippet.between before after, returns, _, rfl, ?_, illustrated,
    exists_pointsAt_of_readDefinition_error stopped, ?_⟩
  · simp only [CompileError.message?, Diagnostic.message?, ← place, shown]
  · intro target points
    cases target with
    | some text =>
        obtain ⟨first, character, later, rest, textSplit, textPlace, spelled, noSpace⟩ :=
          points.exists_append
        obtain ⟨rfl, rfl⟩ :=
          append_inj_of_byteLength split textSplit (place.trans textPlace.symm)
        refine ⟨before, character, later, rest, ?_, place, spelled,
          Snippet.getElem?_quotedLine_between before (later ++ rest) noSpace⟩
        rw [spelled, List.append_assoc, textSplit]
    | none =>
        cases points with
        | endOfInput cause =>
            have atEnd := offset_of_unexpected_none stopped cause
            obtain ⟨rfl, rfl⟩ := append_inj_of_byteLength split (List.append_nil source.toList)
              (place.trans atEnd)
            refine ⟨atEnd, Snippet.caret_between_nil ?_⟩
            simpa [Snippet.firstLine] using line

/-- Here the caret is three characters right of the closing quote. -/
theorem message_points_past_returns :
    compile "def f(x)\r\n  g(x\r\r\r" =
        .error (.diagnostic ⟨18, .unexpected (.token .closeParen) none⟩) ∧
      CompileError.PointsAtFault "def f(x)\r\n  g(x\r\r\r"
        (.diagnostic ⟨18, .unexpected (.token .closeParen) none⟩) :=
  ⟨by decide +kernel, message_points_at_fault _ _ (by decide +kernel)⟩

end DefLang
