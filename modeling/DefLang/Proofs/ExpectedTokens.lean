import DefLang.Proofs.LeftmostFault

/-!
# What a syntax error calls for could have come next

A syntax error names one kind of token that is missing. The machine has a step for
tokens of that kind wherever it names it, whatever is open around the place, and
refuses such a token only when it repeats a parameter. So the kind that is named is
never the one that was found, and there is always a token of it that leads on to a
definition. The end of the input is named after a whole definition, and only there.
-/
namespace DefLang

namespace Parser.Progress

/-- The names that the next token may not have. -/
def namesTaken : Progress → List String
  | paramDue _ params => params
  | _ => []

section Expected

variable {progress : Progress} {kind : Token.Kind} {token : Token}

theorem kind_mem_of_expected (due : progress.expected = .token kind) :
    kind ∈ [.defKeyword, .identifier, .openParen, .closeParen, Token.Kind.endKeyword] := by
  cases progress with
  | identifierRead _ calls _ | exprRead _ calls _ =>
      cases calls <;> cases due <;> decide
  | finished tree => cases due
  | start | defRead | nameRead _ | paramsOpened _ | paramDue _ _ | paramRead _ _
  | operandDue _ _ | callOpened _ _ _ =>
      cases due
      decide

theorem exists_takes_of_expectedAfter {header : Header} {calls : List OpenCall} {expr : Expr}
    (read : progress.operandRead? = some (header, calls, expr))
    (due : expectedAfter calls = .token kind) (isKind : token.kind = kind) :
    ∃ next, Takes progress token next := by
  cases calls with
  | nil =>
      cases due
      exact ⟨_, .endKeyword read isKind⟩
  | cons innermost outer =>
      cases due
      exact ⟨_, .closeCall read isKind⟩

/-- A token of the kind that is named is taken, unless it repeats a parameter. -/
theorem exists_takes_of_expected (due : progress.expected = .token kind)
    (isKind : token.kind = kind) (new : token.text ∉ progress.namesTaken) :
    ∃ next, Takes progress token next := by
  cases progress with
  | start =>
      cases due
      exact ⟨_, .defKeyword isKind⟩
  | defRead =>
      cases due
      exact ⟨_, .name isKind⟩
  | nameRead name =>
      cases due
      exact ⟨_, .openParams isKind⟩
  | paramsOpened name =>
      cases due
      exact ⟨_, .noParams isKind⟩
  | paramDue name params =>
      cases due
      exact ⟨_, .param isKind new⟩
  | paramRead name params =>
      cases due
      exact ⟨_, .closeParams isKind⟩
  | operandDue header calls | callOpened header calls callee =>
      cases due
      exact ⟨_, .identifier rfl isKind⟩
  | identifierRead header calls identifier | exprRead header calls expr =>
      exact exists_takes_of_expectedAfter rfl due isKind
  | finished tree => cases due

/-- Some token of the kind that is named is taken. -/
theorem exists_step_of_expected (due : progress.expected = .token kind) :
    ∃ token next, token.kind = kind ∧ progress.step token = .ok next := by
  obtain ⟨text, new⟩ := exists_new_name progress.namesTaken
  let token : Token := ⟨kind, text, 0⟩
  obtain ⟨next, taken⟩ : ∃ next, Takes progress token next :=
    exists_takes_of_expected due rfl new
  exact ⟨token, next, rfl, taken.step_eq⟩

theorem step_of_mem_namesTaken (due : progress.expected = .token kind)
    (isKind : token.kind = kind) (repeated : token.text ∈ progress.namesTaken) :
    progress.step token = .error (.duplicateParameter token) := by
  cases progress with
  | paramDue name params =>
      cases due
      have member : token.text ∈ params := repeated
      simp [step, isKind, member]
  | _ => cases repeated

/-- What was found is not what is named. -/
theorem kind_ne_of_step_eq_unexpected (due : progress.expected = .token kind)
    {expected : Expected} {found : Option Token}
    (refused : progress.step token = .error (.unexpected expected found)) :
    token.kind ≠ kind := by
  intro isKind
  by_cases repeated : token.text ∈ progress.namesTaken
  · rw [step_of_mem_namesTaken due isKind repeated] at refused
    cases refused
  · obtain ⟨next, taken⟩ := exists_takes_of_expected due isKind repeated
    rw [taken.step_eq] at refused
    cases refused

theorem expected_eq_endOfInput_iff :
    progress.expected = .endOfInput ↔ ∃ tree, progress = finished tree := by
  constructor
  · intro ended
    cases progress with
    | finished tree => exact ⟨tree, rfl⟩
    | identifierRead _ calls _ | exprRead _ calls _ => cases calls <;> cases ended
    | start | defRead | nameRead _ | paramsOpened _ | paramDue _ _ | paramRead _ _
    | operandDue _ _ | callOpened _ _ _ => cases ended
  · rintro ⟨tree, rfl⟩
    rfl

end Expected

end Parser.Progress

open DefLang.Parser DefLang.Parser.Progress

/-- A syntax error is reported at the index: at the end when nothing was found, and
otherwise at the first wrong token. -/
def ReportedAt (source : String) (tokens : List Token) (offset : Nat)
    (found : Option Token.Kind) (index : Nat) : Prop :=
  match found with
  | none => index = tokens.length ∧ offset = Text.byteLength source.toList
  | some kind => IsFirstWrong source tokens index ∧
      ∃ token, tokens[index]? = some token ∧ token.kind = kind ∧ token.offset = offset

theorem ReportedAt.unique {source : String} {tokens : List Token} {offset : Nat}
    {found : Option Token.Kind} {first second : Nat}
    (reported : ReportedAt source tokens offset found first)
    (other : ReportedAt source tokens offset found second) : first = second := by
  cases found with
  | none => exact reported.1.trans other.1.symm
  | some kind => exact reported.1.unique other.1

/-- The machine stands at the index where a syntax error is reported, in a state
that calls for what the error names. -/
theorem exists_of_parse_eq_unexpected {source : String} {tokens : List Token} {offset : Nat}
    {expected : Expected} {found : Option Token.Kind}
    (stopped : parse source tokens = .error ⟨offset, .unexpected expected found⟩) :
    ∃ index reached, ReportedAt source tokens offset found index ∧
      (tokens.take index).foldlM step start = .ok reached ∧ reached.expected = expected ∧
      (∀ kind, expected = .token kind → found ≠ some kind) ∧
      ((∃ tree, reached = finished tree) → index < tokens.length) := by
  obtain ⟨fault, ran, same⟩ := parse_eq_error_iff.mp stopped
  rcases exists_of_run_eq_error ran with
    ⟨reached, taken, early⟩ | ⟨before, token, after, reached, rfl, taken, refused⟩
  · obtain rfl := finish_eq_error early
    cases same
    refine ⟨tokens.length, reached, ⟨rfl, rfl⟩, by rwa [List.take_length], rfl, by simp, ?_⟩
    rintro ⟨tree, rfl⟩
    cases early
  · rcases step_eq_error refused with rfl | rfl | rfl | ⟨_, _, _, _, rfl⟩ <;> cases same
    refine ⟨before.length, reached, ⟨isFirstWrong_of_step_eq_error taken refused, ?_⟩,
      by rwa [List.take_left], rfl, ?_, by simp⟩
    · exact ⟨token, by simp, rfl, rfl⟩
    · intro kind due foundKind
      exact kind_ne_of_step_eq_unexpected due refused (Option.some.inj foundKind)

/-- A syntax error is reported at one index. A kind of token that it names there was
not found, is not that of integers or commas, and has some token with which the
tokens before go on towards a definition, which they are not yet. The end of the input
is named exactly when they are one and more tokens follow. -/
theorem parse_expectation_honest (source : String) (tokens : List Token) (offset : Nat)
    (expected : Expected) (found : Option Token.Kind)
    (stopped : parse source tokens = .error ⟨offset, .unexpected expected found⟩) :
    ∃ index, ReportedAt source tokens offset found index ∧
      (∀ other, ReportedAt source tokens offset found other → other = index) ∧
      (∀ kind, expected = .token kind → found ≠ some kind ∧
        kind ∈ [.defKeyword, .identifier, .openParen, .closeParen, Token.Kind.endKeyword] ∧
        ¬ Accepted source (tokens.take index) ∧
        ∃ token : Token, token.kind = kind ∧ Viable source (tokens.take index ++ [token])) ∧
      (expected = .endOfInput ↔
        Accepted source (tokens.take index) ∧ index < tokens.length) := by
  obtain ⟨index, reached, reported, taken, rfl, notFound, inside⟩ :=
    exists_of_parse_eq_unexpected stopped
  have accepted : Accepted source (tokens.take index) ↔ reached.expected = .endOfInput := by
    rw [accepted_iff, taken, expected_eq_endOfInput_iff]
    simp
  refine ⟨index, reported, fun _ other => other.unique reported, ?_, ?_⟩
  · intro kind due
    obtain ⟨token, next, isKind, stepped⟩ := exists_step_of_expected due
    refine ⟨notFound kind due, kind_mem_of_expected due, ?_, token, isKind, ?_⟩
    · rw [accepted, due]
      simp
    · rw [viable_iff]
      exact ⟨next, foldlM_append_singleton_eq_ok_iff.mpr ⟨reached, taken, stepped⟩⟩
  · rw [accepted]
    constructor
    · intro ended
      exact ⟨ended, inside (expected_eq_endOfInput_iff.mp ended)⟩
    · exact And.left

theorem parse_expectation_honest_after_comma :
    let source := "def f(x,) x end"
    let tokens : List Token := [⟨.defKeyword, "def", 0⟩, ⟨.identifier, "f", 4⟩,
      ⟨.openParen, "(", 5⟩, ⟨.identifier, "x", 6⟩, ⟨.comma, ",", 7⟩, ⟨.closeParen, ")", 8⟩,
      ⟨.identifier, "x", 10⟩, ⟨.endKeyword, "end", 12⟩]
    parse source tokens =
        .error ⟨8, .unexpected (.token .identifier) (some .closeParen)⟩ ∧
      ∃ index, ReportedAt source tokens 8 (some .closeParen) index ∧
        ∃ token : Token, token.kind = .identifier ∧
          Viable source (tokens.take index ++ [token]) := by
  intro source tokens
  have stopped : parse source tokens =
      .error ⟨8, .unexpected (.token .identifier) (some .closeParen)⟩ := by cbv
  obtain ⟨index, reported, -, missing, -⟩ :=
    parse_expectation_honest source tokens 8 _ _ stopped
  exact ⟨stopped, index, reported, (missing .identifier rfl).2.2.2⟩

end DefLang
