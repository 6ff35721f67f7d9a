import DefLang.Proofs.SnippetPlaces
import DefLang.Proofs.TokenwiseReading
import Mathlib.Data.Fintype.EquivFin

/-!
# Faults are reported at the leftmost token that is wrong

Some tokens are viable when they can be continued to tokens that are read
without a fault. The machine that takes one token at a time gets through exactly
the viable lists: from every state that it reaches there is a way to the end of
a definition, with a parameter that is new where one is due and with all open
calls closed. So the token that it refuses is the first that makes its prefix
unviable, apart from a callee that is too deep, where it is the token after it.
-/
namespace DefLang

namespace Parser.Progress

/-- Some tokens lead to the end of a definition. -/
def CanFinish (progress : Progress) : Prop :=
  ∃ tokens tree, run progress tokens = .ok tree

theorem CanFinish.of_step {progress next : Progress} {token : Token}
    (stepped : progress.step token = .ok next) (finishes : next.CanFinish) :
    progress.CanFinish := by
  obtain ⟨tokens, tree, ran⟩ := finishes
  exact ⟨token :: tokens, tree, by rw [run_cons, stepped, ok_bind, ran]⟩

theorem canFinish_exprRead (header : Header) (calls : List OpenCall) (expr : Expr) :
    (exprRead header calls expr).CanFinish := by
  induction calls generalizing expr with
  | nil =>
      have ended : (exprRead header [] expr).step ⟨.endKeyword, "end", 0⟩ =
          .ok (finished ⟨header.name, header.params, expr⟩) := rfl
      exact .of_step ended ⟨[], _, rfl⟩
  | cons innermost outer inductionHypothesis =>
      -- Closing parentheses alone are enough, and closing is never refused.
      have closed : (exprRead header (innermost :: outer) expr).step ⟨.closeParen, ")", 0⟩ =
          .ok (exprRead header outer (innermost.close expr)) := rfl
      exact .of_step closed (inductionHypothesis _)

theorem canFinish_identifierRead (header : Header) (calls : List OpenCall)
    (identifier : Token) : (identifierRead header calls identifier).CanFinish := by
  cases calls with
  | nil =>
      have ended : (identifierRead header [] identifier).step ⟨.endKeyword, "end", 0⟩ =
          .ok (finished ⟨header.name, header.params, .var identifier.text⟩) := rfl
      exact .of_step ended ⟨[], _, rfl⟩
  | cons innermost outer =>
      have closed : (identifierRead header (innermost :: outer) identifier).step
          ⟨.closeParen, ")", 0⟩ =
            .ok (exprRead header outer (innermost.close (.var identifier.text))) := rfl
      exact .of_step closed (canFinish_exprRead header outer _)

theorem canFinish_operandDue (header : Header) (calls : List OpenCall) :
    (operandDue header calls).CanFinish := by
  have named : (operandDue header calls).step ⟨.identifier, "x", 0⟩ =
      .ok (identifierRead header calls ⟨.identifier, "x", 0⟩) := rfl
  exact .of_step named (canFinish_identifierRead header calls _)

theorem canFinish_paramRead (name : String) (params : List String) :
    (paramRead name params).CanFinish := by
  have closed : (paramRead name params).step ⟨.closeParen, ")", 0⟩ =
      .ok (operandDue ⟨name, params⟩ []) := rfl
  exact .of_step closed (canFinish_operandDue _ [])

/-- There are more names than those of a list, so one of them is still new. -/
theorem exists_new_name (names : List String) : ∃ name, name ∉ names := by
  obtain ⟨name, notMember⟩ := Infinite.exists_notMem_finset names.toFinset
  exact ⟨name, by simpa using notMember⟩

theorem canFinish_paramDue (name : String) (params : List String) :
    (paramDue name params).CanFinish := by
  obtain ⟨param, new⟩ := exists_new_name params
  have named : (paramDue name params).step ⟨.identifier, param, 0⟩ =
      .ok (paramRead name (params ++ [param])) := by
    simp [step, new]
  exact .of_step named (canFinish_paramRead name _)

theorem canFinish_paramsOpened (name : String) : (paramsOpened name).CanFinish := by
  have closed : (paramsOpened name).step ⟨.closeParen, ")", 0⟩ =
      .ok (operandDue ⟨name, []⟩ []) := rfl
  exact .of_step closed (canFinish_operandDue _ [])

theorem canFinish_defRead : defRead.CanFinish := by
  have named : defRead.step ⟨.identifier, "x", 0⟩ = .ok (nameRead "x") := rfl
  have opened : (nameRead "x").step ⟨.openParen, "(", 0⟩ = .ok (paramsOpened "x") := rfl
  exact .of_step named (.of_step opened (canFinish_paramsOpened "x"))

/-- Whatever is read so far, there is a way to the end of a definition. -/
theorem canFinish (progress : Progress) : progress.CanFinish := by
  cases progress with
  | start =>
      have started : start.step ⟨.defKeyword, "def", 0⟩ = .ok defRead := rfl
      exact .of_step started canFinish_defRead
  | defRead => exact canFinish_defRead
  | nameRead name =>
      have opened : (nameRead name).step ⟨.openParen, "(", 0⟩ = .ok (paramsOpened name) := rfl
      exact .of_step opened (canFinish_paramsOpened name)
  | paramsOpened name => exact canFinish_paramsOpened name
  | paramDue name params => exact canFinish_paramDue name params
  | paramRead name params => exact canFinish_paramRead name params
  | operandDue header calls => exact canFinish_operandDue header calls
  | identifierRead header calls identifier =>
      exact canFinish_identifierRead header calls identifier
  | callOpened header calls callee =>
      have closed : (callOpened header calls callee).step ⟨.closeParen, ")", 0⟩ =
          .ok (exprRead header calls (.call callee [])) := rfl
      exact .of_step closed (canFinish_exprRead header calls _)
  | exprRead header calls expr => exact canFinish_exprRead header calls expr
  | finished tree => exact ⟨[], tree, rfl⟩

theorem finish_eq (progress : Progress) :
    (∃ tree, progress = finished tree) ∨
      progress.finish = .error (.unexpected progress.expected none) := by
  cases progress with
  | finished tree => exact Or.inl ⟨tree, rfl⟩
  | _ => exact Or.inr rfl

theorem finish_eq_error {progress : Progress} {fault : Fault}
    (early : progress.finish = .error fault) :
    fault = .unexpected progress.expected none := by
  rcases finish_eq progress with ⟨tree, rfl⟩ | unfinished
  · cases early
  · rw [unfinished] at early
    cases early
    rfl

theorem takeOperand_eq_error {header : Header} {calls : List OpenCall} {token : Token}
    {fault : Fault} (refused : takeOperand header calls token = .error fault) :
    fault = .unexpected (.token .identifier) (some token) ∨
      fault = .integerOutOfRange token := by
  unfold takeOperand at refused
  split at refused
  · split at refused
    · cases refused
    · cases refused
      exact Or.inr rfl
  · split at refused
    · cases refused
    · cases refused
      exact Or.inl rfl

theorem takeAfter_eq_error {header : Header} {calls : List OpenCall} {expr : Expr}
    {token : Token} {fault : Fault} (refused : takeAfter header calls expr token = .error fault) :
    fault = .unexpected (expectedAfter calls) (some token) := by
  cases calls with
  | nil =>
      simp only [takeAfter] at refused
      split at refused
      · cases refused
      · cases refused
        rfl
  | cons innermost outer =>
      simp only [takeAfter] at refused
      split at refused
      · cases refused
      · split at refused
        · cases refused
        · cases refused
          rfl

/-- A refused token is at fault itself, unless it opens a call whose callee has
no room. -/
theorem step_eq_error {progress : Progress} {token : Token} {fault : Fault}
    (refused : progress.step token = .error fault) :
    fault = .unexpected progress.expected (some token) ∨
      fault = .duplicateParameter token ∨ fault = .integerOutOfRange token ∨
      ∃ header calls callee, progress = identifierRead header calls callee ∧
        fault = .tooDeep callee := by
  cases progress with
  | paramDue name params =>
      simp only [step] at refused
      split at refused
      · split at refused
        · cases refused
          exact Or.inr (Or.inl rfl)
        · cases refused
      · cases refused
        exact Or.inl rfl
  | operandDue header calls =>
      rcases takeOperand_eq_error refused with rfl | rfl
      · exact Or.inl rfl
      · exact Or.inr (Or.inr (Or.inl rfl))
  | identifierRead header calls callee =>
      simp only [step] at refused
      split at refused
      · split at refused
        · cases refused
          exact Or.inr (Or.inr (Or.inr ⟨header, calls, callee, rfl, rfl⟩))
        · cases refused
      · exact Or.inl (takeAfter_eq_error refused)
  | callOpened header calls callee =>
      simp only [step] at refused
      split at refused
      · cases refused
      · rcases takeOperand_eq_error refused with rfl | rfl
        · exact Or.inl rfl
        · exact Or.inr (Or.inr (Or.inl rfl))
  | exprRead header calls expr => exact Or.inl (takeAfter_eq_error refused)
  | finished tree =>
      cases refused
      exact Or.inl rfl
  | start | defRead | nameRead name =>
      simp only [step] at refused
      split at refused
      · cases refused
      · cases refused
        exact Or.inl rfl
  | paramsOpened name | paramRead name params =>
      simp only [step] at refused
      split at refused
      · cases refused
      · split at refused
        · cases refused
        · cases refused
          exact Or.inl rfl

theorem eq_of_takeOperand_eq_identifierRead {header next : Header}
    {calls opened : List OpenCall} {token identifier : Token}
    (taken : takeOperand header calls token = .ok (identifierRead next opened identifier)) :
    identifier = token := by
  unfold takeOperand at taken
  split at taken
  · split at taken <;> cases taken
  · split at taken
    · cases taken
      rfl
    · cases taken

theorem takeAfter_ne_identifierRead {header next : Header} {calls opened : List OpenCall}
    {expr : Expr} {token identifier : Token} :
    takeAfter header calls expr token ≠ .ok (identifierRead next opened identifier) := by
  intro taken
  cases calls with
  | nil =>
      simp only [takeAfter] at taken
      split at taken <;> cases taken
  | cons innermost outer =>
      simp only [takeAfter] at taken
      split at taken
      · cases taken
      · split at taken <;> cases taken

/-- The identifier that is remembered is the token that was just taken. -/
theorem eq_of_step_eq_identifierRead {progress : Progress} {token identifier : Token}
    {header : Header} {calls : List OpenCall}
    (stepped : progress.step token = .ok (identifierRead header calls identifier)) :
    identifier = token := by
  cases progress with
  | operandDue => exact eq_of_takeOperand_eq_identifierRead stepped
  | callOpened =>
      simp only [step] at stepped
      split at stepped
      · cases stepped
      · exact eq_of_takeOperand_eq_identifierRead stepped
  | identifierRead =>
      simp only [step] at stepped
      split at stepped
      · split at stepped <;> cases stepped
      · exact absurd stepped takeAfter_ne_identifierRead
  | exprRead => exact absurd stepped takeAfter_ne_identifierRead
  | finished => cases stepped
  | start | defRead | nameRead =>
      simp only [step] at stepped
      split at stepped <;> cases stepped
  | paramDue =>
      simp only [step] at stepped
      split at stepped
      · split at stepped <;> cases stepped
      · cases stepped
  | paramsOpened | paramRead =>
      simp only [step] at stepped
      split at stepped
      · cases stepped
      · split at stepped <;> cases stepped

theorem exists_step_eq_error {progress : Progress} {tokens : List Token} {fault : Fault}
    (stopped : tokens.foldlM step progress = .error fault) :
    ∃ before token after reached, tokens = before ++ token :: after ∧
      before.foldlM step progress = .ok reached ∧ reached.step token = .error fault := by
  induction tokens generalizing progress with
  | nil => cases stopped
  | cons token rest inductionHypothesis =>
      rw [List.foldlM_cons] at stopped
      cases stepped : progress.step token with
      | error first =>
          rw [stepped, error_bind] at stopped
          cases stopped
          exact ⟨[], token, rest, progress, rfl, rfl, stepped⟩
      | ok next =>
          rw [stepped, ok_bind] at stopped
          obtain ⟨before, wrong, after, reached, rfl, taken, refused⟩ :=
            inductionHypothesis stopped
          refine ⟨token :: before, wrong, after, reached, rfl, ?_, refused⟩
          rw [List.foldlM_cons, stepped, ok_bind, taken]

theorem exists_of_run_eq_error {progress : Progress} {tokens : List Token} {fault : Fault}
    (stopped : run progress tokens = .error fault) :
    (∃ reached, tokens.foldlM step progress = .ok reached ∧ reached.finish = .error fault) ∨
      ∃ before token after reached, tokens = before ++ token :: after ∧
        before.foldlM step progress = .ok reached ∧ reached.step token = .error fault := by
  rw [run] at stopped
  cases taken : tokens.foldlM step progress with
  | error first =>
      rw [taken, error_bind] at stopped
      cases stopped
      exact Or.inr (exists_step_eq_error taken)
  | ok reached =>
      rw [taken, ok_bind] at stopped
      exact Or.inl ⟨reached, rfl, stopped⟩

theorem foldlM_append_singleton_eq_ok_iff {progress reached : Progress} {before : List Token}
    {token : Token} :
    (before ++ [token]).foldlM step progress = .ok reached ↔
      ∃ middle, before.foldlM step progress = .ok middle ∧ middle.step token = .ok reached := by
  rw [List.foldlM_append]
  cases before.foldlM step progress with
  | error fault => simp
  | ok middle => cases stepped : middle.step token <;> simp [stepped, pure, Except.pure]

theorem step_ne_unexpected_none {progress : Progress} {token : Token} {expected : Expected} :
    progress.step token ≠ .error (.unexpected expected none) := by
  intro refused
  rcases step_eq_error refused with fault | fault | fault | ⟨_, _, _, _, fault⟩ <;> cases fault

theorem eq_append_of_foldlM_eq_identifierRead {tokens : List Token} {identifier : Token}
    {header : Header} {calls : List OpenCall}
    (taken : tokens.foldlM step start = .ok (identifierRead header calls identifier)) :
    ∃ before, tokens = before ++ [identifier] := by
  rcases List.eq_nil_or_concat' tokens with rfl | ⟨before, last, rfl⟩
  · cases taken
  · rw [List.foldlM_append] at taken
    obtain ⟨reached, _, stepped⟩ := exists_of_bind_eq_ok taken
    rw [List.foldlM_cons] at stepped
    obtain ⟨next, lastTaken, returned⟩ := exists_of_bind_eq_ok stepped
    cases returned
    exact ⟨before, by rw [eq_of_step_eq_identifierRead lastTaken]⟩

end Parser.Progress

open DefLang.Parser DefLang.Parser.Progress

/-- The tokens are read as a definition. -/
def Accepted (source : String) (tokens : List Token) : Prop :=
  ∃ tree, parse source tokens = .ok tree

/-- Some accepted tokens start with these. -/
def Viable (source : String) (tokens : List Token) : Prop :=
  ∃ longer, Accepted source longer ∧ tokens <+: longer

/-- The token at the index is the first wrong one: some accepted tokens start with
those before it, and none with those up to it. -/
def IsFirstWrong (source : String) (tokens : List Token) (index : Nat) : Prop :=
  index < tokens.length ∧ Viable source (tokens.take index) ∧
    ¬ Viable source (tokens.take (index + 1))

theorem Viable.of_isPrefix {source : String} {tokens shorter : List Token}
    (viable : Viable source tokens) (start : shorter <+: tokens) : Viable source shorter := by
  obtain ⟨longer, accepted, begins⟩ := viable
  exact ⟨longer, accepted, start.trans begins⟩

theorem IsFirstWrong.le {source : String} {tokens : List Token} {first second : Nat}
    (wrong : IsFirstWrong source tokens first) (other : IsFirstWrong source tokens second) :
    second ≤ first := by
  by_contra later
  have start : tokens.take (first + 1) <+: tokens.take second :=
    List.take_prefix_take_left (by omega)
  exact wrong.2.2 (other.2.1.of_isPrefix start)

theorem IsFirstWrong.unique {source : String} {tokens : List Token} {first second : Nat}
    (wrong : IsFirstWrong source tokens first) (other : IsFirstWrong source tokens second) :
    first = second :=
  Nat.le_antisymm (other.le wrong) (wrong.le other)

/-- The diagnostic shows the place of the first wrong token, or that of the callee
before it where there are too many calls open. If all the tokens are the start
of accepted tokens, then it shows the end of the source. -/
def ReportedLeftmost (source : String) (tokens : List Token) (diagnostic : Diagnostic) : Prop :=
  match diagnostic.cause with
  | .unmatched _ => False
  | .unexpected _ none =>
      Snippet.SamePlace source diagnostic.offset (Text.byteLength source.toList)
  | .unexpected _ (some kind) =>
      ∃ index token, tokens[index]? = some token ∧ token.kind = kind ∧
        IsFirstWrong source tokens index ∧
        Snippet.SamePlace source diagnostic.offset token.offset
  | .duplicateParameter text | .integerOutOfRange text =>
      ∃ index token, tokens[index]? = some token ∧ token.text = text ∧
        IsFirstWrong source tokens index ∧
        Snippet.SamePlace source diagnostic.offset token.offset
  | .tooDeep _ =>
      ∃ index token, tokens[index]? = some token ∧ IsFirstWrong source tokens (index + 1) ∧
        Snippet.SamePlace source diagnostic.offset token.offset

theorem parse_eq_run (source : String) (tokens : List Token) :
    parse source tokens = (run start tokens).mapError (Fault.diagnostic source) := by
  rw [parse, definition_eq_run]

theorem accepted_iff {source : String} {tokens : List Token} :
    Accepted source tokens ↔ ∃ tree, tokens.foldlM step start = .ok (finished tree) := by
  have ran (tree : Definition) :
      parse source tokens = .ok tree ↔ tokens.foldlM step start = .ok (finished tree) := by
    rw [parse_eq_ok_iff, definition_eq_run, run]
    constructor
    · intro read
      obtain ⟨reached, taken, ended⟩ := exists_of_bind_eq_ok read
      cases reached <;> cases ended
      exact taken
    · intro taken
      rw [taken]
      rfl
  exact exists_congr ran

/-- The tokens that the machine takes are those that can be continued. -/
theorem viable_iff {source : String} {tokens : List Token} :
    Viable source tokens ↔ ∃ reached, tokens.foldlM step start = .ok reached := by
  constructor
  · rintro ⟨longer, accepted, ⟨after, rfl⟩⟩
    obtain ⟨tree, taken⟩ := accepted_iff.mp accepted
    rw [List.foldlM_append] at taken
    obtain ⟨reached, first, _⟩ := exists_of_bind_eq_ok taken
    exact ⟨reached, first⟩
  · rintro ⟨reached, taken⟩
    obtain ⟨after, tree, finishes⟩ := canFinish reached
    refine ⟨tokens ++ after, ⟨tree, ?_⟩, List.prefix_append tokens after⟩
    rw [parse_eq_ok_iff, definition_eq_run, run_append, taken, ok_bind, finishes]

theorem isFirstWrong_of_step_eq_error {source : String} {before after : List Token}
    {token : Token} {reached : Progress} {fault : Fault}
    (taken : before.foldlM step start = .ok reached)
    (refused : reached.step token = .error fault) :
    IsFirstWrong source (before ++ token :: after) before.length := by
  have upTo : (before ++ token :: after).take (before.length + 1) = before ++ [token] := by
    simp [List.take_append]
  refine ⟨by simp, ?_, ?_⟩
  · rw [List.take_left, viable_iff]
    exact ⟨reached, taken⟩
  · rw [upTo, viable_iff]
    rintro ⟨next, both⟩
    rw [List.foldlM_append, taken, ok_bind, List.foldlM_cons, refused, error_bind] at both
    cases both

theorem reportedLeftmost_of_step_eq_error {source : String} {before after : List Token}
    {token : Token} {reached : Progress} {fault : Fault}
    (places : ∀ any ∈ before ++ token :: after, Snippet.IsPlace source any.offset)
    (taken : before.foldlM step start = .ok reached)
    (refused : reached.step token = .error fault) :
    ReportedLeftmost source (before ++ token :: after) (fault.diagnostic source) := by
  have wrong : IsFirstWrong source (before ++ token :: after) before.length :=
    isFirstWrong_of_step_eq_error taken refused
  have found : (before ++ token :: after)[before.length]? = some token := by simp
  have shown : Snippet.SamePlace source token.offset token.offset :=
    Snippet.samePlace_of_isPlace (places token (by simp))
  rcases step_eq_error refused with rfl | rfl | rfl | ⟨header, calls, callee, rfl, rfl⟩
  · exact ⟨before.length, token, found, rfl, wrong, shown⟩
  · exact ⟨before.length, token, found, rfl, wrong, shown⟩
  · exact ⟨before.length, token, found, rfl, wrong, shown⟩
  · -- The callee was taken just before the token that opens its arguments.
    obtain ⟨earlier, rfl⟩ := eq_append_of_foldlM_eq_identifierRead taken
    refine ⟨earlier.length, callee, by simp, ?_, ?_⟩
    · simpa using wrong
    · exact Snippet.samePlace_of_isPlace (places callee (by simp))

/-- The tokens can be continued by at least one more exactly when they are all
taken and are no definition yet. -/
theorem exists_longer_iff {source : String} {tokens : List Token} :
    (∃ longer, Accepted source longer ∧ tokens <+: longer ∧ tokens ≠ longer) ↔
      ∃ reached, tokens.foldlM step start = .ok reached ∧
        reached.finish = .error (.unexpected reached.expected none) := by
  constructor
  · rintro ⟨longer, accepted, ⟨after, rfl⟩, proper⟩
    obtain ⟨reached, taken⟩ := viable_iff.mp ⟨_, accepted, List.prefix_append tokens after⟩
    refine ⟨reached, taken, ?_⟩
    rcases finish_eq reached with ⟨tree, rfl⟩ | early
    · -- After a whole definition every further token is refused.
      obtain ⟨_, whole⟩ := accepted_iff.mp accepted
      rw [List.foldlM_append, taken, ok_bind] at whole
      cases after with
      | nil => exact absurd (List.append_nil tokens).symm proper
      | cons token rest => cases whole
    · exact early
  · rintro ⟨reached, taken, early⟩
    obtain ⟨after, tree, finishes⟩ := canFinish reached
    refine ⟨tokens ++ after, ⟨tree, ?_⟩, List.prefix_append tokens after, ?_⟩
    · rw [parse_eq_ok_iff, definition_eq_run, run_append, taken, ok_bind, finishes]
    · intro same
      have nothing : after = [] := List.self_eq_append_right.mp same
      rw [nothing, run_nil, early] at finishes
      cases finishes

theorem Parser.Fault.eq_of_diagnostic_eq {source : String} {fault : Fault} {offset : Nat}
    {expected : Expected}
    (same : fault.diagnostic source = ⟨offset, .unexpected expected none⟩) :
    fault = .unexpected expected none := by
  rcases fault with ⟨_, _ | _⟩ | _ | _ | _ <;> cases same
  rfl

theorem parse_eq_error_iff {source : String} {tokens : List Token} {diagnostic : Diagnostic} :
    parse source tokens = .error diagnostic ↔
      ∃ fault : Fault, run start tokens = .error fault ∧
        fault.diagnostic source = diagnostic := by
  rw [parse_eq_run, mapError_eq_error_iff]

theorem exists_parse_eq_unexpected_none_iff {source : String} {tokens : List Token} :
    (∃ offset expected, parse source tokens = .error ⟨offset, .unexpected expected none⟩) ↔
      ∃ reached, tokens.foldlM step start = .ok reached ∧
        reached.finish = .error (.unexpected reached.expected none) := by
  constructor
  · rintro ⟨offset, expected, stopped⟩
    obtain ⟨fault, ran, same⟩ := parse_eq_error_iff.mp stopped
    cases Fault.eq_of_diagnostic_eq same
    rcases exists_of_run_eq_error ran with ⟨reached, taken, early⟩ | ⟨_, _, _, _, _, _, refused⟩
    · have unfinished := finish_eq_error early
      rw [unfinished] at early
      exact ⟨reached, taken, early⟩
    · exact absurd refused step_ne_unexpected_none
  · rintro ⟨reached, taken, early⟩
    refine ⟨Text.byteLength source.toList, reached.expected, parse_eq_error_iff.mpr ?_⟩
    refine ⟨.unexpected reached.expected none, ?_, rfl⟩
    rw [run, taken, ok_bind, early]

/-- The end of the input is at fault exactly when the tokens are the start of
accepted tokens and not yet all of them, and every diagnostic is reported at the
leftmost fault. -/
theorem parse_error_reportedLeftmost (source : String) (tokens : List Token)
    (places : ∀ token ∈ tokens, Snippet.IsPlace source token.offset) :
    ((∃ offset expected, parse source tokens = .error ⟨offset, .unexpected expected none⟩) ↔
      ∃ longer, Accepted source longer ∧ tokens <+: longer ∧ tokens ≠ longer) ∧
    ∀ diagnostic, parse source tokens = .error diagnostic →
      ReportedLeftmost source tokens diagnostic := by
  refine ⟨exists_parse_eq_unexpected_none_iff.trans exists_longer_iff.symm, ?_⟩
  intro diagnostic stopped
  obtain ⟨fault, ran, rfl⟩ := parse_eq_error_iff.mp stopped
  rcases exists_of_run_eq_error ran with
    ⟨reached, taken, early⟩ | ⟨before, token, after, reached, rfl, taken, refused⟩
  · obtain rfl := finish_eq_error early
    exact Snippet.samePlace_of_isPlace (Or.inr (Nat.le_refl _))
  · exact reportedLeftmost_of_step_eq_error places taken refused

theorem repeated_parameter_reportedLeftmost :
    let source := "def f(x,x"
    let tokens : List Token := [⟨.defKeyword, "def", 0⟩, ⟨.identifier, "f", 4⟩,
      ⟨.openParen, "(", 5⟩, ⟨.identifier, "x", 6⟩, ⟨.comma, ",", 7⟩, ⟨.identifier, "x", 8⟩]
    (∀ token ∈ tokens, Snippet.IsPlace source token.offset) ∧
      parse source tokens = .error ⟨8, .duplicateParameter "x"⟩ ∧
      ReportedLeftmost source tokens ⟨8, .duplicateParameter "x"⟩ := by
  intro source tokens
  have places : ∀ token ∈ tokens, Snippet.IsPlace source token.offset := by decide +kernel
  have stopped : parse source tokens = .error ⟨8, .duplicateParameter "x"⟩ := by cbv
  exact ⟨places, stopped, (parse_error_reportedLeftmost source tokens places).2 _ stopped⟩

end DefLang
