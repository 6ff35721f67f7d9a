import DefLang.Proofs.GrammarAcceptance

/-!
# Reading a definition token by token

The parser looks ahead, so a prefix of its input says little about what it will
do. Here the same language is read by a machine that takes one token at a time
and keeps what it has read so far. It remembers an identifier until it knows
whether that is a callee, which takes the place of the lookahead. The machine
agrees with the parser on every list of tokens, faults included.
-/
namespace DefLang.Parser

open Token (Kind)

/-- The part of a definition before its body. -/
structure Header where
  name : String
  params : List String

/-- How far a definition is read after some of its tokens. -/
inductive Progress where
  | start
  | defRead
  | nameRead (name : String)
  | paramsOpened (name : String)
  | paramDue (name : String) (params : List String)
  | paramRead (name : String) (params : List String)
  | operandDue (header : Header) (calls : List OpenCall)
  | identifierRead (header : Header) (calls : List OpenCall) (identifier : Token)
  | callOpened (header : Header) (calls : List OpenCall) (callee : String)
  | exprRead (header : Header) (calls : List OpenCall) (expr : Expr)
  | finished (tree : Definition)

namespace Progress

/-- What is missing after an expression. -/
def expectedAfter : List OpenCall → Expected
  | [] => .token .endKeyword
  | _ :: _ => .token .closeParen

/-- What a fault names as missing when nothing else can be told of it. -/
def expected : Progress → Expected
  | start => .token .defKeyword
  | defRead => .token .identifier
  | nameRead _ => .token .openParen
  | paramsOpened _ => .token .closeParen
  | paramDue _ _ => .token .identifier
  | paramRead _ _ => .token .closeParen
  | operandDue _ _ => .token .identifier
  | identifierRead _ calls _ => expectedAfter calls
  | callOpened _ _ _ => .token .identifier
  | exprRead _ calls _ => expectedAfter calls
  | finished _ => .endOfInput

/-- The fault at a token that cannot come next. -/
def refuse (progress : Progress) (token : Token) : Except Fault Progress :=
  .error (.unexpected progress.expected (some token))

/-- Takes the first token of an expression. -/
def takeOperand (header : Header) (calls : List OpenCall) (token : Token) :
    Except Fault Progress :=
  if token.kind = .integer then
    match Numeral.parse? token.text with
    | some value => .ok (exprRead header calls (.integer value))
    | none => .error (.integerOutOfRange token)
  else if token.kind = .identifier then .ok (identifierRead header calls token)
  else refuse (operandDue header calls) token

/-- Takes the token after an expression. -/
def takeAfter (header : Header) (calls : List OpenCall) (expr : Expr) (token : Token) :
    Except Fault Progress :=
  match calls with
  | [] =>
      if token.kind = .endKeyword then .ok (finished ⟨header.name, header.params, expr⟩)
      else refuse (exprRead header [] expr) token
  | innermost :: outer =>
      if token.kind = .comma then .ok (operandDue header (innermost.push expr :: outer))
      else if token.kind = .closeParen then
        .ok (exprRead header outer (innermost.close expr))
      else refuse (exprRead header (innermost :: outer) expr) token

/-- Takes one token. -/
def step (progress : Progress) (token : Token) : Except Fault Progress :=
  match progress with
  | start => if token.kind = .defKeyword then .ok defRead else refuse progress token
  | defRead =>
      if token.kind = .identifier then .ok (nameRead token.text) else refuse progress token
  | nameRead name =>
      if token.kind = .openParen then .ok (paramsOpened name) else refuse progress token
  | paramsOpened name =>
      if token.kind = .identifier then .ok (paramRead name [token.text])
      else if token.kind = .closeParen then .ok (operandDue ⟨name, []⟩ [])
      else refuse progress token
  | paramDue name params =>
      if token.kind = .identifier then
        if token.text ∈ params then .error (.duplicateParameter token)
        else .ok (paramRead name (params ++ [token.text]))
      else refuse progress token
  | paramRead name params =>
      if token.kind = .comma then .ok (paramDue name params)
      else if token.kind = .closeParen then .ok (operandDue ⟨name, params⟩ [])
      else refuse progress token
  | operandDue header calls => takeOperand header calls token
  | identifierRead header calls identifier =>
      if token.kind = .openParen then
        if calls.length = maxCallDepth then .error (.tooDeep identifier)
        else .ok (callOpened header calls identifier.text)
      else takeAfter header calls (.var identifier.text) token
  | callOpened header calls callee =>
      if token.kind = .closeParen then .ok (exprRead header calls (.call callee []))
      else takeOperand header (⟨callee, []⟩ :: calls) token
  | exprRead header calls expr => takeAfter header calls expr token
  | finished _ => refuse progress token

/-- Ends the input. -/
def finish : Progress → Except Fault Definition
  | finished tree => .ok tree
  | progress => .error (.unexpected progress.expected none)

/-- Takes all the tokens and ends the input. -/
def run (progress : Progress) (tokens : List Token) : Except Fault Definition :=
  tokens.foldlM step progress >>= finish

@[simp]
theorem run_nil (progress : Progress) : run progress [] = progress.finish := rfl

theorem run_cons (progress : Progress) (token : Token) (rest : List Token) :
    run progress (token :: rest) = progress.step token >>= fun next => run next rest := by
  rw [run, List.foldlM_cons, bind_assoc]
  rfl

theorem run_append (progress : Progress) (before after : List Token) :
    run progress (before ++ after) =
      before.foldlM step progress >>= fun next => run next after := by
  rw [run, List.foldlM_append, bind_assoc]
  rfl

/-- An identifier is a variable unless an opening parenthesis follows. -/
theorem run_identifierRead {header : Header} {calls : List OpenCall} {name : Token}
    {tokens : List Token}
    (noCall : ∀ next, tokens.head? = some next → next.kind ≠ .openParen) :
    run (identifierRead header calls name) tokens =
      run (exprRead header calls (.var name.text)) tokens := by
  cases tokens with
  | nil => rfl
  | cons token rest =>
      have notOpening := noCall token rfl
      rw [run_cons, run_cons]
      simp [step, notOpening]

/-- After an opening parenthesis there is an argument unless the call is closed. -/
theorem run_callOpened {header : Header} {calls : List OpenCall} {callee : String}
    {tokens : List Token}
    (argument : ∀ first, tokens.head? = some first → first.kind ≠ .closeParen) :
    run (callOpened header calls callee) tokens =
      run (operandDue header (⟨callee, []⟩ :: calls)) tokens := by
  cases tokens with
  | nil => rfl
  | cons token rest =>
      have notClosing := argument token rfl
      rw [run_cons, run_cons]
      simp [step, notClosing]

end Progress

/-- Reads the end of a definition after its body. -/
def conclude (header : Header) (body : Expr × List Token) : Except Fault Definition := do
  let (_, tokens) ← expect .endKeyword body.2
  match tokens with
  | [] => return ⟨header.name, header.params, body.1⟩
  | token :: _ => throw (.unexpected .endOfInput (some token))

open Progress

theorem conclude_eq_run (header : Header) (expr : Expr) (tokens : List Token) :
    conclude header (expr, tokens) = run (exprRead header [] expr) tokens := by
  cases tokens with
  | nil => rfl
  | cons token rest =>
      rw [run_cons]
      by_cases kind : token.kind = .endKeyword
      · rw [conclude, expect_of_kind rest kind]
        cases rest with
        | nil => simp [step, takeAfter, kind, finish, pure, Except.pure]
        | cons next rest =>
            simp [step, takeAfter, kind, run_cons, refuse, expected, throw, throwThe,
              MonadExceptOf.throw]
      · simp [conclude, expect, kind, step, takeAfter, refuse, expected, expectedAfter]

theorem kind_ne_of_head? {tokens : List Token} {kind : Kind}
    (starts : ¬ ∃ first rest, tokens = first :: rest ∧ first.kind = kind) :
    ∀ first, tokens.head? = some first → first.kind ≠ kind := by
  intro first isHead same
  obtain ⟨rest, rfl⟩ := List.head?_eq_some_iff.mp isHead
  exact starts ⟨first, rest, rfl, same⟩

mutual

theorem operand_eq_run (header : Header) (calls : List OpenCall) (tokens : List Token) :
    operand 0 calls tokens >>= conclude header = run (operandDue header calls) tokens := by
  cases tokens with
  | nil =>
      rw [operand.eq_def]
      rfl
  | cons token rest =>
      rw [run_cons]
      by_cases integer : token.kind = .integer
      · rw [operand_of_integer integer]
        cases parsed : Numeral.parse? token.text with
        | none => simp [step, takeOperand, integer, parsed]
        | some value =>
            simpa [step, takeOperand, integer, parsed] using
              resume_eq_run header calls (.integer value) rest
      by_cases identifier : token.kind = .identifier
      · rw [operand_identifier_eq_run header calls rest identifier]
        simp [step, takeOperand, identifier]
      · rw [operand_of_other integer identifier]
        simp [step, takeOperand, integer, identifier, refuse, expected]
termination_by 2 * tokens.length

/-- The parser decides what an identifier is when it sees the token after it,
and the machine when it takes that token. -/
theorem operand_identifier_eq_run (header : Header) (calls : List OpenCall)
    (tokens : List Token) {name : Token} (identifier : name.kind = .identifier) :
    operand 0 calls (name :: tokens) >>= conclude header =
      run (identifierRead header calls name) tokens := by
  by_cases call : ∃ opening rest, tokens = opening :: rest ∧ opening.kind = .openParen
  · obtain ⟨opening, rest, rfl, openingKind⟩ := call
    rw [run_cons]
    by_cases full : calls.length = maxCallDepth
    · rw [operand_of_tooDeep identifier openingKind (by omega)]
      simp [step, openingKind, full]
    have opened : (identifierRead header calls name).step opening =
        .ok (callOpened header calls name.text) := by
      simp [step, openingKind, full]
    rw [opened, ok_bind]
    by_cases empty : ∃ closing after, rest = closing :: after ∧ closing.kind = .closeParen
    · obtain ⟨closing, after, rfl, closingKind⟩ := empty
      rw [operand_of_emptyCall identifier openingKind closingKind (by omega), resume_eq_run,
        run_cons]
      simp [step, closingKind]
    · have argument := kind_ne_of_head? empty
      rw [operand_of_call identifier openingKind argument (by omega), run_callOpened argument]
      exact operand_eq_run header (⟨name.text, []⟩ :: calls) rest
  · have noCall := kind_ne_of_head? call
    rw [operand_of_var identifier noCall, run_identifierRead noCall]
    exact resume_eq_run header calls (.var name.text) tokens
termination_by 2 * tokens.length + 1

theorem resume_eq_run (header : Header) (calls : List OpenCall) (expr : Expr)
    (tokens : List Token) :
    resume 0 calls expr tokens >>= conclude header =
      run (exprRead header calls expr) tokens := by
  cases calls with
  | nil =>
      rw [resume_nil]
      exact conclude_eq_run header expr tokens
  | cons innermost outer =>
      cases tokens with
      | nil =>
          rw [resume.eq_def]
          rfl
      | cons token rest =>
          by_cases comma : token.kind = .comma
          · rw [resume_of_comma comma, run_cons, operand_eq_run]
            simp [step, takeAfter, comma]
          by_cases closing : token.kind = .closeParen
          · rw [resume_of_close closing, run_cons, resume_eq_run]
            simp [step, takeAfter, closing]
          · rw [resume.eq_def, run_cons]
            simp [step, takeAfter, comma, closing, refuse, expected, expectedAfter]
termination_by 2 * tokens.length

end

/-- Reads a definition from its body on. -/
def fromBody (name : String) (params : List String × List Token) : Except Fault Definition :=
  expression 0 params.2 >>= conclude ⟨name, params.1⟩

/-- Reads a definition from the end of its parameters on. -/
def fromClosing (name : String) (params : List String × List Token) :
    Except Fault Definition := do
  let (_, tokens) ← expect .closeParen params.2
  fromBody name (params.1, tokens)

theorem fromBody_eq_run (name : String) (params : List String) (tokens : List Token) :
    fromBody name (params, tokens) = run (operandDue ⟨name, params⟩ []) tokens :=
  operand_eq_run ⟨name, params⟩ [] tokens

theorem fromClosing_eq_run {name : String} {params : List String} {tokens : List Token}
    (ended : ∀ next, tokens.head? = some next → next.kind ≠ .comma) :
    fromClosing name (params, tokens) = run (paramRead name params) tokens := by
  cases tokens with
  | nil => rfl
  | cons token rest =>
      have noComma := ended token rfl
      rw [run_cons]
      by_cases closing : token.kind = .closeParen
      · rw [fromClosing, expect_of_kind rest closing]
        simpa [step, closing] using fromBody_eq_run name params rest
      · simp [fromClosing, expect, closing, step, noComma, refuse, expected]

theorem paramNames_eq_run (name : String) (seen : List String) (tokens : List Token) :
    paramNames seen tokens >>= fromClosing name = run (paramDue name seen) tokens := by
  fun_induction paramNames seen tokens with
  | case1 seen => rfl
  | case2 seen token rest kind =>
      rw [run_cons]
      simp [step, kind, refuse, expected]
  | case3 seen token rest kind member =>
      have identifier : token.kind = .identifier := not_not.mp kind
      rw [run_cons]
      simp [step, identifier, member]
  | case4 seen token kind unseen =>
      have identifier : token.kind = .identifier := not_not.mp kind
      have ended : ∀ following, ([] : List Token).head? = some following →
          following.kind ≠ .comma := by simp
      rw [run_cons]
      simpa [step, identifier, unseen] using fromClosing_eq_run ended
  | case5 seen token kind unseen next rest comma inductionHypothesis =>
      have identifier : token.kind = .identifier := not_not.mp kind
      rw [inductionHypothesis, run_cons]
      simp [step, identifier, unseen, run_cons, comma]
  | case6 seen token kind unseen next rest noComma =>
      have identifier : token.kind = .identifier := not_not.mp kind
      have ended : ∀ following, (next :: rest).head? = some following →
          following.kind ≠ .comma := by simp [noComma]
      rw [run_cons]
      simpa [step, identifier, unseen] using fromClosing_eq_run ended

theorem params_eq_run (name : String) (tokens : List Token) :
    params tokens >>= fromBody name = run (nameRead name) tokens := by
  cases tokens with
  | nil => rfl
  | cons opening rest =>
      by_cases openingKind : opening.kind = .openParen
      · have opened : run (nameRead name) (opening :: rest) = run (paramsOpened name) rest := by
          rw [run_cons]
          simp [step, openingKind]
        rw [opened]
        by_cases starts : rest.head?.map Token.kind = some .identifier
        · have joined : params (opening :: rest) >>= fromBody name =
              paramNames [] rest >>= fromClosing name := by
            rw [params_of_identifier openingKind starts, bind_assoc]
            congr 1
            funext ⟨names, tokens⟩
            exact bind_assoc _ _ _
          obtain ⟨first, isHead, identifier⟩ := Option.map_eq_some_iff.mp starts
          obtain ⟨after, rfl⟩ := List.head?_eq_some_iff.mp isHead
          rw [joined, paramNames_eq_run, run_cons, run_cons]
          simp [step, identifier]
        · have joined : params (opening :: rest) >>= fromBody name =
              fromClosing name ([], rest) := by
            rw [params_of_other openingKind starts, bind_assoc]
            rfl
          rw [joined]
          cases rest with
          | nil => rfl
          | cons token rest =>
              rw [run_cons]
              by_cases closing : token.kind = .closeParen
              · rw [fromClosing, expect_of_kind rest closing]
                simpa [step, closing] using fromBody_eq_run name [] rest
              · have notIdentifier : token.kind ≠ .identifier := by simpa using starts
                simp [fromClosing, expect, closing, step, notIdentifier, refuse, expected]
      · rw [run_cons]
        simp [params, expect, openingKind, step, refuse, expected]

/-- The machine agrees with the parser. -/
theorem definition_eq_run (tokens : List Token) : definition tokens = run .start tokens := by
  cases tokens with
  | nil => rfl
  | cons start rest =>
      rw [run_cons]
      by_cases startKind : start.kind = .defKeyword
      · have fromName : definition (start :: rest) = (do
            let (name, tokens) ← expect .identifier rest
            params tokens >>= fromBody name.text) := by
          rw [definition, expect_of_kind rest startKind]
          rfl
        rw [fromName]
        cases rest with
        | nil =>
            simp only [step, startKind]
            rfl
        | cons name rest =>
            by_cases nameKind : name.kind = .identifier
            · rw [expect_of_kind rest nameKind]
              simpa [step, startKind, run_cons, nameKind] using params_eq_run name.text rest
            · simp [expect, nameKind, step, startKind, run_cons, refuse, expected]
      · simp [definition, expect, startKind, step, refuse, expected]

namespace Progress

/-- Where the start of an expression is due, the definition so far and the calls
around that expression. -/
def operand? : Progress → Option (Header × List OpenCall)
  | operandDue header calls => some (header, calls)
  | callOpened header calls callee => some (header, ⟨callee, []⟩ :: calls)
  | _ => none

/-- Where an expression may have ended, the definition so far, the calls around that
expression, and the expression. -/
def operandRead? : Progress → Option (Header × List OpenCall × Expr)
  | identifierRead header calls identifier => some (header, calls, .var identifier.text)
  | exprRead header calls expr => some (header, calls, expr)
  | _ => none

/-- The ways to take a token, one for each step of the machine that is not refused. -/
inductive Takes : Progress → Token → Progress → Prop where
  | defKeyword {token : Token} (kind : token.kind = .defKeyword) : Takes start token defRead
  | name {token : Token} (kind : token.kind = .identifier) :
      Takes defRead token (nameRead token.text)
  | openParams {name : String} {token : Token} (kind : token.kind = .openParen) :
      Takes (nameRead name) token (paramsOpened name)
  | firstParam {name : String} {token : Token} (kind : token.kind = .identifier) :
      Takes (paramsOpened name) token (paramRead name [token.text])
  | noParams {name : String} {token : Token} (kind : token.kind = .closeParen) :
      Takes (paramsOpened name) token (operandDue ⟨name, []⟩ [])
  | param {name : String} {params : List String} {token : Token}
      (kind : token.kind = .identifier) (new : token.text ∉ params) :
      Takes (paramDue name params) token (paramRead name (params ++ [token.text]))
  | nextParam {name : String} {params : List String} {token : Token}
      (kind : token.kind = .comma) : Takes (paramRead name params) token (paramDue name params)
  | closeParams {name : String} {params : List String} {token : Token}
      (kind : token.kind = .closeParen) :
      Takes (paramRead name params) token (operandDue ⟨name, params⟩ [])
  | integer {progress : Progress} {header : Header} {calls : List OpenCall} {token : Token}
      {value : Int64} (due : progress.operand? = some (header, calls))
      (kind : token.kind = .integer) (parsed : Numeral.parse? token.text = some value) :
      Takes progress token (exprRead header calls (.integer value))
  | identifier {progress : Progress} {header : Header} {calls : List OpenCall} {token : Token}
      (due : progress.operand? = some (header, calls)) (kind : token.kind = .identifier) :
      Takes progress token (identifierRead header calls token)
  | openCall {header : Header} {calls : List OpenCall} {callee token : Token}
      (kind : token.kind = .openParen) (room : calls.length ≠ maxCallDepth) :
      Takes (identifierRead header calls callee) token (callOpened header calls callee.text)
  | closeEmptyCall {header : Header} {calls : List OpenCall} {callee : String} {token : Token}
      (kind : token.kind = .closeParen) :
      Takes (callOpened header calls callee) token (exprRead header calls (.call callee []))
  | nextArg {progress : Progress} {header : Header} {innermost : OpenCall}
      {outer : List OpenCall} {expr : Expr} {token : Token}
      (read : progress.operandRead? = some (header, innermost :: outer, expr))
      (kind : token.kind = .comma) :
      Takes progress token (operandDue header (innermost.push expr :: outer))
  | closeCall {progress : Progress} {header : Header} {innermost : OpenCall}
      {outer : List OpenCall} {expr : Expr} {token : Token}
      (read : progress.operandRead? = some (header, innermost :: outer, expr))
      (kind : token.kind = .closeParen) :
      Takes progress token (exprRead header outer (innermost.close expr))
  | endKeyword {progress : Progress} {header : Header} {expr : Expr} {token : Token}
      (read : progress.operandRead? = some (header, [], expr))
      (kind : token.kind = .endKeyword) :
      Takes progress token (finished ⟨header.name, header.params, expr⟩)

section Takes

variable {progress next : Progress} {header : Header} {calls : List OpenCall} {expr : Expr}
  {token : Token}

theorem takes_of_takeOperand (due : progress.operand? = some (header, calls))
    (taken : takeOperand header calls token = .ok next) : Takes progress token next := by
  unfold takeOperand at taken
  split at taken
  next kind =>
    split at taken
    next value parsed =>
      cases taken
      exact .integer due kind parsed
    next => cases taken
  next =>
    split at taken
    next kind =>
      cases taken
      exact .identifier due kind
    next => cases taken

theorem takes_of_takeAfter (read : progress.operandRead? = some (header, calls, expr))
    (taken : takeAfter header calls expr token = .ok next) : Takes progress token next := by
  cases calls with
  | nil =>
      simp only [takeAfter] at taken
      split at taken
      next kind =>
        cases taken
        exact .endKeyword read kind
      next => cases taken
  | cons innermost outer =>
      simp only [takeAfter] at taken
      split at taken
      next kind =>
        cases taken
        exact .nextArg read kind
      next =>
        split at taken
        next kind =>
          cases taken
          exact .closeCall read kind
        next => cases taken

theorem takes_of_step (stepped : progress.step token = .ok next) :
    Takes progress token next := by
  cases progress with
  | start =>
      simp only [step] at stepped
      split at stepped
      next kind =>
        cases stepped
        exact .defKeyword kind
      next => cases stepped
  | defRead =>
      simp only [step] at stepped
      split at stepped
      next kind =>
        cases stepped
        exact .name kind
      next => cases stepped
  | nameRead name =>
      simp only [step] at stepped
      split at stepped
      next kind =>
        cases stepped
        exact .openParams kind
      next => cases stepped
  | paramsOpened name =>
      simp only [step] at stepped
      split at stepped
      next kind =>
        cases stepped
        exact .firstParam kind
      next =>
        split at stepped
        next kind =>
          cases stepped
          exact .noParams kind
        next => cases stepped
  | paramDue name params =>
      simp only [step] at stepped
      split at stepped
      next kind =>
        split at stepped
        next => cases stepped
        next new =>
          cases stepped
          exact .param kind new
      next => cases stepped
  | paramRead name params =>
      simp only [step] at stepped
      split at stepped
      next kind =>
        cases stepped
        exact .nextParam kind
      next =>
        split at stepped
        next kind =>
          cases stepped
          exact .closeParams kind
        next => cases stepped
  | operandDue header calls => exact takes_of_takeOperand rfl stepped
  | identifierRead header calls identifier =>
      simp only [step] at stepped
      split at stepped
      next kind =>
        split at stepped
        next => cases stepped
        next room =>
          cases stepped
          exact .openCall kind room
      next => exact takes_of_takeAfter rfl stepped
  | callOpened header calls callee =>
      simp only [step] at stepped
      split at stepped
      next kind =>
        cases stepped
        exact .closeEmptyCall kind
      next => exact takes_of_takeOperand rfl stepped
  | exprRead header calls expr => exact takes_of_takeAfter rfl stepped
  | finished tree => cases stepped

theorem Takes.step_eq (taken : Takes progress token next) : progress.step token = .ok next := by
  cases taken with
  | defKeyword kind | name kind | openParams kind | firstParam kind | noParams kind
  | nextParam kind | closeParams kind | closeEmptyCall kind => simp [step, kind]
  | param kind new => simp [step, kind, new]
  | openCall kind room => simp [step, kind, room]
  | integer due kind parsed =>
      cases progress <;> cases due <;> simp [step, takeOperand, kind, parsed]
  | identifier due kind => cases progress <;> cases due <;> simp [step, takeOperand, kind]
  | nextArg read kind | closeCall read kind | endKeyword read kind =>
      cases progress <;> cases read <;> simp [step, takeAfter, kind]

end Takes

end Progress

end DefLang.Parser
