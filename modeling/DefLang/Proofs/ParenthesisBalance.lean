import DefLang.Proofs.LeftmostFault

/-!
# The depth of a call counts the open parentheses

The machine keeps the calls that are open in a list, and a call is refused when
that list is full. What it takes changes the list only at parentheses: with every
token the number of those that are open changes as the token says, in the header
as in the body. So the length of the list can be read off the tokens before a
callee, however many calls were opened and closed among them.
-/
namespace DefLang

/-- How many more opening parentheses than closing ones there are. -/
def Token.balance (tokens : List Token) : Int :=
  (tokens.map Token.kind).count .openParen - (tokens.map Token.kind).count .closeParen

namespace Token

@[simp]
theorem balance_nil : balance [] = 0 := rfl

theorem balance_append (before after : List Token) :
    balance (before ++ after) = balance before + balance after := by
  simp only [balance, List.map_append, List.count_append]
  omega

theorem balance_of_open {token : Token} (kind : token.kind = .openParen) :
    balance [token] = 1 := by
  simp [balance, kind]

theorem balance_of_close {token : Token} (kind : token.kind = .closeParen) :
    balance [token] = -1 := by
  simp [balance, kind]

theorem balance_of_other {token : Token} (notOpen : token.kind ≠ .openParen)
    (notClose : token.kind ≠ .closeParen) : balance [token] = 0 := by
  simp [balance, notOpen, notClose]

end Token

namespace Parser.Progress

open Token (balance balance_of_open balance_of_close balance_of_other)

/-- How many parentheses are open, that of the parameters included. -/
def openParens : Progress → Nat
  | start | defRead | nameRead _ | finished _ => 0
  | paramsOpened _ | paramDue _ _ | paramRead _ _ => 1
  | operandDue _ calls | identifierRead _ calls _ | exprRead _ calls _ => calls.length
  | callOpened _ calls _ => calls.length + 1

section OpenParens

variable {progress next : Progress} {header : Header} {calls : List OpenCall} {expr : Expr}
  {token : Token}

theorem openParens_of_operand? (due : progress.operand? = some (header, calls)) :
    progress.openParens = calls.length := by
  cases progress <;> cases due <;> rfl

theorem openParens_of_operandRead? (read : progress.operandRead? = some (header, calls, expr)) :
    progress.openParens = calls.length := by
  cases progress <;> cases read <;> rfl

/-- With every token the number of open parentheses changes as the token says. -/
theorem Takes.openParens_eq (taken : Takes progress token next) :
    (next.openParens : Int) = progress.openParens + balance [token] := by
  cases taken with
  | defKeyword kind | name kind | firstParam kind | param kind _ | nextParam kind =>
      rw [balance_of_other (by simp [kind]) (by simp [kind])]
      rfl
  | openParams kind =>
      rw [balance_of_open kind]
      rfl
  | noParams kind | closeParams kind =>
      rw [balance_of_close kind]
      rfl
  | integer due kind _ | identifier due kind =>
      rw [balance_of_other (by simp [kind]) (by simp [kind]), openParens_of_operand? due]
      simp [openParens]
  | openCall kind _ =>
      rw [balance_of_open kind]
      simp [openParens]
  | closeEmptyCall kind =>
      rw [balance_of_close kind]
      simp only [openParens]
      omega
  | nextArg read kind =>
      rw [balance_of_other (by simp [kind]) (by simp [kind]), openParens_of_operandRead? read]
      simp [openParens]
  | closeCall read kind =>
      rw [balance_of_close kind, openParens_of_operandRead? read]
      simp only [openParens, List.length_cons]
      omega
  | endKeyword read kind =>
      rw [balance_of_other (by simp [kind]) (by simp [kind]), openParens_of_operandRead? read]
      simp [openParens]

theorem openParens_of_foldlM {tokens : List Token} {reached : Progress}
    (taken : tokens.foldlM step progress = .ok reached) :
    (reached.openParens : Int) = progress.openParens + balance tokens := by
  induction tokens generalizing progress with
  | nil =>
      cases taken
      simp
  | cons token rest inductionHypothesis =>
      rw [List.foldlM_cons] at taken
      obtain ⟨next, stepped, continued⟩ := exists_of_bind_eq_ok taken
      have first := (takes_of_step stepped).openParens_eq
      have later := inductionHypothesis continued
      rw [← List.singleton_append, Token.balance_append]
      omega

/-- As many parentheses are open as were opened and not closed. -/
theorem openParens_eq_balance {tokens : List Token} {reached : Progress}
    (taken : tokens.foldlM step start = .ok reached) :
    (reached.openParens : Int) = balance tokens := by
  simpa [openParens] using openParens_of_foldlM taken

theorem Takes.kind_of_identifierRead {identifier : Token}
    (taken : Takes progress token (identifierRead header calls identifier)) :
    token.kind = .identifier := by
  cases taken with
  | identifier _ kind => exact kind

/-- Inside two parentheses or more, an identifier starts an expression. -/
theorem Takes.eq_identifierRead (taken : Takes progress token next)
    (kind : token.kind = .identifier) (inside : 1 < progress.openParens) :
    ∃ header calls, next = identifierRead header calls token ∧
      calls.length = progress.openParens := by
  cases taken with
  | identifier due _ => exact ⟨_, _, rfl, (openParens_of_operand? due).symm⟩
  | name _ | firstParam _ | param _ _ => exact absurd inside (by simp [openParens])
  | defKeyword other | openParams other | noParams other | nextParam other | closeParams other
  | integer _ other _ | openCall other _ | closeEmptyCall other | nextArg _ other
  | closeCall _ other | endKeyword _ other =>
      rw [kind] at other
      cases other

end OpenParens

theorem step_eq_tooDeep {progress : Progress} {token callee : Token}
    (refused : progress.step token = .error (.tooDeep callee)) :
    ∃ header calls, progress = identifierRead header calls callee ∧
      token.kind = .openParen ∧ calls.length = maxCallDepth := by
  rcases step_eq_error refused with other | other | other | ⟨header, calls, _, rfl, same⟩
  · cases other
  · cases other
  · cases other
  · cases same
    refine ⟨header, calls, rfl, ?_⟩
    simp only [step] at refused
    split at refused
    next kind =>
      split at refused
      next full => exact ⟨kind, full⟩
      next => cases refused
    next =>
      have unexpected := takeAfter_eq_error refused
      cases unexpected

/-- A callee inside as many parentheses as there may be calls is refused its own. -/
theorem step_of_full {before : List Token} {callee opening : Token} {reached : Progress}
    (taken : (before ++ [callee]).foldlM step start = .ok reached)
    (calleeKind : callee.kind = .identifier) (openingKind : opening.kind = .openParen)
    (full : balance before = maxCallDepth) : reached.step opening = .error (.tooDeep callee) := by
  obtain ⟨middle, takenBefore, stepped⟩ := foldlM_append_singleton_eq_ok_iff.mp taken
  have inside : middle.openParens = maxCallDepth := by
    have same := openParens_eq_balance takenBefore
    omega
  obtain ⟨header, calls, rfl, depth⟩ :=
    (takes_of_step stepped).eq_identifierRead calleeKind (by rw [inside]; decide)
  simp [step, openingKind, depth, inside]

/-- The machine finds too many calls open exactly where a callee stands inside as
many parentheses as there may be calls. -/
theorem run_eq_tooDeep_iff {tokens : List Token} {callee : Token} :
    run start tokens = .error (.tooDeep callee) ↔
      ∃ before opening after reached, tokens = before ++ callee :: opening :: after ∧
        (before ++ [callee]).foldlM step start = .ok reached ∧ callee.kind = .identifier ∧
        opening.kind = .openParen ∧ balance before = maxCallDepth := by
  constructor
  · intro stopped
    rcases exists_of_run_eq_error stopped with
      ⟨reached, _, early⟩ | ⟨upTo, opening, after, reached, rfl, taken, refused⟩
    · have unexpected := finish_eq_error early
      cases unexpected
    · obtain ⟨header, calls, rfl, openingKind, depth⟩ := step_eq_tooDeep refused
      obtain ⟨before, rfl⟩ := eq_append_of_foldlM_eq_identifierRead taken
      obtain ⟨middle, _, stepped⟩ := foldlM_append_singleton_eq_ok_iff.mp taken
      have calleeKind := (takes_of_step stepped).kind_of_identifierRead
      have balanced := openParens_eq_balance taken
      rw [Token.balance_append, balance_of_other (by simp [calleeKind]) (by simp [calleeKind]),
        openParens, depth] at balanced
      exact ⟨before, opening, after, _, by simp, taken, calleeKind, openingKind, by omega⟩
  · rintro ⟨before, opening, after, reached, rfl, taken, calleeKind, openingKind, full⟩
    have parts : before ++ callee :: opening :: after =
        (before ++ [callee]) ++ opening :: after := by simp
    rw [parts, run_append, taken, ok_bind, run_cons,
      step_of_full taken calleeKind openingKind full, error_bind]

end Parser.Progress

open DefLang.Parser DefLang.Parser.Progress

/-- The token at the index is a callee inside 256 parentheses: some accepted tokens
start with those up to it, it is an identifier before an opening parenthesis, and
among the tokens before it 256 more parentheses are opened than closed. -/
structure IsCallPastLimit (source : String) (tokens : List Token) (index : Nat) : Prop where
  viable : Viable source (tokens.take (index + 1))
  callee : tokens[index]?.map Token.kind = some .identifier
  opening : tokens[index + 1]?.map Token.kind = some .openParen
  balance_eq : Token.balance (tokens.take index) = 256

theorem isCallPastLimit_append_iff {source : String} {before after : List Token}
    {callee opening : Token} :
    IsCallPastLimit source (before ++ callee :: opening :: after) before.length ↔
      (∃ reached, (before ++ [callee]).foldlM step start = .ok reached) ∧
        callee.kind = .identifier ∧ opening.kind = .openParen ∧
        Token.balance before = maxCallDepth := by
  have upTo : (before ++ callee :: opening :: after).take (before.length + 1) =
      before ++ [callee] := by
    simp [List.take_append]
  constructor
  · rintro ⟨viable, calleeKind, openingKind, full⟩
    rw [upTo] at viable
    rw [List.take_left] at full
    exact ⟨viable_iff.mp viable, by simpa using calleeKind, by simpa using openingKind, full⟩
  · rintro ⟨taken, calleeKind, openingKind, full⟩
    refine ⟨?_, by simpa using calleeKind, by simpa using openingKind, ?_⟩
    · rw [upTo]
      exact viable_iff.mpr taken
    · rwa [List.take_left]

theorem IsCallPastLimit.exists_append {source : String} {tokens : List Token} {index : Nat}
    (past : IsCallPastLimit source tokens index) :
    ∃ before callee opening after, tokens = before ++ callee :: opening :: after ∧
      before.length = index := by
  obtain ⟨callee, found, -⟩ := Option.map_eq_some_iff.mp past.callee
  obtain ⟨opening, next, -⟩ := Option.map_eq_some_iff.mp past.opening
  obtain ⟨within, rfl⟩ := List.getElem?_eq_some_iff.mp found
  obtain ⟨withinNext, rfl⟩ := List.getElem?_eq_some_iff.mp next
  refine ⟨tokens.take index, tokens[index], tokens[index + 1], tokens.drop (index + 2), ?_, ?_⟩
  · rw [← List.drop_eq_getElem_cons withinNext, ← List.drop_eq_getElem_cons within,
      List.take_append_drop]
  · rw [List.length_take]
    omega

theorem parse_eq_tooDeep_iff {source : String} {tokens : List Token} {offset limit : Nat} :
    parse source tokens = .error ⟨offset, .tooDeep limit⟩ ↔
      ∃ callee, run start tokens = .error (.tooDeep callee) ∧ callee.offset = offset ∧
        maxCallDepth = limit := by
  rw [parse_eq_error_iff]
  constructor
  · rintro ⟨⟨_, _ | _⟩ | _ | _ | callee, ran, same⟩ <;> cases same
    exact ⟨callee, ran, rfl, rfl⟩
  · rintro ⟨callee, ran, rfl, rfl⟩
    exact ⟨.tooDeep callee, ran, rfl⟩

theorem run_eq_tooDeep_iff_isCallPastLimit {source : String} {tokens : List Token}
    {callee : Token} :
    run start tokens = .error (.tooDeep callee) ↔
      ∃ index, IsCallPastLimit source tokens index ∧ tokens[index]? = some callee := by
  rw [run_eq_tooDeep_iff]
  constructor
  · rintro ⟨before, opening, after, reached, rfl, taken, inside⟩
    exact ⟨before.length, isCallPastLimit_append_iff.mpr ⟨⟨reached, taken⟩, inside⟩, by simp⟩
  · rintro ⟨index, past, found⟩
    obtain ⟨before, first, opening, after, rfl, rfl⟩ := past.exists_append
    obtain ⟨⟨reached, taken⟩, inside⟩ := isCallPastLimit_append_iff.mp past
    obtain rfl : first = callee := by simpa using found
    exact ⟨before, opening, after, reached, rfl, taken, inside⟩

/-- The first wrong token is the parenthesis after the callee. -/
theorem IsCallPastLimit.isFirstWrong {source : String} {tokens : List Token} {index : Nat}
    (past : IsCallPastLimit source tokens index) : IsFirstWrong source tokens (index + 1) := by
  obtain ⟨before, callee, opening, after, rfl, rfl⟩ := past.exists_append
  obtain ⟨⟨reached, taken⟩, calleeKind, openingKind, full⟩ := isCallPastLimit_append_iff.mp past
  have wrong : IsFirstWrong source ((before ++ [callee]) ++ opening :: after)
      (before ++ [callee]).length :=
    isFirstWrong_of_step_eq_error taken (step_of_full taken calleeKind openingKind full)
  simpa using wrong

/-- There are too many calls open exactly when a callee stands inside 256
parentheses. There is only one such callee, and the diagnostic names the limit and
shows its place. However many calls stand beside each other, none is refused while
each of them is opened inside fewer than 256 parentheses. -/
theorem parse_tooDeep_iff_exists_callPastLimit (source : String) (tokens : List Token)
    (places : ∀ token ∈ tokens, Snippet.IsPlace source token.offset) :
    ((∃ offset limit, parse source tokens = .error ⟨offset, .tooDeep limit⟩) ↔
      ∃ index, IsCallPastLimit source tokens index) ∧
    (∀ first second, IsCallPastLimit source tokens first →
      IsCallPastLimit source tokens second → first = second) ∧
    (∀ index token, IsCallPastLimit source tokens index → tokens[index]? = some token →
      parse source tokens = .error ⟨token.offset, .tooDeep 256⟩ ∧
        ∃ snippet, Snippet.at? source token.offset = some snippet) ∧
    ((∀ index, tokens[index + 1]?.map Token.kind = some .openParen →
        Token.balance (tokens.take index) < 256) →
      ∀ offset limit, parse source tokens ≠ .error ⟨offset, .tooDeep limit⟩) := by
  have reported (index : Nat) (token : Token) (past : IsCallPastLimit source tokens index)
      (found : tokens[index]? = some token) :
      parse source tokens = .error ⟨token.offset, .tooDeep 256⟩ :=
    parse_eq_tooDeep_iff.mpr
      ⟨token, run_eq_tooDeep_iff_isCallPastLimit.mpr ⟨index, past, found⟩, rfl, rfl⟩
  have pastOf {offset limit : Nat}
      (stopped : parse source tokens = .error ⟨offset, .tooDeep limit⟩) :
      ∃ index, IsCallPastLimit source tokens index := by
    obtain ⟨callee, ran, -⟩ := parse_eq_tooDeep_iff.mp stopped
    obtain ⟨index, past, -⟩ := run_eq_tooDeep_iff_isCallPastLimit.mp ran
    exact ⟨index, past⟩
  refine ⟨⟨?_, ?_⟩, ?_, ?_, ?_⟩
  · rintro ⟨offset, limit, stopped⟩
    exact pastOf stopped
  · rintro ⟨index, past⟩
    obtain ⟨token, found, -⟩ := Option.map_eq_some_iff.mp past.callee
    exact ⟨_, _, reported index token past found⟩
  · intro first second past other
    exact Nat.succ_injective (past.isFirstWrong.unique other.isFirstWrong)
  · intro index token past found
    refine ⟨reported index token past found, ?_⟩
    exact Snippet.exists_at?_of_isPlace (places token (List.mem_of_getElem? found))
  · intro shallow offset limit stopped
    obtain ⟨index, past⟩ := pastOf stopped
    have below := shallow index past.opening
    rw [past.balance_eq] at below
    exact absurd below (by decide)

theorem callPastLimit_beside_closed_calls :
    let source := "g(h("
    let callee : Token := ⟨.identifier, "g", 0⟩
    let opening : Token := ⟨.openParen, "(", 1⟩
    let closing : Token := ⟨.closeParen, ")", 1⟩
    let tokens : List Token := [⟨.defKeyword, "def", 0⟩, ⟨.identifier, "f", 0⟩, opening, closing] ++
      (List.replicate 255 [callee, opening]).flatten ++
      (List.replicate 3 [callee, opening, closing, ⟨.comma, ",", 1⟩]).flatten ++
      [callee, opening, ⟨.identifier, "h", 2⟩, ⟨.openParen, "(", 3⟩]
    (∀ token ∈ tokens, Snippet.IsPlace source token.offset) ∧
      parse source tokens = .error ⟨2, .tooDeep 256⟩ ∧
      ∃ index, IsCallPastLimit source tokens index := by
  intro source callee opening closing tokens
  have places : ∀ token ∈ tokens, Snippet.IsPlace source token.offset := by decide +kernel
  have stopped : parse source tokens = .error ⟨2, .tooDeep 256⟩ := by
    set_option maxRecDepth 20000 in cbv
  exact ⟨places, stopped,
    (parse_tooDeep_iff_exists_callPastLimit source tokens places).1.mp ⟨_, _, stopped⟩⟩

end DefLang
