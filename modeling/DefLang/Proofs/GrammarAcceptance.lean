import DefLang.Definition.Grammar
import DefLang.Definition.Parser
import DefLang.Proofs.FallibleSteps
import Mathlib.Data.List.Nodup

/-!
# The parser accepts exactly its grammar

The parser reads an expression from left to right and keeps the calls that are
still open in a list. Completeness follows a derivation of the grammar: the
tokens of an expression take the parser from `operand` to `resume`, whatever
calls are open and whatever follows. Soundness follows the parser instead, with
an invariant on the tokens before the current one: they spell the open calls,
each with its arguments so far.
-/
namespace DefLang

namespace Expr

/-- The expression may stand inside the given number of calls. Nothing is asked
beyond the limit, because only the call that reaches it is refused. -/
def FitsAt (level : Nat) (expr : Expr) : Prop :=
  level ≤ maxCallDepth → level + expr.callDepth ≤ maxCallDepth

/-- All the expressions may stand inside the given number of calls. -/
def AllFitAt (level : Nat) (args : List Expr) : Prop :=
  level ≤ maxCallDepth → level + callDepths args ≤ maxCallDepth

section Fitting

variable {level : Nat} {name callee : String} {value : Int64} {arg : Expr} {args : List Expr}

theorem fitsAt_integer : FitsAt level (.integer value) := by
  intro within
  simpa only [callDepth, Nat.add_zero] using within

theorem fitsAt_var : FitsAt level (.var name) := by
  intro within
  simpa only [callDepth, Nat.add_zero] using within

theorem allFitAt_nil : AllFitAt level [] := by
  intro within
  simpa only [callDepths, Nat.add_zero] using within

theorem allFitAt_cons :
    AllFitAt level (arg :: args) ↔ FitsAt level arg ∧ AllFitAt level args := by
  simp only [AllFitAt, FitsAt, callDepths]
  omega

theorem fitsAt_call :
    FitsAt level (.call callee args) ↔
      level ≠ maxCallDepth ∧ AllFitAt (level + 1) args := by
  simp only [AllFitAt, FitsAt, callDepth]
  omega

theorem allFitAt_append_singleton :
    AllFitAt level (args ++ [arg]) ↔ AllFitAt level args ∧ FitsAt level arg := by
  induction args with
  | nil => simp only [List.nil_append, allFitAt_cons, allFitAt_nil, and_true, true_and]
  | cons first args inductionHypothesis =>
      simp only [List.cons_append, allFitAt_cons, inductionHypothesis, and_assoc]

end Fitting

theorem Spells.exists_head {expr : Expr} {tokens : List Token} (spelled : Spells expr tokens) :
    ∃ first later, tokens = first :: later ∧
      (first.kind = .integer ∨ first.kind = .identifier) := by
  cases spelled with
  | integer kind parsed => exact ⟨_, _, rfl, Or.inl kind⟩
  | var kind => exact ⟨_, _, rfl, Or.inr kind⟩
  | call calleeKind openingKind spelled closingKind =>
      exact ⟨_, _, by rw [List.cons_append], Or.inr calleeKind⟩

theorem SpellsArgs.exists_head {arg : Expr} {args : List Expr} {tokens : List Token}
    (spelled : SpellsArgs (arg :: args) tokens) :
    ∃ first later, tokens = first :: later ∧
      (first.kind = .integer ∨ first.kind = .identifier) := by
  cases spelled with
  | single spelled => exact spelled.exists_head
  | cons spelled commaKind continued =>
      obtain ⟨first, later, rfl, kind⟩ := spelled.exists_head
      exact ⟨first, _, by rw [List.cons_append], kind⟩

/-- The tokens spell the expressions, with a comma after each of them. -/
inductive SpellsEach : List Expr → List Token → Prop where
  | nil : SpellsEach [] []
  | cons {arg : Expr} {args : List Expr} {comma : Token} {tokens rest : List Token}
      (spelled : Spells arg tokens) (commaKind : comma.kind = .comma)
      (continued : SpellsEach args rest) :
      SpellsEach (arg :: args) (tokens ++ comma :: rest)

section SpellsEach

variable {arg : Expr} {args : List Expr} {comma : Token} {before tokens : List Token}

theorem SpellsEach.append_singleton (earlier : SpellsEach args before)
    (spelled : Spells arg tokens) (commaKind : comma.kind = .comma) :
    SpellsEach (args ++ [arg]) (before ++ (tokens ++ [comma])) := by
  induction earlier with
  | nil => exact .cons spelled commaKind .nil
  | cons firstSpelled firstCommaKind _ inductionHypothesis =>
      rw [List.append_assoc, List.cons_append, List.cons_append]
      exact .cons firstSpelled firstCommaKind inductionHypothesis

theorem SpellsEach.complete (earlier : SpellsEach args before) (spelled : Spells arg tokens) :
    SpellsArgs (args ++ [arg]) (before ++ tokens) := by
  induction earlier with
  | nil => exact .single spelled
  | @cons _ args _ _ _ firstSpelled firstCommaKind _ inductionHypothesis =>
      rw [List.append_assoc, List.cons_append, List.cons_append]
      cases args with
      | nil => exact .cons firstSpelled firstCommaKind inductionHypothesis
      | cons next args => exact .cons firstSpelled firstCommaKind inductionHypothesis

end SpellsEach

end Expr

namespace Parser

section Resume

variable {depth : Nat} {openCall : OpenCall} {outer : List OpenCall} {expr : Expr}
  {token : Token} {rest : List Token}

@[simp]
theorem resume_nil : resume depth [] expr rest = .ok (expr, rest) := by
  cases rest <;> rw [resume.eq_def]

theorem resume_of_comma (kind : token.kind = .comma) :
    resume depth (openCall :: outer) expr (token :: rest) =
      operand depth (openCall.push expr :: outer) rest := by
  rw [resume.eq_def]
  simp only [kind, if_true]

theorem resume_of_close (kind : token.kind = .closeParen) :
    resume depth (openCall :: outer) expr (token :: rest) =
      resume depth outer (openCall.close expr) rest := by
  rw [resume.eq_def]
  simp [kind]

end Resume

mutual

/-- The tokens of an expression take the parser to the place after it, unless
an opening parenthesis there would turn a variable into a call. -/
theorem operand_of_spells (depth : Nat) (calls : List OpenCall) (rest : List Token)
    {expr : Expr} {tokens : List Token} (spelled : expr.Spells tokens)
    (fits : expr.FitsAt (depth + calls.length))
    (ended : ∀ next, rest.head? = some next → next.kind ≠ .openParen) :
    operand depth calls (tokens ++ rest) = resume depth calls expr rest := by
  cases spelled with
  | integer kind parsed =>
      rw [List.singleton_append, operand_of_integer kind, parsed]
  | var kind =>
      rw [List.singleton_append, operand_of_var kind ended]
  | @call callee opening closing args inner calleeKind openingKind argsSpelled closingKind =>
      obtain ⟨room, argsFit⟩ := Expr.fitsAt_call.mp fits
      cases args with
      | nil =>
          cases argsSpelled
          exact operand_of_emptyCall calleeKind openingKind closingKind room
      | cons arg args =>
          obtain ⟨first, later, starts, firstKind⟩ := argsSpelled.exists_head
          have argument : ∀ next, (inner ++ closing :: rest).head? = some next →
              next.kind ≠ .closeParen := by
            intro next isHead
            rw [starts, List.cons_append, List.head?_cons, Option.some.injEq] at isHead
            subst isHead
            rcases firstKind with kind | kind <;> simp [kind]
          have opened := operand_of_call calleeKind openingKind argument room
          rw [List.append_assoc, List.cons_append, List.cons_append, List.singleton_append,
            opened]
          exact operand_of_spellsArgs depth calls rest callee.text [] argsSpelled argsFit
            closingKind
termination_by 2 * tokens.length

/-- The remaining arguments of a call and its closing parenthesis take the
parser to the place after the call. -/
theorem operand_of_spellsArgs (depth : Nat) (calls : List OpenCall) (rest : List Token)
    (callee : String) (earlier : List Expr) {arg : Expr} {args : List Expr}
    {tokens : List Token} {closing : Token}
    (spelled : Expr.SpellsArgs (arg :: args) tokens)
    (fit : Expr.AllFitAt (depth + calls.length + 1) (arg :: args))
    (closingKind : closing.kind = .closeParen) :
    operand depth (⟨callee, earlier⟩ :: calls) (tokens ++ closing :: rest) =
      resume depth calls (.call callee (earlier ++ arg :: args)) rest := by
  obtain ⟨argFits, argsFit⟩ := Expr.allFitAt_cons.mp fit
  cases spelled with
  | single argSpelled =>
      have read := operand_of_spells depth (⟨callee, earlier⟩ :: calls) (closing :: rest)
        argSpelled argFits (by simp [closingKind])
      rw [read, resume_of_close closingKind]
      rfl
  | @cons _ next later comma tokens more argSpelled commaKind continued =>
      have read := operand_of_spells depth (⟨callee, earlier⟩ :: calls)
        (comma :: (more ++ closing :: rest)) argSpelled argFits (by simp [commaKind])
      have continues := operand_of_spellsArgs depth calls rest callee (earlier ++ [arg])
        continued argsFit closingKind
      rw [List.append_assoc, List.cons_append, read, resume_of_comma commaKind]
      simpa only [OpenCall.push, List.append_assoc, List.singleton_append] using continues
termination_by 2 * tokens.length + 1

end

/-- The tokens spell the open calls from the outermost one inwards. Each has its
callee, its opening parenthesis and the arguments so far, and there was room
for it and for them. -/
inductive Opened (depth : Nat) : List OpenCall → List Token → Prop where
  | nil : Opened depth [] []
  | cons {outer : List OpenCall} {before : List Token} {callee opening : Token}
      {args : List Expr} {inner : List Token} (enclosing : Opened depth outer before)
      (calleeKind : callee.kind = .identifier) (openingKind : opening.kind = .openParen)
      (argsSpelled : Expr.SpellsEach args inner)
      (room : depth + outer.length ≠ maxCallDepth)
      (argsFit : Expr.AllFitAt (depth + outer.length + 1) args) :
      Opened depth (⟨callee.text, args⟩ :: outer) (before ++ callee :: opening :: inner)

section Opened

variable {depth : Nat} {openCall : OpenCall} {outer calls : List OpenCall}
  {before inside : List Token} {arg : Expr}

theorem Opened.push {comma : Token} (opened : Opened depth (openCall :: outer) before)
    (spelled : arg.Spells inside) (fits : arg.FitsAt (depth + outer.length + 1))
    (commaKind : comma.kind = .comma) :
    Opened depth (openCall.push arg :: outer) (before ++ (inside ++ [comma])) := by
  cases opened with
  | cons enclosing calleeKind openingKind argsSpelled room argsFit =>
      rw [List.append_assoc, List.cons_append, List.cons_append]
      exact .cons enclosing calleeKind openingKind
        (argsSpelled.append_singleton spelled commaKind) room
        (Expr.allFitAt_append_singleton.mpr ⟨argsFit, fits⟩)

theorem Opened.close {closing : Token} (opened : Opened depth (openCall :: outer) before)
    (spelled : arg.Spells inside) (fits : arg.FitsAt (depth + outer.length + 1))
    (closingKind : closing.kind = .closeParen) :
    ∃ enclosing completed, before ++ (inside ++ [closing]) = enclosing ++ completed ∧
      Opened depth outer enclosing ∧ (openCall.close arg).Spells completed ∧
      (openCall.close arg).FitsAt (depth + outer.length) := by
  cases opened with
  | @cons _ enclosing callee opening args inner around calleeKind openingKind argsSpelled
      room argsFit =>
      have allSpelled := argsSpelled.complete spelled
      have allFit := Expr.allFitAt_append_singleton.mpr ⟨argsFit, fits⟩
      refine ⟨enclosing, callee :: opening :: (inner ++ inside) ++ [closing], by simp, around,
        .call calleeKind openingKind allSpelled closingKind, ?_⟩
      exact Expr.fitsAt_call.mpr ⟨room, allFit⟩

end Opened

/-- The four ways in which reading at the start of an expression goes on
without a fault. -/
theorem operand_eq_ok {depth : Nat} {calls : List OpenCall} {tokens : List Token}
    {result : Expr × List Token} (read : operand depth calls tokens = .ok result) :
    (∃ literal later value, tokens = literal :: later ∧ literal.kind = .integer ∧
      Numeral.parse? literal.text = some value ∧
      resume depth calls (.integer value) later = .ok result) ∨
    (∃ name later, tokens = name :: later ∧ name.kind = .identifier ∧
      resume depth calls (.var name.text) later = .ok result) ∨
    (∃ callee opening closing later, tokens = callee :: opening :: closing :: later ∧
      callee.kind = .identifier ∧ opening.kind = .openParen ∧ closing.kind = .closeParen ∧
      depth + calls.length ≠ maxCallDepth ∧
      resume depth calls (.call callee.text []) later = .ok result) ∨
    (∃ callee opening later, tokens = callee :: opening :: later ∧
      callee.kind = .identifier ∧ opening.kind = .openParen ∧
      depth + calls.length ≠ maxCallDepth ∧
      operand depth (⟨callee.text, []⟩ :: calls) later = .ok result) := by
  rw [operand.eq_def] at read
  fun_cases operand depth calls tokens with
  | case1 => simp at read
  | case2 token later kind value parsed =>
      simp only [kind, parsed] at read
      exact Or.inl ⟨token, later, value, rfl, kind, parsed, read⟩
  | case3 token later kind notParsed => simp [kind, notParsed] at read
  | case4 token kind =>
      simp only [kind] at read
      exact Or.inr (Or.inl ⟨token, [], rfl, kind, read⟩)
  | case5 token kind next later noCall =>
      simp only [kind, if_pos noCall] at read
      exact Or.inr (Or.inl ⟨token, next :: later, rfl, kind, read⟩)
  | case6 token kind next later call full => simp [kind, call, full] at read
  | case7 token kind next call room =>
      simp only [kind, if_neg call, if_neg room] at read
      exact Or.inr (Or.inr (Or.inr ⟨token, next, [], rfl, kind, not_not.mp call, room, read⟩))
  | case8 token kind next call room first later empty =>
      simp only [kind, if_neg call, if_neg room, if_pos empty] at read
      exact Or.inr (Or.inr (Or.inl
        ⟨token, next, first, later, rfl, kind, not_not.mp call, empty, room, read⟩))
  | case9 token kind next call room first later notEmpty =>
      simp only [kind, if_neg call, if_neg room, if_neg notEmpty] at read
      exact Or.inr (Or.inr (Or.inr
        ⟨token, next, first :: later, rfl, kind, not_not.mp call, room, read⟩))
  | case10 token later notInteger notIdentifier =>
      simp at read

/-- The three ways in which reading after a finished expression goes on without
a fault. -/
theorem resume_eq_ok {depth : Nat} {calls : List OpenCall} {expr : Expr} {tokens : List Token}
    {result : Expr × List Token} (read : resume depth calls expr tokens = .ok result) :
    (calls = [] ∧ result = (expr, tokens)) ∨
    (∃ innermost outer comma later, calls = innermost :: outer ∧ tokens = comma :: later ∧
      comma.kind = .comma ∧ operand depth (innermost.push expr :: outer) later = .ok result) ∨
    (∃ innermost outer closing later, calls = innermost :: outer ∧
      tokens = closing :: later ∧ closing.kind = .closeParen ∧
      resume depth outer (innermost.close expr) later = .ok result) := by
  cases calls with
  | nil =>
      rw [resume_nil, Except.ok.injEq] at read
      exact Or.inl ⟨rfl, read.symm⟩
  | cons innermost outer =>
      rw [resume.eq_def] at read
      cases tokens with
      | nil => simp at read
      | cons token later =>
          by_cases comma : token.kind = .comma
          · simp only [if_pos comma] at read
            exact Or.inr (Or.inl ⟨innermost, outer, token, later, rfl, rfl, comma, read⟩)
          · by_cases closing : token.kind = .closeParen
            · simp only [if_neg comma, if_pos closing] at read
              exact Or.inr (Or.inr ⟨innermost, outer, token, later, rfl, rfl, closing, read⟩)
            · simp [comma, closing] at read

mutual

/-- What is read at the start of an expression completes the open calls. -/
theorem operand_sound {depth : Nat} {calls : List OpenCall} {before tokens : List Token}
    {expr : Expr} {rest : List Token} (opened : Opened depth calls before)
    (read : operand depth calls tokens = .ok (expr, rest)) :
    ∃ consumed, tokens = consumed ++ rest ∧ expr.Spells (before ++ consumed) ∧
      expr.FitsAt depth := by
  obtain ⟨literal, later, value, rfl, kind, parsed, continued⟩ |
    ⟨name, later, rfl, kind, continued⟩ |
    ⟨callee, opening, closing, later, rfl, calleeKind, openingKind, closingKind, room,
      continued⟩ |
    ⟨callee, opening, later, rfl, calleeKind, openingKind, room, continued⟩ :=
    operand_eq_ok read
  · obtain ⟨consumed, rfl, spelled, fits⟩ :=
      resume_sound opened (.integer kind parsed) Expr.fitsAt_integer continued
    exact ⟨literal :: consumed, rfl, spelled, fits⟩
  · obtain ⟨consumed, rfl, spelled, fits⟩ :=
      resume_sound opened (.var kind) Expr.fitsAt_var continued
    exact ⟨name :: consumed, rfl, spelled, fits⟩
  · obtain ⟨consumed, rfl, spelled, fits⟩ :=
      resume_sound opened (.call calleeKind openingKind .none closingKind)
        (Expr.fitsAt_call.mpr ⟨room, Expr.allFitAt_nil⟩) continued
    exact ⟨callee :: opening :: closing :: consumed, rfl, spelled, fits⟩
  · obtain ⟨consumed, rfl, spelled, fits⟩ :=
      operand_sound (opened.cons calleeKind openingKind .nil room Expr.allFitAt_nil) continued
    refine ⟨callee :: opening :: consumed, rfl, ?_, fits⟩
    rwa [List.append_assoc] at spelled
termination_by tokens.length

theorem resume_sound {depth : Nat} {calls : List OpenCall} {before inside tokens : List Token}
    {inner expr : Expr} {rest : List Token} (opened : Opened depth calls before)
    (spelled : inner.Spells inside) (fits : inner.FitsAt (depth + calls.length))
    (read : resume depth calls inner tokens = .ok (expr, rest)) :
    ∃ consumed, tokens = consumed ++ rest ∧ expr.Spells (before ++ (inside ++ consumed)) ∧
      expr.FitsAt depth := by
  obtain ⟨rfl, finished⟩ |
    ⟨innermost, outer, comma, later, rfl, rfl, kind, continued⟩ |
    ⟨innermost, outer, closing, later, rfl, rfl, kind, continued⟩ := resume_eq_ok read
  · cases opened
    obtain ⟨rfl, rfl⟩ := Prod.mk.injEq .. ▸ finished
    exact ⟨[], rfl, by simpa using spelled, fits⟩
  · obtain ⟨consumed, rfl, wholeSpelled, wholeFits⟩ :=
      operand_sound (opened.push spelled fits kind) continued
    exact ⟨comma :: consumed, rfl, by simpa using wholeSpelled, wholeFits⟩
  · obtain ⟨enclosing, completed, joined, around, callSpelled, callFits⟩ :=
      opened.close spelled fits kind
    obtain ⟨consumed, rfl, wholeSpelled, wholeFits⟩ :=
      resume_sound around callSpelled callFits continued
    refine ⟨closing :: consumed, rfl, ?_, wholeFits⟩
    rw [← List.append_assoc, ← joined] at wholeSpelled
    simpa using wholeSpelled
termination_by tokens.length

end

theorem expect_of_kind {kind : Token.Kind} {token : Token} (rest : List Token)
    (isKind : token.kind = kind) : expect kind (token :: rest) = .ok (token, rest) := by
  rw [expect, if_pos isKind]

theorem expect_eq_ok {kind : Token.Kind} {token : Token} {tokens rest : List Token}
    (read : expect kind tokens = .ok (token, rest)) :
    tokens = token :: rest ∧ token.kind = kind := by
  cases tokens with
  | nil => simp [expect] at read
  | cons first later =>
      by_cases isKind : first.kind = kind
      · rw [expect_of_kind later isKind, Except.ok.injEq, Prod.mk.injEq] at read
        obtain ⟨rfl, rfl⟩ := read
        exact ⟨rfl, isKind⟩
      · simp [expect, isKind] at read

/-- Parameters that differ from each other and from those seen before are all
read, up to a token that is no comma. -/
theorem paramNames_of_spellsParams {seen : List String} {param : String}
    {params : List String} {tokens rest : List Token}
    (spelled : Definition.SpellsParams (param :: params) tokens)
    (distinct : (seen ++ param :: params).Nodup)
    (ended : ∀ next, rest.head? = some next → next.kind ≠ .comma) :
    paramNames seen (tokens ++ rest) = .ok (seen ++ param :: params, rest) := by
  induction params generalizing seen param tokens with
  | nil =>
      cases spelled with
      | @single name kind =>
          have unseen : name.text ∉ seen := by
            intro member
            exact (List.nodup_append.mp distinct).2.2 _ member _ (by simp) rfl
          cases rest with
          | nil => simp [paramNames, kind, unseen]
          | cons next rest => simp [paramNames, kind, unseen, ended next rfl]
  | cons next params inductionHypothesis =>
      cases spelled with
      | @cons name comma _ _ later kind commaKind continued =>
          have unseen : name.text ∉ seen := by
            intro member
            exact (List.nodup_append.mp distinct).2.2 _ member _ (by simp) rfl
          have continues : paramNames (seen ++ [name.text]) (later ++ rest) =
              .ok (seen ++ [name.text] ++ next :: params, rest) :=
            inductionHypothesis continued (by simpa using distinct)
          rw [List.cons_append, List.cons_append, paramNames]
          simpa [kind, unseen, commaKind] using continues

theorem paramNames_sound {seen names : List String} {tokens rest : List Token}
    (distinct : seen.Nodup) (read : paramNames seen tokens = .ok (names, rest)) :
    ∃ param params consumed, names = seen ++ param :: params ∧ tokens = consumed ++ rest ∧
      Definition.SpellsParams (param :: params) consumed ∧ names.Nodup := by
  fun_induction paramNames seen tokens with
  | case1 => simp at read
  | case2 => simp at read
  | case3 => simp at read
  | case4 seen token kind unseen =>
      obtain ⟨rfl, rfl⟩ := by simpa using read
      refine ⟨token.text, [], [token], rfl, rfl, .single (not_not.mp kind), ?_⟩
      rw [← List.concat_eq_append]
      exact .concat unseen distinct
  | case5 seen token kind unseen next later comma inductionHypothesis =>
      have extended : (seen ++ [token.text]).Nodup := by
        rw [← List.concat_eq_append]
        exact .concat unseen distinct
      obtain ⟨param, params, consumed, rfl, rfl, spelled, allDistinct⟩ :=
        inductionHypothesis extended read
      refine ⟨token.text, param :: params, token :: next :: consumed, by simp, rfl, ?_,
        allDistinct⟩
      exact .cons (not_not.mp kind) comma spelled
  | case6 seen token kind unseen next later noComma =>
      obtain ⟨rfl, rfl⟩ := by simpa using read
      refine ⟨token.text, [], [token], rfl, rfl, .single (not_not.mp kind), ?_⟩
      rw [← List.concat_eq_append]
      exact .concat unseen distinct

theorem params_of_identifier {opening : Token} {tokens : List Token}
    (openingKind : opening.kind = .openParen)
    (starts : tokens.head?.map Token.kind = some .identifier) :
    params (opening :: tokens) = do
      let (names, tokens) ← paramNames [] tokens
      let (_, tokens) ← expect .closeParen tokens
      return (names, tokens) := by
  rw [params, expect_of_kind _ openingKind]
  exact if_pos starts

theorem params_of_other {opening : Token} {tokens : List Token}
    (openingKind : opening.kind = .openParen)
    (starts : tokens.head?.map Token.kind ≠ some .identifier) :
    params (opening :: tokens) = do
      let (_, tokens) ← expect .closeParen tokens
      return ([], tokens) := by
  rw [params, expect_of_kind _ openingKind]
  exact if_neg starts

theorem params_of_spellsParams {names : List String} {opening closing : Token}
    {tokens : List Token} (rest : List Token) (openingKind : opening.kind = .openParen)
    (spelled : Definition.SpellsParams names tokens) (distinct : names.Nodup)
    (closingKind : closing.kind = .closeParen) :
    params (opening :: tokens ++ closing :: rest) = .ok (names, rest) := by
  rw [List.cons_append]
  cases names with
  | nil =>
      cases spelled
      rw [params_of_other openingKind (by simp [closingKind]), List.nil_append,
        expect_of_kind _ closingKind]
      rfl
  | cons param names =>
      have starts : (tokens ++ closing :: rest).head?.map Token.kind = some .identifier := by
        cases spelled with
        | single kind => simp [kind]
        | cons kind commaKind continued => simp [kind]
      have read : paramNames [] (tokens ++ closing :: rest) =
          .ok (param :: names, closing :: rest) :=
        paramNames_of_spellsParams spelled distinct (by simp [closingKind])
      rw [params_of_identifier openingKind starts, read]
      change (expect .closeParen (closing :: rest) >>= fun (_, tokens) =>
        pure (param :: names, tokens)) = _
      rw [expect_of_kind _ closingKind]
      rfl

theorem params_sound {names : List String} {tokens rest : List Token}
    (read : params tokens = .ok (names, rest)) :
    ∃ opening closing consumed, tokens = opening :: consumed ++ closing :: rest ∧
      opening.kind = .openParen ∧ Definition.SpellsParams names consumed ∧ names.Nodup ∧
      closing.kind = .closeParen := by
  obtain ⟨⟨opening, inner⟩, opened, _⟩ := exists_of_bind_eq_ok read
  obtain ⟨rfl, openingKind⟩ := expect_eq_ok opened
  by_cases starts : inner.head?.map Token.kind = some .identifier
  · rw [params_of_identifier openingKind starts] at read
    obtain ⟨⟨found, remaining⟩, namesRead, continued⟩ := exists_of_bind_eq_ok read
    obtain ⟨⟨closing, after⟩, closed, returned⟩ := exists_of_bind_eq_ok continued
    obtain ⟨rfl, closingKind⟩ := expect_eq_ok closed
    obtain ⟨rfl, rfl⟩ : found = names ∧ after = rest := by
      simpa [pure, Except.pure] using returned
    obtain ⟨param, params, consumed, rfl, rfl, spelled, distinct⟩ :=
      paramNames_sound List.nodup_nil namesRead
    exact ⟨opening, closing, consumed, rfl, openingKind, spelled, distinct, closingKind⟩
  · rw [params_of_other openingKind starts] at read
    obtain ⟨⟨closing, after⟩, closed, returned⟩ := exists_of_bind_eq_ok read
    obtain ⟨rfl, closingKind⟩ := expect_eq_ok closed
    obtain ⟨rfl, rfl⟩ : [] = names ∧ after = rest := by
      simpa [pure, Except.pure] using returned
    exact ⟨opening, closing, [], rfl, openingKind, .none, List.nodup_nil, closingKind⟩

theorem definition_of_spells {tree : Definition} {tokens : List Token}
    (spelled : tree.Spells tokens) (permitted : tree.Permitted) :
    definition tokens = .ok tree := by
  cases spelled with
  | @intro start name opening closing finish names body paramTokens bodyTokens startKind
      nameKind openingKind paramsSpelled closingKind bodySpelled finishKind =>
      obtain ⟨distinct, shallow⟩ := permitted
      have paramsRead := params_of_spellsParams (bodyTokens ++ [finish]) openingKind
        paramsSpelled distinct closingKind
      have bodyRead : expression 0 (bodyTokens ++ [finish]) = .ok (body, [finish]) := by
        rw [expression, operand_of_spells 0 [] [finish] bodySpelled
          (fun _ => by simpa using shallow) (by simp [finishKind]), resume_nil]
      simp only [List.cons_append, List.append_assoc] at paramsRead ⊢
      simp [definition, expect_of_kind, startKind, nameKind, finishKind, paramsRead, bodyRead,
        bind, Except.bind, pure, Except.pure]

theorem definition_sound {tree : Definition} {tokens : List Token}
    (read : definition tokens = .ok tree) : tree.Spells tokens ∧ tree.Permitted := by
  obtain ⟨⟨start, afterStart⟩, startRead, fromName⟩ := exists_of_bind_eq_ok read
  obtain ⟨⟨name, afterName⟩, nameRead, fromParams⟩ := exists_of_bind_eq_ok fromName
  obtain ⟨⟨names, afterParams⟩, paramsRead, fromBody⟩ := exists_of_bind_eq_ok fromParams
  obtain ⟨⟨body, afterBody⟩, bodyRead, fromFinish⟩ := exists_of_bind_eq_ok fromBody
  obtain ⟨⟨finish, afterFinish⟩, finishRead, returned⟩ := exists_of_bind_eq_ok fromFinish
  obtain ⟨rfl, startKind⟩ := expect_eq_ok startRead
  obtain ⟨rfl, nameKind⟩ := expect_eq_ok nameRead
  obtain ⟨opening, closing, paramTokens, rfl, openingKind, paramsSpelled, distinct,
    closingKind⟩ := params_sound paramsRead
  obtain ⟨bodyTokens, rfl, bodySpelled, fits⟩ := operand_sound .nil bodyRead
  obtain ⟨rfl, finishKind⟩ := expect_eq_ok finishRead
  cases afterFinish with
  | cons token rest => cases returned
  | nil =>
      cases returned
      refine ⟨?_, distinct, by simpa using fits (Nat.zero_le maxCallDepth)⟩
      simpa using Definition.Spells.intro startKind nameKind openingKind paramsSpelled
        closingKind bodySpelled finishKind

end Parser

/-- No tokens spell two expressions. Reading them beyond the limit, where no
call is refused, finds the only one. -/
theorem Expr.Spells.unique {first second : Expr} {tokens : List Token}
    (firstSpelled : first.Spells tokens) (secondSpelled : second.Spells tokens) :
    first = second := by
  have beyond (expr : Expr) : expr.FitsAt (maxCallDepth + 1) :=
    fun within => absurd within (Nat.not_succ_le_self maxCallDepth)
  have read {expr : Expr} (spelled : expr.Spells tokens) :
      Parser.operand (maxCallDepth + 1) [] tokens = .ok (expr, []) := by
    simpa using Parser.operand_of_spells (maxCallDepth + 1) [] [] spelled (beyond expr) (by simp)
  have same := (read firstSpelled).symm.trans (read secondSpelled)
  simpa using same

/-- The texts of the identifiers among some tokens. -/
def Token.identifiers (tokens : List Token) : List String :=
  (tokens.filter fun token => token.kind = .identifier).map Token.text

namespace Definition

theorem SpellsParams.identifiers_eq {params : List String} {tokens : List Token}
    (spelled : SpellsParams params tokens) : Token.identifiers tokens = params := by
  induction spelled with
  | none => rfl
  | single kind => simp [Token.identifiers, kind]
  | cons kind commaKind _ inductionHypothesis =>
      simpa [Token.identifiers, kind, commaKind] using inductionHypothesis

theorem SpellsParams.kind_ne_closeParen {params : List String} {tokens : List Token}
    (spelled : SpellsParams params tokens) :
    ∀ token ∈ tokens, token.kind ≠ .closeParen := by
  induction spelled with
  | none => simp
  | single kind => simp [kind]
  | cons kind commaKind _ inductionHypothesis =>
      simpa [kind, commaKind] using inductionHypothesis

theorem SpellsParams.takeWhile_eq {params : List String} {tokens : List Token}
    {closing : Token} (rest : List Token) (spelled : SpellsParams params tokens)
    (kind : closing.kind = .closeParen) :
    (tokens ++ closing :: rest).takeWhile (fun token => token.kind ≠ .closeParen) = tokens := by
  rw [List.takeWhile_append_of_pos (by simpa using spelled.kind_ne_closeParen)]
  simp [kind]

theorem Spells.unique {first second : Definition} {tokens : List Token}
    (firstSpelled : first.Spells tokens) (secondSpelled : second.Spells tokens) :
    first = second := by
  cases firstSpelled with
  | @intro _ _ _ _ _ _ _ paramTokens _ _ _ _ firstParams firstClosing firstBody _ =>
      generalize sameTokens : _ ++ [_] = tokens at secondSpelled
      cases secondSpelled with
      | @intro _ _ _ _ _ _ _ otherTokens _ _ _ _ secondParams secondClosing secondBody _ =>
          simp only [List.cons_append, List.append_assoc, List.cons.injEq] at sameTokens
          obtain ⟨rfl, rfl, rfl, sameRest⟩ := sameTokens
          have sameParams : paramTokens = otherTokens := by
            rw [← firstParams.takeWhile_eq _ firstClosing, sameRest,
              secondParams.takeWhile_eq _ secondClosing]
          subst sameParams
          have namesEq := firstParams.identifiers_eq.symm.trans secondParams.identifiers_eq
          obtain ⟨-, sameBody⟩ := List.cons.inj (List.append_cancel_left sameRest)
          obtain ⟨rfl, -⟩ := List.append_inj' sameBody rfl
          rw [namesEq, firstBody.unique secondBody]

end Definition

theorem parse_eq_ok_iff {source : String} {tokens : List Token} {tree : Definition} :
    parse source tokens = .ok tree ↔ Parser.definition tokens = .ok tree := by
  rw [parse, mapError_eq_ok_iff]

/-- The tokens are read as a tree exactly when the grammar derives them from it,
its parameters differ and its calls are not nested too deep. The grammar derives
no tokens from two trees. -/
theorem parse_eq_ok_iff_spells (source : String) (tokens : List Token) :
    (∀ tree : Definition,
      parse source tokens = .ok tree ↔ tree.Spells tokens ∧ tree.Permitted) ∧
    ∀ first second : Definition, first.Spells tokens → second.Spells tokens →
      first = second := by
  refine ⟨fun tree => ?_, fun _ _ => Definition.Spells.unique⟩
  rw [parse_eq_ok_iff]
  constructor
  · exact Parser.definition_sound
  · rintro ⟨spelled, permitted⟩
    exact Parser.definition_of_spells spelled permitted

end DefLang
