import DefLang.Proofs.GrammarAcceptance
import Mathlib.Computability.StateTransition

/-!
# Reading an expression with a cursor

The parser is taken apart into steps over a list of tokens that stays as it is.
A cursor keeps its position in the list and counts the calls that are open
around it: up where a call is opened, and down where one is closed. Counting
down from zero is not hidden, it leads to a state of its own. What is left to
read from a cursor is the same after a step as before it, so the steps are those
of the parser, and the count is the length of the list that the parser keeps.
Of two steps in a row one spends a token or is the last, so every run comes to an
end.
-/
namespace DefLang.Parser

open Token (Kind)
open StateTransition

/-- What a cursor has come to. -/
inductive Phase where
  /-- An expression has to start at the position. -/
  | operandDue
  /-- The opening parenthesis of a call was just read. -/
  | callOpened (callee : String)
  /-- An expression ends at the position. -/
  | exprRead (expr : Expr)
  | refused (fault : Fault)
  /-- A call was closed while none was counted as open. -/
  | underflow

/-- How far an expression is read. -/
structure Cursor where
  position : Nat
  /-- How many calls are counted as open. -/
  depth : Nat
  /-- The calls that were opened on the way, innermost first. -/
  calls : List OpenCall
  phase : Phase

namespace Cursor

/-- The cursor before an expression that stands inside some calls. -/
def start (position depth : Nat) : Cursor := ⟨position, depth, [], .operandDue⟩

def refuse (cursor : Cursor) (fault : Fault) : Cursor := { cursor with phase := .refused fault }

/-- Goes past an expression that is a single token. -/
def take (cursor : Cursor) (expr : Expr) : Cursor :=
  { cursor with position := cursor.position + 1, phase := .exprRead expr }

/-- Goes past the end of a call and counts one call less. -/
def close (cursor : Cursor) (outer : List OpenCall) (call : Expr) : Cursor :=
  match cursor.depth with
  | 0 => { cursor with phase := .underflow }
  | depth + 1 => ⟨cursor.position + 1, depth, outer, .exprRead call⟩

/-- The step at the start of an expression. It looks at the token after an
identifier, and counts one call more if that opens one. -/
def readOperand (tokens : List Token) (cursor : Cursor) : Cursor :=
  match tokens[cursor.position]? with
  | none => cursor.refuse (.unexpected (.token .identifier) none)
  | some token =>
      if token.kind = .integer then
        match Numeral.parse? token.text with
        | some value => cursor.take (.integer value)
        | none => cursor.refuse (.integerOutOfRange token)
      else if token.kind = .identifier then
        if tokens[cursor.position + 1]?.map Token.kind = some .openParen then
          if cursor.depth = maxCallDepth then cursor.refuse (.tooDeep token)
          else ⟨cursor.position + 2, cursor.depth + 1, cursor.calls, .callOpened token.text⟩
        else cursor.take (.var token.text)
      else cursor.refuse (.unexpected (.token .identifier) (some token))

/-- The step after an opening parenthesis. -/
def readOpened (tokens : List Token) (callee : String) (cursor : Cursor) : Cursor :=
  if tokens[cursor.position]?.map Token.kind = some .closeParen then
    cursor.close cursor.calls (.call callee [])
  else
    { cursor with calls := ⟨callee, []⟩ :: cursor.calls, phase := .operandDue }

/-- The step after an argument of a call. -/
def readAfter (tokens : List Token) (innermost : OpenCall) (outer : List OpenCall) (arg : Expr)
    (cursor : Cursor) : Cursor :=
  match tokens[cursor.position]? with
  | none => cursor.refuse (.unexpected (.token .closeParen) none)
  | some token =>
      if token.kind = .comma then
        ⟨cursor.position + 1, cursor.depth, innermost.push arg :: outer, .operandDue⟩
      else if token.kind = .closeParen then cursor.close outer (innermost.close arg)
      else cursor.refuse (.unexpected (.token .closeParen) (some token))

/-- One step, unless the cursor has come to an end. -/
def step (tokens : List Token) (cursor : Cursor) : Option Cursor :=
  match cursor.phase with
  | .operandDue => some (cursor.readOperand tokens)
  | .callOpened callee => some (cursor.readOpened tokens callee)
  | .exprRead expr =>
      match cursor.calls with
      | [] => none
      | innermost :: outer => some (cursor.readAfter tokens innermost outer expr)
  | .refused _ => none
  | .underflow => none

/-- How many calls were opened on the way to a cursor and are not closed. -/
def openCalls (cursor : Cursor) : Nat :=
  match cursor.phase with
  | .callOpened _ => cursor.calls.length + 1
  | _ => cursor.calls.length

end Cursor

/-- Consumes the rest of the open calls after the opening parenthesis of one more. -/
def afterOpening (depth : Nat) (calls : List OpenCall) (callee : String) :
    List Token → Except Fault (Expr × List Token)
  | [] => operand depth (⟨callee, []⟩ :: calls) []
  | first :: rest =>
      if first.kind = .closeParen then resume depth calls (.call callee []) rest
      else operand depth (⟨callee, []⟩ :: calls) (first :: rest)

theorem operand_of_opening {depth : Nat} {calls : List OpenCall} {callee opening : Token}
    {rest : List Token} (kind : callee.kind = .identifier)
    (openingKind : opening.kind = .openParen) (room : depth + calls.length ≠ maxCallDepth) :
    operand depth calls (callee :: opening :: rest) =
      afterOpening depth calls callee.text rest := by
  cases rest with
  | nil => exact operand_of_call kind openingKind (by simp) room
  | cons first rest =>
      by_cases closing : first.kind = .closeParen
      · rw [operand_of_emptyCall kind openingKind closing room, afterOpening, if_pos closing]
      · rw [operand_of_call kind openingKind (by simpa using closing) room, afterOpening,
          if_neg closing]

namespace Cursor

/-- The parser has this result for what is left to read from a cursor. -/
def Yields (depth : Nat) (tokens : List Token) (result : Except Fault (Expr × List Token))
    (cursor : Cursor) : Prop :=
  match cursor.phase with
  | .operandDue => operand depth cursor.calls (tokens.drop cursor.position) = result
  | .callOpened callee =>
      afterOpening depth cursor.calls callee (tokens.drop cursor.position) = result
  | .exprRead expr => resume depth cursor.calls expr (tokens.drop cursor.position) = result
  | .refused fault => .error fault = result
  | .underflow => False

/-- The cursor is on the way from a depth to a result: it stands among the tokens or at
their end, counts the open calls, no more than allowed, and the result is still ahead. -/
structure LeadsTo (depth : Nat) (tokens : List Token)
    (result : Except Fault (Expr × List Token)) (cursor : Cursor) : Prop where
  inside : cursor.position ≤ tokens.length
  counted : cursor.depth = depth + cursor.openCalls
  bounded : cursor.depth ≤ maxCallDepth
  yields : cursor.Yields depth tokens result

section LeadsTo

variable {depth : Nat} {tokens : List Token} {result : Except Fault (Expr × List Token)}
  {position count : Nat} {calls : List OpenCall}

theorem drop_of_getElem? {token : Token} (found : tokens[position]? = some token) :
    tokens.drop position = token :: tokens.drop (position + 1) := by
  obtain ⟨inside, rfl⟩ := List.getElem?_eq_some_iff.mp found
  exact List.drop_eq_getElem_cons inside

theorem drop_of_getElem?_none (missing : tokens[position]? = none) :
    tokens.drop position = [] :=
  List.drop_eq_nil_iff.mpr (List.getElem?_eq_none_iff.mp missing)

theorem lt_of_getElem? {token : Token} (found : tokens[position]? = some token) :
    position < tokens.length :=
  (List.getElem?_eq_some_iff.mp found).1

theorem LeadsTo.refuse {cursor : Cursor} (leads : cursor.LeadsTo depth tokens result)
    {fault : Fault} (stopped : .error fault = result)
    (settled : cursor.openCalls = cursor.calls.length) :
    (cursor.refuse fault).LeadsTo depth tokens result where
  inside := leads.inside
  counted := leads.counted.trans (congrArg (depth + ·) settled)
  bounded := leads.bounded
  yields := stopped

theorem LeadsTo.take {expr : Expr}
    (leads : LeadsTo depth tokens result ⟨position, count, calls, .operandDue⟩)
    (before : position < tokens.length)
    (resumed : resume depth calls expr (tokens.drop (position + 1)) = result) :
    (Cursor.take ⟨position, count, calls, .operandDue⟩ expr).LeadsTo depth tokens result where
  inside := before
  counted := leads.counted
  bounded := leads.bounded
  yields := resumed

/-- A call that was opened on the way was counted, so there is one to count down. -/
theorem LeadsTo.close {cursor : Cursor} {outer : List OpenCall} {call : Expr}
    (leads : cursor.LeadsTo depth tokens result) (nested : cursor.openCalls = outer.length + 1)
    (before : cursor.position < tokens.length)
    (resumed : resume depth outer call (tokens.drop (cursor.position + 1)) = result) :
    (cursor.close outer call).LeadsTo depth tokens result := by
  have counted : cursor.depth = depth + outer.length + 1 := by
    rw [leads.counted, nested]
    rfl
  have bounded := leads.bounded
  rw [Cursor.close, counted]
  rw [counted] at bounded
  exact ⟨before, rfl, Nat.le_of_succ_le bounded, resumed⟩

/-- What the token after an identifier is decides between a call and a variable, and the
count is where the parser compares the length of its list with the limit. -/
theorem LeadsTo.readIdentifier {token : Token}
    (leads : LeadsTo depth tokens result ⟨position, count, calls, .operandDue⟩)
    (found : tokens[position]? = some token) (identifier : token.kind = .identifier) :
    (Cursor.readOperand tokens ⟨position, count, calls, .operandDue⟩).LeadsTo depth tokens
      result := by
  have yields : operand depth calls (tokens.drop position) = result := leads.yields
  have counted : count = depth + calls.length := leads.counted
  have notInteger : token.kind ≠ .integer := by simp [identifier]
  rw [drop_of_getElem? found] at yields
  by_cases call : tokens[position + 1]?.map Token.kind = some .openParen
  · obtain ⟨opening, foundOpening, openingKind⟩ := Option.map_eq_some_iff.mp call
    rw [drop_of_getElem? foundOpening] at yields
    by_cases full : count = maxCallDepth
    · rw [operand_of_tooDeep identifier openingKind (counted ▸ full)] at yields
      simp only [Cursor.readOperand, found, if_neg notInteger, if_pos identifier, if_pos call,
        if_pos full]
      exact leads.refuse yields rfl
    · rw [operand_of_opening identifier openingKind (counted ▸ full)] at yields
      simp only [Cursor.readOperand, found, if_neg notInteger, if_pos identifier, if_pos call,
        if_neg full]
      have bounded : count ≤ maxCallDepth := leads.bounded
      exact ⟨lt_of_getElem? foundOpening, congrArg (· + 1) counted,
        Nat.lt_of_le_of_ne bounded full, yields⟩
  · have noCall : ∀ next, (tokens.drop (position + 1)).head? = some next →
        next.kind ≠ .openParen := by
      intro next isHead opens
      rw [List.head?_drop] at isHead
      exact call (by rw [isHead, Option.map_some, opens])
    rw [operand_of_var identifier noCall] at yields
    simp only [Cursor.readOperand, found, if_neg notInteger, if_pos identifier, if_neg call]
    exact leads.take (lt_of_getElem? found) yields

theorem LeadsTo.readOperand
    (leads : LeadsTo depth tokens result ⟨position, count, calls, .operandDue⟩) :
    (Cursor.readOperand tokens ⟨position, count, calls, .operandDue⟩).LeadsTo depth tokens
      result := by
  have yields : operand depth calls (tokens.drop position) = result := leads.yields
  cases found : tokens[position]? with
  | none =>
      rw [drop_of_getElem?_none found, operand.eq_def] at yields
      simp only [Cursor.readOperand, found]
      exact leads.refuse yields rfl
  | some token =>
      rw [drop_of_getElem? found] at yields
      by_cases integer : token.kind = .integer
      · rw [operand_of_integer integer] at yields
        simp only [Cursor.readOperand, found, if_pos integer]
        cases parsed : Numeral.parse? token.text with
        | none =>
            rw [parsed] at yields
            exact leads.refuse yields rfl
        | some value =>
            rw [parsed] at yields
            exact leads.take (lt_of_getElem? found) yields
      by_cases identifier : token.kind = .identifier
      · exact leads.readIdentifier found identifier
      · rw [operand_of_other integer identifier] at yields
        simp only [Cursor.readOperand, found, if_neg integer, if_neg identifier]
        exact leads.refuse yields rfl

theorem LeadsTo.readOpened {callee : String}
    (leads : LeadsTo depth tokens result ⟨position, count, calls, .callOpened callee⟩) :
    (Cursor.readOpened tokens callee ⟨position, count, calls, .callOpened callee⟩).LeadsTo depth
      tokens result := by
  have yields : afterOpening depth calls callee (tokens.drop position) = result := leads.yields
  by_cases empty : tokens[position]?.map Token.kind = some .closeParen
  · obtain ⟨closing, found, closingKind⟩ := Option.map_eq_some_iff.mp empty
    rw [drop_of_getElem? found, afterOpening, if_pos closingKind] at yields
    simp only [Cursor.readOpened, if_pos empty]
    exact leads.close rfl (lt_of_getElem? found) yields
  · have argument : afterOpening depth calls callee (tokens.drop position) =
        operand depth (⟨callee, []⟩ :: calls) (tokens.drop position) := by
      cases found : tokens[position]? with
      | none => rw [drop_of_getElem?_none found, afterOpening]
      | some first =>
          have notClosing : first.kind ≠ .closeParen := by simpa [found] using empty
          rw [drop_of_getElem? found, afterOpening, if_neg notClosing]
    simp only [Cursor.readOpened, if_neg empty]
    exact ⟨leads.inside, leads.counted, leads.bounded, argument.symm.trans yields⟩

theorem LeadsTo.readAfter {innermost : OpenCall} {outer : List OpenCall} {arg : Expr}
    (leads : LeadsTo depth tokens result ⟨position, count, innermost :: outer, .exprRead arg⟩) :
    (Cursor.readAfter tokens innermost outer arg
      ⟨position, count, innermost :: outer, .exprRead arg⟩).LeadsTo depth tokens result := by
  have yields : resume depth (innermost :: outer) arg (tokens.drop position) = result :=
    leads.yields
  cases found : tokens[position]? with
  | none =>
      rw [drop_of_getElem?_none found, resume.eq_def] at yields
      simp only [Cursor.readAfter, found]
      exact leads.refuse yields rfl
  | some token =>
      rw [drop_of_getElem? found] at yields
      by_cases comma : token.kind = .comma
      · rw [resume_of_comma comma] at yields
        simp only [Cursor.readAfter, found, if_pos comma]
        exact ⟨lt_of_getElem? found, leads.counted, leads.bounded, yields⟩
      by_cases closing : token.kind = .closeParen
      · rw [resume_of_close closing] at yields
        simp only [Cursor.readAfter, found, if_neg comma, if_pos closing]
        exact leads.close rfl (lt_of_getElem? found) yields
      · rw [resume.eq_def] at yields
        simp only [if_neg comma, if_neg closing] at yields
        simp only [Cursor.readAfter, found, if_neg comma, if_neg closing]
        exact leads.refuse yields rfl

/-- A step keeps the count right and leaves the same result to be read. -/
theorem LeadsTo.step {cursor next : Cursor} (leads : cursor.LeadsTo depth tokens result)
    (stepped : cursor.step tokens = some next) : next.LeadsTo depth tokens result := by
  obtain ⟨position, count, calls, phase⟩ := cursor
  cases phase with
  | operandDue =>
      cases stepped
      exact leads.readOperand
  | callOpened callee =>
      cases stepped
      exact leads.readOpened
  | exprRead expr =>
      cases calls with
      | nil => cases stepped
      | cons innermost outer =>
          cases stepped
          exact leads.readAfter
  | refused fault => cases stepped
  | underflow => cases stepped

theorem LeadsTo.reaches {cursor reached : Cursor} (leads : cursor.LeadsTo depth tokens result)
    (run : Reaches (Cursor.step tokens) cursor reached) :
    reached.LeadsTo depth tokens result := by
  induction run with
  | refl => exact leads
  | tail _ stepped inductionHypothesis => exact inductionHypothesis.step stepped

theorem LeadsTo.phase_ne_underflow {cursor : Cursor}
    (leads : cursor.LeadsTo depth tokens result) : cursor.phase ≠ .underflow := by
  intro under
  have yields := leads.yields
  rw [Yields, under] at yields
  exact yields

/-- A cursor from which an expression was read has closed all the calls that it opened. -/
theorem LeadsTo.eq_of_step_eq_none {cursor : Cursor} {expr : Expr} {rest : List Token}
    (leads : cursor.LeadsTo depth tokens (.ok (expr, rest)))
    (ended : cursor.step tokens = none) :
    cursor = ⟨cursor.position, depth, [], .exprRead expr⟩ ∧
      rest = tokens.drop cursor.position := by
  obtain ⟨position, count, calls, phase⟩ := cursor
  cases phase with
  | operandDue => cases ended
  | callOpened callee => cases ended
  | exprRead found =>
      cases calls with
      | cons innermost outer => cases ended
      | nil =>
          have yields : resume depth [] found (tokens.drop position) = .ok (expr, rest) :=
            leads.yields
          have counted : count = depth := leads.counted
          rw [resume_nil, Except.ok.injEq, Prod.mk.injEq] at yields
          obtain ⟨rfl, rfl⟩ := yields
          exact ⟨by rw [counted], rfl⟩
  | refused fault => cases leads.yields
  | underflow => cases leads.yields

end LeadsTo

theorem leadsTo_start {tokens : List Token} {position depth : Nat}
    (inside : position ≤ tokens.length) (shallow : depth ≤ maxCallDepth) :
    (start position depth).LeadsTo depth tokens (expression depth (tokens.drop position)) :=
  ⟨inside, rfl, shallow, rfl⟩

/-- A bound on the number of steps that are left. -/
def weight (tokens : List Token) (cursor : Cursor) : Nat :=
  match cursor.phase with
  | .callOpened _ => 2 * (tokens.length - cursor.position) + 2
  | .operandDue | .exprRead _ => 2 * (tokens.length - cursor.position) + 1
  | .refused _ | .underflow => 0

section Weight

variable {tokens : List Token} {cursor next : Cursor}

theorem remaining_succ_lt {position : Nat} (before : position < tokens.length) :
    2 * (tokens.length - (position + 1)) + 1 < 2 * (tokens.length - position) + 1 := by
  omega

theorem weight_close_lt {outer : List OpenCall} {call : Expr}
    (before : cursor.position < tokens.length) :
    (cursor.close outer call).weight tokens < 2 * (tokens.length - cursor.position) + 1 := by
  rw [close]
  split
  · exact Nat.succ_pos _
  · exact remaining_succ_lt before

theorem weight_readOperand_lt :
    (cursor.readOperand tokens).weight tokens <
      2 * (tokens.length - cursor.position) + 1 := by
  rw [readOperand]
  split
  · exact Nat.succ_pos _
  next token found =>
    have before := lt_of_getElem? found
    split
    · split
      · exact remaining_succ_lt before
      · exact Nat.succ_pos _
    · split
      · split
        · split
          · exact Nat.succ_pos _
          · change 2 * (tokens.length - (cursor.position + 2)) + 2 < _
            omega
        · exact remaining_succ_lt before
      · exact Nat.succ_pos _

theorem weight_readOpened_lt {callee : String} :
    (cursor.readOpened tokens callee).weight tokens <
      2 * (tokens.length - cursor.position) + 2 := by
  rw [readOpened]
  split
  next empty =>
    obtain ⟨closing, found, -⟩ := Option.map_eq_some_iff.mp empty
    exact Nat.lt_succ_of_lt (weight_close_lt (lt_of_getElem? found))
  next => exact Nat.lt_succ_self _

theorem weight_readAfter_lt {innermost : OpenCall} {outer : List OpenCall} {arg : Expr} :
    (cursor.readAfter tokens innermost outer arg).weight tokens <
      2 * (tokens.length - cursor.position) + 1 := by
  rw [readAfter]
  split
  · exact Nat.succ_pos _
  next token found =>
    have before := lt_of_getElem? found
    split
    · exact remaining_succ_lt before
    · split
      · exact weight_close_lt before
      · exact Nat.succ_pos _

theorem weight_lt_of_step (stepped : cursor.step tokens = some next) :
    next.weight tokens < cursor.weight tokens := by
  obtain ⟨position, depth, calls, phase⟩ := cursor
  cases phase with
  | operandDue =>
      cases stepped
      exact weight_readOperand_lt
  | callOpened callee =>
      cases stepped
      exact weight_readOpened_lt
  | exprRead expr =>
      cases calls with
      | nil => cases stepped
      | cons innermost outer =>
          cases stepped
          exact weight_readAfter_lt
  | refused fault => cases stepped
  | underflow => cases stepped

end Weight

/-- From wherever it starts, a cursor comes to an end. -/
theorem eval_dom (tokens : List Token) (cursor : Cursor) : (eval (step tokens) cursor).Dom := by
  cases stepped : cursor.step tokens with
  | none =>
      have ends : cursor ∈ eval (step tokens) cursor :=
        mem_eval.mpr ⟨Relation.ReflTransGen.refl, stepped⟩
      exact ends.1
  | some next =>
      rw [reaches_eval (Relation.ReflTransGen.single stepped)]
      exact eval_dom tokens next
termination_by cursor.weight tokens
decreasing_by exact weight_lt_of_step stepped

end Cursor

end DefLang.Parser
