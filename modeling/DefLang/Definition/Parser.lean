import DefLang.Diagnostic
import DefLang.Expr
import DefLang.Numeral

/-! # Reading a definition from its tokens

A definition is the keyword `def`, a name, parameters between parentheses, an
expression and the keyword `end`. Each function here consumes tokens from the
front of a list and returns the tokens that it leaves, or the first fault.

Expressions are read in one pass from left to right. The calls whose argument
lists are still open are kept in a list, innermost first: `operand` reads the
start of an expression, and `resume` decides what follows a finished one. The
length of that list is the depth that is compared with `maxCallDepth`.
-/
namespace DefLang.Parser

open Token (Kind)

/-- Why some tokens are no definition, with the token at fault. -/
inductive Fault where
  | unexpected (expected : Expected) (found : Option Token)
  | duplicateParameter (param : Token)
  | integerOutOfRange (literal : Token)
  | tooDeep (callee : Token)
deriving DecidableEq, Repr

/-- The diagnostic of a fault. A fault that is not at a token is at the end of
the source. -/
def Fault.diagnostic (source : String) : Fault → Diagnostic
  | .unexpected expected (some found) => ⟨found.offset, .unexpected expected (some found.kind)⟩
  | .unexpected expected none =>
      ⟨Text.byteLength source.toList, .unexpected expected none⟩
  | .duplicateParameter param => ⟨param.offset, .duplicateParameter param.text⟩
  | .integerOutOfRange literal => ⟨literal.offset, .integerOutOfRange literal.text⟩
  | .tooDeep callee => ⟨callee.offset, .tooDeep maxCallDepth⟩

/-- Consumes one token of the given kind. -/
def expect (kind : Kind) : List Token → Except Fault (Token × List Token)
  | [] => .error (.unexpected (.token kind) none)
  | token :: rest =>
      if token.kind = kind then .ok (token, rest)
      else .error (.unexpected (.token kind) (some token))

/-- Consumes identifiers separated by commas, at least one, which have to
differ from each other and from those seen before. -/
def paramNames (seen : List String) : List Token → Except Fault (List String × List Token)
  | [] => .error (.unexpected (.token .identifier) none)
  | token :: rest =>
      if token.kind ≠ .identifier then
        .error (.unexpected (.token .identifier) (some token))
      else if token.text ∈ seen then
        .error (.duplicateParameter token)
      else
        match rest with
        | [] => .ok (seen ++ [token.text], [])
        | next :: rest =>
            if next.kind = .comma then paramNames (seen ++ [token.text]) rest
            else .ok (seen ++ [token.text], next :: rest)

/-- Consumes parameters between parentheses. Whether there are any is decided
by the token after the opening one. -/
def params (tokens : List Token) : Except Fault (List String × List Token) := do
  let (_, tokens) ← expect .openParen tokens
  let (names, tokens) ←
    if tokens.head?.map Token.kind = some .identifier then paramNames [] tokens
    else pure ([], tokens)
  let (_, tokens) ← expect .closeParen tokens
  return (names, tokens)

/-- A call whose argument list is still open, with the arguments so far. -/
structure OpenCall where
  callee : String
  args : List Expr

/-- Adds an argument to an open call. -/
def OpenCall.push (openCall : OpenCall) (arg : Expr) : OpenCall :=
  { openCall with args := openCall.args ++ [arg] }

/-- The call that is complete with one more argument. -/
def OpenCall.close (openCall : OpenCall) (lastArg : Expr) : Expr :=
  .call openCall.callee (openCall.args ++ [lastArg])

mutual

/-- Consumes the rest of the open calls from the start of an expression on. -/
def operand (depth : Nat) (calls : List OpenCall) :
    List Token → Except Fault (Expr × List Token)
  | [] => .error (.unexpected (.token .identifier) none)
  | token :: rest =>
      match token.kind with
      | .integer =>
          match Numeral.parse? token.text with
          | some value => resume depth calls (.integer value) rest
          | none => .error (.integerOutOfRange token)
      | .identifier =>
          match rest with
          | [] => resume depth calls (.var token.text) []
          | next :: rest =>
              if next.kind ≠ .openParen then
                resume depth calls (.var token.text) (next :: rest)
              else if depth + calls.length = maxCallDepth then
                .error (.tooDeep token)
              else
                match rest with
                | [] => operand depth (⟨token.text, []⟩ :: calls) []
                | first :: rest =>
                    if first.kind = .closeParen then
                      resume depth calls (.call token.text []) rest
                    else
                      operand depth (⟨token.text, []⟩ :: calls) (first :: rest)
      | _ => .error (.unexpected (.token .identifier) (some token))

/-- Consumes the rest of the open calls after a finished expression. -/
def resume (depth : Nat) (calls : List OpenCall) (expr : Expr) :
    List Token → Except Fault (Expr × List Token)
  | [] =>
      match calls with
      | [] => .ok (expr, [])
      | _ :: _ => .error (.unexpected (.token .closeParen) none)
  | token :: rest =>
      match calls with
      | [] => .ok (expr, token :: rest)
      | innermost :: outer =>
          if token.kind = .comma then
            operand depth (innermost.push expr :: outer) rest
          else if token.kind = .closeParen then
            resume depth outer (innermost.close expr) rest
          else
            .error (.unexpected (.token .closeParen) (some token))

end

section Operand

variable {depth : Nat} {calls : List OpenCall} {token : Token} {rest : List Token}

theorem operand_of_integer (kind : token.kind = .integer) :
    operand depth calls (token :: rest) =
      match Numeral.parse? token.text with
      | some value => resume depth calls (.integer value) rest
      | none => .error (.integerOutOfRange token) := by
  rw [operand.eq_def]
  simp only [kind]

/-- An identifier is a variable unless an opening parenthesis follows. -/
theorem operand_of_var (kind : token.kind = .identifier)
    (noCall : ∀ next, rest.head? = some next → next.kind ≠ .openParen) :
    operand depth calls (token :: rest) = resume depth calls (.var token.text) rest := by
  rw [operand.eq_def]
  cases rest with
  | nil => simp only [kind]
  | cons next rest => simp only [kind, if_pos (noCall next rfl)]

/-- A call is refused at its callee when the depth is used up. -/
theorem operand_of_tooDeep {opening : Token} (kind : token.kind = .identifier)
    (openingKind : opening.kind = .openParen) (full : depth + calls.length = maxCallDepth) :
    operand depth calls (token :: opening :: rest) = .error (.tooDeep token) := by
  rw [operand.eq_def]
  simp [kind, openingKind, full]

/-- A call without arguments is finished at once. -/
theorem operand_of_emptyCall {opening closing : Token} (kind : token.kind = .identifier)
    (openingKind : opening.kind = .openParen) (closingKind : closing.kind = .closeParen)
    (room : depth + calls.length ≠ maxCallDepth) :
    operand depth calls (token :: opening :: closing :: rest) =
      resume depth calls (.call token.text []) rest := by
  rw [operand.eq_def]
  simp [kind, openingKind, closingKind, room]

/-- A call with arguments is opened, and its first argument is read. -/
theorem operand_of_call {opening : Token} (kind : token.kind = .identifier)
    (openingKind : opening.kind = .openParen)
    (argument : ∀ first, rest.head? = some first → first.kind ≠ .closeParen)
    (room : depth + calls.length ≠ maxCallDepth) :
    operand depth calls (token :: opening :: rest) =
      operand depth (⟨token.text, []⟩ :: calls) rest := by
  rw [operand.eq_def]
  cases rest with
  | nil => simp [kind, openingKind, room]
  | cons first rest => simp [kind, openingKind, room, argument first rfl]

/-- Nothing else starts an expression. -/
theorem operand_of_other (notInteger : token.kind ≠ .integer)
    (notIdentifier : token.kind ≠ .identifier) :
    operand depth calls (token :: rest) =
      .error (.unexpected (.token .identifier) (some token)) := by
  rw [operand.eq_def]
  cases kind : token.kind <;> simp_all

end Operand

/-- Consumes an expression that stands inside the given number of calls. -/
def expression (depth : Nat) (tokens : List Token) : Except Fault (Expr × List Token) :=
  operand depth [] tokens

/-- Reads all the tokens as one definition. -/
def definition (tokens : List Token) : Except Fault Definition := do
  let (_, tokens) ← expect .defKeyword tokens
  let (name, tokens) ← expect .identifier tokens
  let (params, tokens) ← params tokens
  let (body, tokens) ← expression 0 tokens
  let (_, tokens) ← expect .endKeyword tokens
  match tokens with
  | [] => return ⟨name.text, params, body⟩
  | token :: _ => throw (.unexpected .endOfInput (some token))

end DefLang.Parser

namespace DefLang

/-- The definition that the tokens of a source spell, or the first fault. -/
def parse (source : String) (tokens : List Token) : Except Diagnostic Definition :=
  (Parser.definition tokens).mapError (Parser.Fault.diagnostic source)

end DefLang
