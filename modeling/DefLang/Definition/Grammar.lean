import DefLang.Expr
import DefLang.Numeral
import DefLang.Token

/-! # The grammar of definitions

Which tokens spell which tree, as relations that say nothing of how a tree is
found. Offsets play no part in them. An integer token spells the value of its
numeral, and identifiers spell themselves.
-/
namespace DefLang

mutual

/-- The tokens spell the expression. -/
inductive Expr.Spells : Expr → List Token → Prop where
  | integer {literal : Token} {value : Int64} (kind : literal.kind = .integer)
      (parsed : Numeral.parse? literal.text = some value) :
      Expr.Spells (.integer value) [literal]
  | var {name : Token} (kind : name.kind = .identifier) :
      Expr.Spells (.var name.text) [name]
  | call {callee opening closing : Token} {args : List Expr} {inner : List Token}
      (calleeKind : callee.kind = .identifier) (openingKind : opening.kind = .openParen)
      (spelled : Expr.SpellsArgs args inner) (closingKind : closing.kind = .closeParen) :
      Expr.Spells (.call callee.text args) (callee :: opening :: inner ++ [closing])

/-- The tokens spell the expressions, with commas between them. -/
inductive Expr.SpellsArgs : List Expr → List Token → Prop where
  | none : Expr.SpellsArgs [] []
  | single {arg : Expr} {tokens : List Token} (spelled : Expr.Spells arg tokens) :
      Expr.SpellsArgs [arg] tokens
  | cons {arg next : Expr} {later : List Expr} {comma : Token} {tokens rest : List Token}
      (spelled : Expr.Spells arg tokens) (commaKind : comma.kind = .comma)
      (continued : Expr.SpellsArgs (next :: later) rest) :
      Expr.SpellsArgs (arg :: next :: later) (tokens ++ comma :: rest)

end

namespace Definition

/-- The tokens spell the parameters, with commas between them. -/
inductive SpellsParams : List String → List Token → Prop where
  | none : SpellsParams [] []
  | single {param : Token} (kind : param.kind = .identifier) :
      SpellsParams [param.text] [param]
  | cons {param comma : Token} {next : String} {later : List String} {rest : List Token}
      (kind : param.kind = .identifier) (commaKind : comma.kind = .comma)
      (continued : SpellsParams (next :: later) rest) :
      SpellsParams (param.text :: next :: later) (param :: comma :: rest)

/-- The tokens spell the definition. -/
inductive Spells : Definition → List Token → Prop where
  | intro {start name opening closing finish : Token} {params : List String} {body : Expr}
      {paramTokens bodyTokens : List Token}
      (startKind : start.kind = .defKeyword) (nameKind : name.kind = .identifier)
      (openingKind : opening.kind = .openParen)
      (paramsSpelled : SpellsParams params paramTokens)
      (closingKind : closing.kind = .closeParen)
      (bodySpelled : Expr.Spells body bodyTokens) (finishKind : finish.kind = .endKeyword) :
      Spells ⟨name.text, params, body⟩
        (start :: name :: opening :: paramTokens ++ closing :: bodyTokens ++ [finish])

/-- A tree that may be spelled: its parameters differ from each other, and its
calls are nested no deeper than allowed. -/
def Permitted (definition : Definition) : Prop :=
  definition.params.Nodup ∧ definition.body.callDepth ≤ maxCallDepth

end Definition

end DefLang
