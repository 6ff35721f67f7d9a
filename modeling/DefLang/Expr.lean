/-! # Expressions and definitions

A program is one function definition whose body is an expression: a 64-bit
integer, a variable, or a call of a named function. Calls may be nested, up to
`maxCallDepth` levels.
-/
namespace DefLang

/-- An expression. -/
inductive Expr where
  | integer (value : Int64)
  | var (name : String)
  | call (callee : String) (args : List Expr)

/-- The definition of one function. -/
structure Definition where
  name : String
  params : List String
  body : Expr

/-- How many calls may be open around a call, itself included. -/
def maxCallDepth : Nat := 256

mutual

/-- The greatest number of calls nested in one another. -/
def Expr.callDepth : Expr → Nat
  | .integer _ => 0
  | .var _ => 0
  | .call _ args => Expr.callDepths args + 1

/-- The greatest call depth among several expressions. -/
def Expr.callDepths : List Expr → Nat
  | [] => 0
  | expr :: rest => max expr.callDepth (Expr.callDepths rest)

end

end DefLang
