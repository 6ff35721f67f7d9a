import DefLang.Diagnostic
import DefLang.Expr
import DefLang.Numeral

/-! # Printing a definition as JavaScript

A definition is printed as one JavaScript function, in two steps. The first
looks for the first violation of the rules that keep the printed text a
function of the same shape: names consist of ASCII letters, parameters differ,
and calls are nested no deeper than `maxCallDepth`. Printing itself then cannot
fail. Violations are looked for in the order in which the text is printed.
-/
namespace DefLang

namespace Script

/-- What a name in a definition stands for. -/
inductive Role where
  | function
  | parameter
  | variable
  | callee
deriving DecidableEq, Repr

/-- The name of a role in a message. -/
def Role.describe : Role → String
  | .function => "function name"
  | .parameter => "parameter name"
  | .variable => "variable name"
  | .callee => "callee name"

/-- Why a definition cannot be printed. -/
inductive Violation where
  | invalidName (role : Role) (name : String)
  | duplicateParameter (param : String) (function : String)
  | tooDeep
deriving DecidableEq, Repr

/-- The wording of a violation. -/
def Violation.message : Violation → String
  | .invalidName role name => "invalid " ++ role.describe ++ " " ++ Text.quote name
  | .duplicateParameter param function =>
      "duplicate parameter \"" ++ param ++ "\" in function \"" ++ function ++ "\""
  | .tooDeep => (Cause.tooDeep maxCallDepth).message

/-- A name is a nonempty text of ASCII letters. -/
def IsName (text : String) : Prop := text.toList ≠ [] ∧ text.toList.all Char.isAlpha

instance (text : String) : Decidable (IsName text) := by
  unfold IsName
  infer_instance

/-- The violation by a text in the place of a name. -/
def nameViolation? (role : Role) (text : String) : Option Violation :=
  if IsName text then none else some (.invalidName role text)

/-- The first violation by a parameter, given the parameters before it. -/
def paramsViolation? (function : String) (earlier : List String) :
    List String → Option Violation
  | [] => none
  | param :: rest =>
      match nameViolation? .parameter param with
      | some violation => some violation
      | none =>
          if param ∈ earlier then some (.duplicateParameter param function)
          else paramsViolation? function (earlier ++ [param]) rest

end Script

namespace Expr

open Script

mutual

/-- The first violation in an expression that stands inside the given number of
calls. -/
def violation? (depth : Nat) : Expr → Option Violation
  | .integer _ => none
  | .var name => nameViolation? .variable name
  | .call callee args =>
      match nameViolation? .callee callee with
      | some violation => some violation
      | none =>
          if depth = maxCallDepth then some .tooDeep
          else argsViolation? (depth + 1) args

/-- The first violation in a list of expressions. -/
def argsViolation? (depth : Nat) : List Expr → Option Violation
  | [] => none
  | arg :: rest =>
      match violation? depth arg with
      | some violation => some violation
      | none => argsViolation? depth rest

end

mutual

/-- The text of an expression. -/
def render : Expr → String
  | .integer value => Numeral.render value
  | .var name => name
  | .call callee args => callee ++ "(" ++ String.intercalate "," (renderArgs args) ++ ")"

/-- The texts of several expressions. -/
def renderArgs : List Expr → List String
  | [] => []
  | arg :: rest => render arg :: renderArgs rest

end

/-- Prints an expression, or gives its first violation. -/
def generate (expr : Expr) : Except Violation String :=
  match expr.violation? 0 with
  | some violation => .error violation
  | none => .ok expr.render

end Expr

namespace Definition

open Script

/-- The first violation in a definition: in its name, its parameters, and then
its body. -/
def violation? (definition : Definition) : Option Violation :=
  match nameViolation? .function definition.name with
  | some violation => some violation
  | none =>
      match paramsViolation? definition.name [] definition.params with
      | some violation => some violation
      | none => definition.body.violation? 0

/-- The text of a definition. -/
def render (definition : Definition) : String :=
  "function " ++ definition.name ++ "(" ++ String.intercalate "," definition.params ++
    ") \x7b return " ++ definition.body.render ++ " \x7d;"

/-- Prints a definition, or gives its first violation. -/
def generate (definition : Definition) : Except Violation String :=
  match definition.violation? with
  | some violation => .error violation
  | none => .ok definition.render

end Definition

namespace Script

/-- The function that every program may call. -/
def runtime : String := "function add(x,y) \x7b return x + y \x7d;"

/-- The line that runs a program. -/
def invocation : String := "console.log(f(1, 2));"

/-- A printed definition with the lines before and after it. -/
def program (function : String) : String :=
  runtime ++ "\n" ++ function ++ "\n" ++ invocation

end Script

/-- Prints a definition as a whole program, or gives its first violation. -/
def Definition.generateProgram (definition : Definition) : Except Script.Violation String :=
  definition.generate.map Script.program

end DefLang
