import DefLang.Expr
import DefLang.Numeral
import DefLang.Text.Quoted

/-! # Outlines of definitions

An outline shows the tree of a definition as text: every node with its name and
labelled fields, and every list between brackets. It is written on one line or
with one field or item per line, indented by its level.
-/
namespace DefLang

namespace Outline

/-- The two ways to lay out an outline. -/
inductive Style where
  | compact
  | indented
deriving DecidableEq, Repr

/-- Four spaces for each level. -/
def indent (level : Nat) : String := String.ofList (List.replicate (4 * level) ' ')

/-- Parts on lines of their own, each indented by the level and followed by a
comma. -/
def lines (level : Nat) (parts : List String) : String :=
  String.join (parts.map fun part => indent level ++ part ++ ",\n")

/-- A field with its label. -/
def field (label value : String) : String := label ++ ": " ++ value

/-- A node at a level, with its name and at least one field. -/
def node (style : Style) (level : Nat) (name : String) (fields : List String) : String :=
  match style with
  | .compact => name ++ " \x7b " ++ String.intercalate ", " fields ++ " \x7d"
  | .indented => name ++ " \x7b\n" ++ lines (level + 1) fields ++ indent level ++ "\x7d"

/-- A list at a level. -/
def list (style : Style) (level : Nat) (items : List String) : String :=
  match style, items with
  | _, [] => "[]"
  | .compact, items => "[" ++ String.intercalate ", " items ++ "]"
  | .indented, items => "[\n" ++ lines (level + 1) items ++ indent level ++ "]"

end Outline

namespace Expr

open Outline

mutual

/-- The outline of an expression at a level. -/
def outline (style : Style) (level : Nat) : Expr → String
  | .integer value => node style level "Integer" [field "value" (Numeral.render value)]
  | .var name => node style level "Var" [field "name" (Text.quote name)]
  | .call callee args =>
      node style level "Call"
        [field "callee" (Text.quote callee),
          field "args" (list style (level + 1) (outlines style (level + 2) args))]

/-- The outlines of several expressions at a level. -/
def outlines (style : Style) (level : Nat) : List Expr → List String
  | [] => []
  | expr :: rest => outline style level expr :: outlines style level rest

end

end Expr

namespace Definition

open Outline

/-- The outline of a definition. -/
def outline (style : Style) (definition : Definition) : String :=
  node style 0 "Definition"
    [field "name" (Text.quote definition.name),
      field "params" (list style 1 (definition.params.map Text.quote)),
      field "body" (definition.body.outline style 1)]

end Definition

end DefLang
