import DefLang.Outline
import DefLang.Proofs.QuotedText
import DefLang.Proofs.UnambiguousScript

/-!
# An outline shows the tree that it was made from

No two trees have the same outline, in either style and whichever characters are
shown in their names. An outline is read from the left. Its first letter tells
the constructor, a quoted name tells where it ends, and after an item of a list
comes either a separator or what closes the list. Indented items have more
spaces before them than the bracket that closes their list.
-/
namespace DefLang

open Text

namespace Outline

/-- What stands before the first part of a node or of a list. -/
def opening (style : Style) (level : Nat) (pad : List Char) : List Char :=
  match style with
  | .compact => pad
  | .indented => '\n' :: (indent (level + 1)).toList

/-- What stands after the last part of a node or of a list. -/
def closing (style : Style) (level : Nat) (pad : List Char) : List Char :=
  match style with
  | .compact => pad
  | .indented => ',' :: '\n' :: (indent level).toList

/-- The parts after the first, the end of the node or list, and what follows it. -/
def afterPart (style : Style) (level : Nat) (pad : List Char) (bracket : Char)
    (parts : List String) (rest : List Char) : List Char :=
  parts.flatMap (fun part => ',' :: (opening style level [' '] ++ part.toList)) ++
    (closing style level pad ++ bracket :: rest)

section AfterPart

variable (style : Style) (level : Nat) (pad : List Char) (bracket : Char) (rest : List Char)

theorem afterPart_nil : afterPart style level pad bracket [] rest =
    closing style level pad ++ bracket :: rest :=
  rfl

theorem afterPart_cons (part : String) (parts : List String) :
    afterPart style level pad bracket (part :: parts) rest =
      ',' :: (opening style level [' '] ++
        (part.toList ++ afterPart style level pad bracket parts rest)) := by
  simp [afterPart]

end AfterPart

theorem field_append (label value : String) (rest : List Char) :
    (field label value).toList ++ rest =
      label.toList ++ (": ".toList ++ (value.toList ++ rest)) := by
  simp [field]

theorem toList_indent (level : Nat) : (indent level).toList = List.replicate (4 * level) ' ' := by
  rw [indent, String.toList_ofList]

theorem toList_intercalate_cons (part : String) (parts : List String) :
    (String.intercalate ", " (part :: parts)).toList =
      part.toList ++ parts.flatMap fun next => ',' :: ' ' :: next.toList := by
  induction parts generalizing part with
  | nil => simp
  | cons next parts inductionHypothesis =>
      rw [String.intercalate_cons_cons, String.toList_append, inductionHypothesis]
      simp

theorem lines_cons (level : Nat) (part : String) (parts : List String) :
    lines level (part :: parts) = indent level ++ part ++ ",\n" ++ lines level parts := by
  simp [lines, String.join_cons]

/-- On lines of their own, parts also stand between an opening and a closing. -/
theorem newline_lines_append (level : Nat) (pad : List Char) (part : String)
    (parts : List String) (bracket : Char) (rest : List Char) :
    '\n' :: ((lines (level + 1) (part :: parts)).toList ++
        ((indent level).toList ++ bracket :: rest)) =
      opening .indented level pad ++
        (part.toList ++ afterPart .indented level pad bracket parts rest) := by
  induction parts generalizing part with
  | nil => simp [lines, opening, closing, afterPart]
  | cons next parts inductionHypothesis =>
      rw [lines_cons, afterPart_cons]
      change _ = _ ++ (_ ++ ',' :: (opening .indented level pad ++ _))
      rw [← inductionHypothesis next]
      simp [opening]

theorem node_append (style : Style) (level : Nat) (name part : String) (parts : List String)
    (rest : List Char) :
    (node style level name (part :: parts)).toList ++ rest =
      name.toList ++ (" \x7b".toList ++ (opening style level [' '] ++
        (part.toList ++ afterPart style level [' '] '\x7d' parts rest))) := by
  cases style with
  | compact =>
      simp only [node, String.toList_append, toList_intercalate_cons]
      simp [opening, closing, afterPart]
  | indented =>
      rw [← newline_lines_append]
      simp [node]

theorem list_nil_append (style : Style) (level : Nat) (rest : List Char) :
    (list style level []).toList ++ rest = '[' :: ']' :: rest := by
  cases style <;> simp [list]

theorem list_append (style : Style) (level : Nat) (part : String) (parts : List String)
    (rest : List Char) :
    (list style level (part :: parts)).toList ++ rest =
      '[' :: (opening style level [] ++
        (part.toList ++ afterPart style level [] ']' parts rest)) := by
  cases style with
  | compact =>
      simp only [list, String.toList_append, toList_intercalate_cons]
      simp [opening, closing, afterPart]
  | indented =>
      rw [← newline_lines_append]
      simp [list]

section Lists

variable (style : Style) (level : Nat)

theorem endsAtom_closing (rest : List Char) :
    Script.EndsAtom (closing style level [' '] ++ rest) := by
  cases style <;> exact Script.endsAtom_cons (by decide)

/-- A further item is told from the end of its list. -/
theorem separator_ne_closing (rest otherRest : List Char) :
    ',' :: (opening style level [' '] ++ rest) ≠ closing style level [] ++ ']' :: otherRest := by
  cases style with
  | compact => simp [closing]
  | indented =>
      intro same
      simp only [opening, closing, toList_indent, Nat.mul_succ, List.replicate_add,
        List.cons_append, List.append_assoc, List.cons.injEq, true_and] at same
      have spaces := List.append_cancel_left same
      simp [List.replicate_succ] at spaces

variable {Value : Type} {textOf : Value → String}

theorem afterPart_append_inj (items others : List Value) {rest otherRest : List Char}
    (delimited : ∀ item ∈ items, Delimited (fun item => (textOf item).toList) item)
    (same : afterPart style level [] ']' (items.map textOf) rest =
      afterPart style level [] ']' (others.map textOf) otherRest) :
    items = others ∧ rest = otherRest := by
  induction items generalizing others with
  | nil =>
      cases others with
      | nil => exact ⟨rfl, (List.cons.inj (List.append_cancel_left same)).2⟩
      | cons other others =>
          rw [List.map_cons, afterPart_cons] at same
          exact absurd same.symm (separator_ne_closing style level _ _)
  | cons item items inductionHypothesis =>
      obtain ⟨itemDelimited, itemsDelimited⟩ := List.forall_mem_cons.mp delimited
      rw [List.map_cons, afterPart_cons] at same
      cases others with
      | nil => exact absurd same (separator_ne_closing style level _ _)
      | cons other others =>
          rw [List.map_cons, afterPart_cons] at same
          obtain ⟨rfl, sameAfter⟩ :=
            itemDelimited (List.append_cancel_left (List.cons.inj same).2)
          obtain ⟨rfl, sameRest⟩ := inductionHypothesis others itemsDelimited sameAfter
          exact ⟨rfl, sameRest⟩

/-- A list without items is told from one that has some. -/
theorem list_nil_append_ne_cons {item : String} {items : List String} {rest otherRest : List Char}
    (noBracket : ∀ later, item.toList ++ later ≠ ']' :: rest) :
    (list style level []).toList ++ rest ≠
      (list style level (item :: items)).toList ++ otherRest := by
  intro same
  rw [list_append, list_nil_append] at same
  have afterBracket := (List.cons.inj same).2
  cases style with
  | compact => exact noBracket _ afterBracket.symm
  | indented => simp [opening] at afterBracket

/-- A list of items is read off its text when each item is and none could be taken
for the closing bracket. -/
theorem delimited_list (items : List Value)
    (delimited : ∀ item ∈ items, Delimited (fun item => (textOf item).toList) item)
    (noBracket : ∀ item rest later, (textOf item).toList ++ later ≠ ']' :: rest) :
    Delimited (fun items => (list style level (items.map textOf)).toList) items := by
  intro others rest otherRest same
  cases items with
  | nil =>
      cases others with
      | nil => exact ⟨rfl, List.append_cancel_left same⟩
      | cons other others =>
          exact absurd same (list_nil_append_ne_cons style level (noBracket other _))
  | cons item items =>
      cases others with
      | nil => exact absurd same.symm (list_nil_append_ne_cons style level (noBracket item _))
      | cons other others =>
          obtain ⟨itemDelimited, itemsDelimited⟩ := List.forall_mem_cons.mp delimited
          simp only [List.map_cons, list_append, List.cons.injEq, true_and] at same
          obtain ⟨rfl, sameAfter⟩ := itemDelimited (List.append_cancel_left same)
          obtain ⟨rfl, sameRest⟩ :=
            afterPart_append_inj style level items others itemsDelimited sameAfter
          exact ⟨rfl, sameRest⟩

end Lists

end Outline

namespace Expr

open Outline

mutual

/-- The outline of an expression at a level, when some characters are shown. -/
def outlineWith (isShown : Char → Bool) (style : Style) (level : Nat) : Expr → String
  | .integer value => node style level "Integer" [field "value" (Numeral.render value)]
  | .var name => node style level "Var" [field "name" (quoteWith isShown name)]
  | .call callee args =>
      node style level "Call"
        [field "callee" (quoteWith isShown callee),
          field "args" (list style (level + 1) (outlinesWith isShown style (level + 2) args))]

def outlinesWith (isShown : Char → Bool) (style : Style) (level : Nat) : List Expr → List String
  | [] => []
  | expr :: rest =>
      outlineWith isShown style level expr :: outlinesWith isShown style level rest

end

mutual

theorem outlineWith_isVisible (style : Style) (level : Nat) (expr : Expr) :
    expr.outlineWith isVisible style level = expr.outline style level := by
  cases expr with
  | integer value => rfl
  | var name => rw [outlineWith, outline, quoteWith_isVisible]
  | call callee args =>
      rw [outlineWith, outline, quoteWith_isVisible, outlinesWith_isVisible]

theorem outlinesWith_isVisible (style : Style) (level : Nat) (args : List Expr) :
    outlinesWith isVisible style level args = outlines style level args := by
  cases args with
  | nil => rfl
  | cons arg rest =>
      rw [outlinesWith, outlines, outlineWith_isVisible, outlinesWith_isVisible]

end

section Reading

variable (isShown : Char → Bool) (style : Style)

theorem outlinesWith_eq_map (level : Nat) (args : List Expr) :
    outlinesWith isShown style level args = args.map (outlineWith isShown style level) := by
  induction args with
  | nil => rfl
  | cons arg rest inductionHypothesis =>
      rw [outlinesWith, inductionHypothesis, List.map_cons]

/-- The name of its constructor, with which an outline starts. -/
def nodeName : Expr → String
  | .integer _ => "Integer"
  | .var _ => "Var"
  | .call _ _ => "Call"

theorem exists_outlineWith_append (level : Nat) (expr : Expr) (rest : List Char) :
    ∃ later, (expr.outlineWith isShown style level).toList ++ rest =
      expr.nodeName.toList ++ ' ' :: later := by
  cases expr <;> exact ⟨_, node_append style level _ _ _ rest⟩

theorem outlineWith_append_ne_bracket (level : Nat) (expr : Expr) (rest later : List Char) :
    (expr.outlineWith isShown style level).toList ++ later ≠ ']' :: rest := by
  obtain ⟨fields, shown⟩ := exists_outlineWith_append isShown style level expr later
  rw [shown]
  cases expr <;> simp [nodeName]

theorem nodeName_eq_of_append_eq {level : Nat} {first second : Expr} {rest otherRest : List Char}
    (same : (first.outlineWith isShown style level).toList ++ rest =
      (second.outlineWith isShown style level).toList ++ otherRest) :
    first.nodeName = second.nodeName := by
  have noSpace (expr : Expr) : ' ' ∉ expr.nodeName.toList := by
    cases expr <;> simp [nodeName]
  obtain ⟨fields, shown⟩ := exists_outlineWith_append isShown style level first rest
  obtain ⟨otherFields, otherShown⟩ :=
    exists_outlineWith_append isShown style level second otherRest
  rw [shown, otherShown] at same
  exact String.toList_inj.mp (append_cons_inj (noSpace first) (noSpace second) same).1

mutual

/-- An expression and what follows its outline are read off the text. -/
theorem delimited_outlineWith (level : Nat) (expr : Expr) :
    Delimited (fun expr => (outlineWith isShown style level expr).toList) expr := by
  intro other rest otherRest same
  have sameNode := nodeName_eq_of_append_eq isShown style same
  cases expr with
  | integer value =>
      cases other with
      | integer otherValue =>
          simp only [outlineWith, node_append, field_append, afterPart_nil,
            List.append_cancel_left_eq] at same
          obtain ⟨sameNumeral, sameRest⟩ := Script.atom_append_inj (Script.isAtom_numeral value)
            (Script.isAtom_numeral otherValue) (endsAtom_closing style level _)
            (endsAtom_closing style level _) same
          have sameValue := Script.numeral_injective (String.toList_inj.mp sameNumeral)
          exact ⟨by rw [sameValue], (List.cons.inj (List.append_cancel_left sameRest)).2⟩
      | var | call => simp [nodeName] at sameNode
  | var name =>
      cases other with
      | var otherName =>
          simp only [outlineWith, node_append, field_append, afterPart_nil,
            List.append_cancel_left_eq] at same
          obtain ⟨rfl, sameRest⟩ := delimited_quoteWith isShown name same
          exact ⟨rfl, (List.cons.inj (List.append_cancel_left sameRest)).2⟩
      | integer | call => simp [nodeName] at sameNode
  | call callee args =>
      cases other with
      | call otherCallee otherArgs =>
          simp only [outlineWith, node_append, field_append, afterPart_cons, afterPart_nil,
            outlinesWith_eq_map, List.append_cancel_left_eq] at same
          obtain ⟨rfl, afterCallee⟩ := delimited_quoteWith isShown callee same
          simp only [List.cons.injEq, true_and, List.append_cancel_left_eq] at afterCallee
          obtain ⟨rfl, sameRest⟩ := delimited_list style (level + 1) args
            (delimited_outlinesWith (level + 2) args)
            (outlineWith_append_ne_bracket isShown style (level + 2)) afterCallee
          exact ⟨rfl, (List.cons.inj (List.append_cancel_left sameRest)).2⟩
      | integer | var => simp [nodeName] at sameNode

theorem delimited_outlinesWith (level : Nat) (args : List Expr) :
    ∀ arg ∈ args, Delimited (fun expr => (outlineWith isShown style level expr).toList) arg := by
  cases args with
  | nil => simp
  | cons arg rest =>
      exact List.forall_mem_cons.mpr
        ⟨delimited_outlineWith level arg, delimited_outlinesWith level rest⟩

end

theorem outlineWith_injective (level : Nat) :
    Function.Injective (outlineWith isShown style level) := by
  intro first second same
  exact (delimited_outlineWith isShown style level first
    (congrArg (fun text => text.toList ++ []) same)).1

end Reading

end Expr

namespace Definition

open Outline

/-- The outline of a definition, when some characters are shown. -/
def outlineWith (isShown : Char → Bool) (style : Style) (tree : Definition) : String :=
  node style 0 "Definition"
    [field "name" (quoteWith isShown tree.name),
      field "params" (list style 1 (tree.params.map (quoteWith isShown))),
      field "body" (tree.body.outlineWith isShown style 1)]

theorem outlineWith_isVisible (style : Style) (tree : Definition) :
    tree.outlineWith isVisible style = tree.outline style := by
  rw [outlineWith, outline, quoteWith_isVisible, Expr.outlineWith_isVisible]

theorem outlineWith_injective (isShown : Char → Bool) (style : Style) :
    Function.Injective (outlineWith isShown style) := by
  rintro ⟨name, params, body⟩ ⟨otherName, otherParams, otherBody⟩ same
  have sameText := congrArg (fun text => text.toList ++ []) same
  simp only [outlineWith, node_append, field_append, afterPart_cons, afterPart_nil,
    List.append_cancel_left_eq] at sameText
  obtain ⟨rfl, afterName⟩ := delimited_quoteWith isShown name sameText
  simp only [List.cons.injEq, true_and, List.append_cancel_left_eq] at afterName
  obtain ⟨rfl, afterParams⟩ := delimited_list style 1 params
    (fun param _ => delimited_quoteWith isShown param)
    (fun param rest later => by simp [quoteWith]) afterName
  simp only [List.cons.injEq, true_and, List.append_cancel_left_eq] at afterParams
  obtain ⟨rfl, -⟩ := body.delimited_outlineWith isShown style 1 afterParams
  rfl

end Definition

end DefLang
