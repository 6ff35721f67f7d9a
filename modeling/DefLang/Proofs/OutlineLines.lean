import DefLang.Proofs.CommandOutcome
import DefLang.Proofs.OutlineReading
import Mathlib.Data.List.Forall2

/-!
# The lines of an indented outline

Every line feed of an indented outline was put there to lay it out. The lines are
given here with their levels and contents, and no content has a line feed or
starts with a space, since names are quoted and numerals have neither. Hence the
names in a tree have no influence on how many lines there are and how far each
is indented.
-/
namespace DefLang

open Text

namespace Outline

/-- A line of an outline, by its level and what stands after the indentation. -/
structure Line where
  level : Nat
  content : String
deriving DecidableEq, Repr

def Line.text (line : Line) : List Char := (indent line.level).toList ++ line.content.toList

/-- The text does not break a line and does not add to the indentation. -/
def Plain (text : String) : Prop := '\n' ∉ text.toList ∧ text.toList.head? ≠ some ' '

instance (text : String) : Decidable (Plain text) := inferInstanceAs (Decidable (_ ∧ _))

/-- A text at a level comes out as these lines, each after a line feed. -/
def Spreads (level : Nat) (text : String) (lines : List Line) : Prop :=
  '\n' :: ((indent level).toList ++ text.toList) = lines.flatMap fun line => '\n' :: line.text

/-- A part that is on one line, with its comma. -/
def partLine (level : Nat) (part : String) : List Line := [⟨level, part ++ ","⟩]

/-- The lines of several parts, one level deeper than the two lines around them. -/
def block (level : Nat) (opener : String) (parts : List (List Line)) (closer : String) :
    List Line :=
  ⟨level, opener⟩ :: (parts.flatten ++ [⟨level, closer⟩])

/-- The lines of a node whose fields have these lines, with a label before it and a
suffix after it. -/
def nodeBlock (level : Nat) (label name : String) (fields : List (List Line))
    (suffix : String) : List Line :=
  block level (label ++ (name ++ " \x7b")) fields ("\x7d" ++ suffix)

/-- The lines of a list whose items have these lines, with a label before it and a
suffix after it. -/
def listBlock (level : Nat) (label : String) (items : List (List Line)) (suffix : String) :
    List Line :=
  match items with
  | [] => [⟨level, label ++ "[]" ++ suffix⟩]
  | items => block level (label ++ "[") items ("]" ++ suffix)

section Plain

variable {text label suffix : String}

theorem Plain.append (plain : Plain label) (later : Plain text) : Plain (label ++ text) := by
  obtain ⟨oneLine, flush⟩ := plain
  obtain ⟨laterOneLine, laterFlush⟩ := later
  refine ⟨by simp [oneLine, laterOneLine], ?_⟩
  rw [String.toList_append, List.head?_append]
  cases starts : label.toList.head? with
  | none => exact laterFlush
  | some first => simpa [starts] using flush

theorem plain_quoteWith (isShown : Char → Bool) (name : String) :
    Plain (quoteWith isShown name) :=
  ⟨newline_notMem_quoteWith isShown name, by simp [quoteWith]⟩

theorem plain_numeral (value : Int64) : Plain (Numeral.render value) := by
  have atom := Script.isAtom_numeral value
  refine ⟨atom.newline_notMem, fun starts => ?_⟩
  exact absurd (atom.2 ' ' (List.mem_of_head? starts)) (by decide)

theorem Plain.field (labelled : Plain label) (plain : Plain text) : Plain (field label text) :=
  (labelled.append (by decide : Plain ": ")).append plain

theorem plain_partLine (level : Nat) (plain : Plain text) :
    ∀ line ∈ partLine level text, Plain line.content := by
  simpa [partLine] using plain.append (by decide : Plain ",")

theorem plain_block {level : Nat} {opener closer : String} {parts : List (List Line)}
    (opened : Plain opener) (closed : Plain closer)
    (plain : ∀ part ∈ parts, ∀ line ∈ part, Plain line.content) :
    ∀ line ∈ block level opener parts closer, Plain line.content := by
  simp only [block, List.forall_mem_cons, List.forall_mem_append, List.mem_flatten]
  refine ⟨opened, ?_, closed, by simp⟩
  rintro line ⟨part, isPart, inPart⟩
  exact plain part isPart line inPart

theorem plain_nodeBlock {level : Nat} {name : String} {fields : List (List Line)}
    (labelled : Plain label) (named : Plain (name ++ " \x7b")) (ended : Plain suffix)
    (plain : ∀ lines ∈ fields, ∀ line ∈ lines, Plain line.content) :
    ∀ line ∈ nodeBlock level label name fields suffix, Plain line.content :=
  plain_block (labelled.append named) (Plain.append (by decide) ended) plain

theorem plain_listBlock (level : Nat) {items : List (List Line)} (labelled : Plain label)
    (ended : Plain suffix) (plain : ∀ item ∈ items, ∀ line ∈ item, Plain line.content) :
    ∀ line ∈ listBlock level label items suffix, Plain line.content := by
  cases items with
  | nil =>
      have whole := (labelled.append (by decide : Plain "[]")).append ended
      simpa [listBlock] using whole
  | cons item items =>
      exact plain_block (labelled.append (by decide)) (Plain.append (by decide) ended) plain

end Plain

section Spreads

variable {level : Nat} {parts : List String} {partLines : List (List Line)}

theorem spreads_single (level : Nat) (content : String) :
    Spreads level content [⟨level, content⟩] := by
  simp [Spreads, Line.text]

theorem spreads_partLine (level : Nat) (part : String) :
    Spreads level (part ++ ",") (partLine level part) :=
  spreads_single level _

/-- Parts have their own lines when each of them does with its comma. -/
abbrev PartsSpread (level : Nat) : List String → List (List Line) → Prop :=
  List.Forall₂ fun part lines => Spreads level (part ++ ",") lines

theorem PartsSpread.newline_lines (spread : PartsSpread level parts partLines) :
    '\n' :: (lines level parts).toList =
      (partLines.flatten.flatMap fun line => '\n' :: line.text) ++ ['\n'] := by
  induction spread with
  | nil => rfl
  | @cons part lines parts partLines first later inductionHypothesis =>
      -- The line feed after a part is the one before the next.
      rw [List.flatten_cons, List.flatMap_append, ← first, List.append_assoc,
        ← inductionHypothesis, lines_cons]
      simp

theorem PartsSpread.enclosed (spread : PartsSpread (level + 1) parts partLines)
    (opener closer : String) :
    Spreads level (opener ++ "\n" ++ lines (level + 1) parts ++ indent level ++ closer)
      (block level opener partLines closer) := by
  have inner := spread.newline_lines
  simp only [Spreads, block, List.flatMap_cons, List.flatMap_append, List.flatMap_nil,
    List.append_nil]
  rw [List.append_cons (partLines.flatten.flatMap _), ← inner]
  simp [Line.text]

theorem PartsSpread.node (spread : PartsSpread (level + 1) parts partLines)
    (label name suffix : String) :
    Spreads level (label ++ node .indented level name parts ++ suffix)
      (nodeBlock level label name partLines suffix) := by
  have enclosed := spread.enclosed (label ++ (name ++ " \x7b")) ("\x7d" ++ suffix)
  simpa [Spreads, nodeBlock, Outline.node] using enclosed

theorem PartsSpread.list (spread : PartsSpread (level + 1) parts partLines)
    (label suffix : String) :
    Spreads level (label ++ list .indented level parts ++ suffix)
      (listBlock level label partLines suffix) := by
  have enclosed := spread.enclosed (label ++ "[") ("]" ++ suffix)
  cases spread with
  | nil => exact spreads_single level _
  | cons first later => simpa [Spreads, listBlock, Outline.list] using enclosed

theorem splitOn_newline (first : Line) (later : List Line)
    (oneLine : ∀ line ∈ first :: later, '\n' ∉ line.text) :
    (first.text ++ later.flatMap fun line => '\n' :: line.text).splitOn '\n' =
      (first :: later).map Line.text := by
  induction later generalizing first with
  | nil =>
      rw [List.flatMap_nil, List.append_nil, List.splitOn_eq_singleton (oneLine first (by simp))]
      rfl
  | cons next later inductionHypothesis =>
      obtain ⟨notFirst, notLater⟩ := List.forall_mem_cons.mp oneLine
      rw [List.flatMap_cons, List.cons_append,
        List.splitOn_append_cons_self_of_not_mem notFirst, inductionHypothesis next notLater]
      rfl

/-- The lines of a text are those that it comes out as. -/
theorem Spreads.splitOn {text : String} {lines : List Line} (spread : Spreads 0 text lines)
    (plain : ∀ line ∈ lines, Plain line.content) :
    text.toList.splitOn '\n' = lines.map Line.text := by
  have oneLine : ∀ line ∈ lines, '\n' ∉ line.text := fun line member => by
    simp [Line.text, toList_indent, (plain line member).1]
  cases lines with
  | nil => simp [Spreads] at spread
  | cons first later =>
      rw [Spreads, List.flatMap_cons, List.cons_append, List.cons.injEq] at spread
      rw [← splitOn_newline first later oneLine, ← spread.2]
      rfl

end Spreads

/-- How many spaces each line of a text starts with. -/
def indentation (text : String) : List Nat :=
  (text.toList.splitOn '\n').map fun line => (line.takeWhile (· == ' ')).length

theorem Line.indentation_text {line : Line} (plain : Plain line.content) :
    (line.text.takeWhile (· == ' ')).length = 4 * line.level := by
  have stops : line.content.toList.takeWhile (· == ' ') = [] := by
    have flush := plain.2
    cases content : line.content.toList with
    | nil => rfl
    | cons first later =>
        rw [content] at flush
        simpa using flush
  have spaces : ∀ character ∈ List.replicate (4 * line.level) ' ', (character == ' ') = true := by
    simp
  rw [Line.text, toList_indent, List.takeWhile_append_of_pos spaces, stops, List.append_nil,
    List.length_replicate]

/-- A text has these lines, each indented by its level and by nothing else. -/
structure LaidOutAs (text : String) (lines : List Line) : Prop where
  splitOn : text.toList.splitOn '\n' = lines.map Line.text
  plain : ∀ line ∈ lines, Plain line.content
  indentation : indentation text = (lines.map Line.level).map (4 * ·)

theorem Spreads.laidOutAs {text : String} {lines : List Line} (spread : Spreads 0 text lines)
    (plain : ∀ line ∈ lines, Plain line.content) : LaidOutAs text lines := by
  refine ⟨spread.splitOn plain, plain, ?_⟩
  rw [Outline.indentation, spread.splitOn plain, List.map_map, List.map_map]
  exact List.map_congr_left fun line member => Line.indentation_text (plain line member)

section Levels

variable (level : Nat) {parts others : List (List Line)}

@[simp] theorem map_level_partLine (part : String) :
    (partLine level part).map Line.level = [level] :=
  rfl

theorem map_level_block (opener closer : String) :
    (block level opener parts closer).map Line.level =
      level :: ((parts.map (List.map Line.level)).flatten ++ [level]) := by
  simp [block, List.map_flatten]

theorem map_level_listBlock_congr (label suffix : String)
    (same : parts.map (List.map Line.level) = others.map (List.map Line.level)) :
    (listBlock level label parts suffix).map Line.level =
      (listBlock level label others suffix).map Line.level := by
  cases parts <;> cases others
  · rfl
  · simp at same
  · simp at same
  · simp only [listBlock, map_level_block, same]

end Levels

end Outline

namespace Expr

open Outline

mutual

/-- The lines of an expression whose outline stands after a label and before a
suffix. -/
def layout (isShown : Char → Bool) (level : Nat) (label : String) (expr : Expr)
    (suffix : String) : List Line :=
  match expr with
  | .integer value =>
      nodeBlock level label "Integer"
        [partLine (level + 1) (field "value" (Numeral.render value))] suffix
  | .var name =>
      nodeBlock level label "Var"
        [partLine (level + 1) (field "name" (quoteWith isShown name))] suffix
  | .call callee args =>
      nodeBlock level label "Call"
        [partLine (level + 1) (field "callee" (quoteWith isShown callee)),
          listBlock (level + 1) "args: " (layouts isShown (level + 2) args) ","] suffix

/-- The lines of each of several expressions, with a comma after it. -/
def layouts (isShown : Char → Bool) (level : Nat) : List Expr → List (List Line)
  | [] => []
  | arg :: rest => layout isShown level "" arg "," :: layouts isShown level rest

end

mutual

/-- The expression with other names in it. -/
def rename (change : String → String) : Expr → Expr
  | .integer value => .integer value
  | .var name => .var (change name)
  | .call callee args => .call (change callee) (renameAll change args)

def renameAll (change : String → String) : List Expr → List Expr
  | [] => []
  | arg :: rest => rename change arg :: renameAll change rest

end

section Layout

variable (isShown : Char → Bool)

mutual

theorem spreads_layout (level : Nat) (label : String) (expr : Expr) (suffix : String) :
    Spreads level (label ++ expr.outlineWith isShown .indented level ++ suffix)
      (expr.layout isShown level label suffix) := by
  cases expr with
  | integer value =>
      rw [outlineWith, layout]
      exact PartsSpread.node (.cons (spreads_partLine _ _) .nil) label "Integer" suffix
  | var name =>
      rw [outlineWith, layout]
      exact PartsSpread.node (.cons (spreads_partLine _ _) .nil) label "Var" suffix
  | call callee args =>
      have spread := (partsSpread_layouts (level + 2) args).list "args: " ","
      rw [outlineWith, layout]
      exact PartsSpread.node (.cons (spreads_partLine _ _) (.cons spread .nil)) label "Call" suffix

theorem partsSpread_layouts (level : Nat) (args : List Expr) :
    PartsSpread level (outlinesWith isShown .indented level args)
      (layouts isShown level args) := by
  cases args with
  | nil => exact .nil
  | cons arg rest =>
      have first := spreads_layout level "" arg ","
      rw [outlinesWith, layouts]
      exact .cons (by simpa using first) (partsSpread_layouts level rest)

end

mutual

theorem plain_layout (level : Nat) (expr : Expr) {label suffix : String} (labelled : Plain label)
    (ended : Plain suffix) :
    ∀ line ∈ expr.layout isShown level label suffix, Plain line.content := by
  cases expr with
  | integer value =>
      have plain := (by decide : Plain "value").field (plain_numeral value)
      rw [layout]
      refine plain_nodeBlock labelled (by decide) ended (List.forall_mem_singleton.mpr ?_)
      exact plain_partLine _ plain
  | var name =>
      have plain := (by decide : Plain "name").field (plain_quoteWith isShown name)
      rw [layout]
      refine plain_nodeBlock labelled (by decide) ended (List.forall_mem_singleton.mpr ?_)
      exact plain_partLine _ plain
  | call callee args =>
      have plain := (by decide : Plain "callee").field (plain_quoteWith isShown callee)
      have plainArgs := plain_listBlock (level + 1) (by decide : Plain "args: ")
        (by decide : Plain ",") (plain_layouts (level + 2) args)
      rw [layout]
      refine plain_nodeBlock labelled (by decide) ended ?_
      simp only [List.forall_mem_cons]
      exact ⟨plain_partLine _ plain, plainArgs, by simp⟩

theorem plain_layouts (level : Nat) (args : List Expr) :
    ∀ lines ∈ layouts isShown level args, ∀ line ∈ lines, Plain line.content := by
  cases args with
  | nil => simp [layouts]
  | cons arg rest =>
      rw [layouts]
      exact List.forall_mem_cons.mpr
        ⟨plain_layout level arg (by decide) (by decide), plain_layouts level rest⟩

end

mutual

theorem map_level_layout_rename (change : String → String) (level : Nat) (expr : Expr)
    (label suffix : String) :
    ((expr.rename change).layout isShown level label suffix).map Line.level =
      (expr.layout isShown level label suffix).map Line.level := by
  cases expr with
  | integer value => rfl
  | var name => simp [rename, layout, nodeBlock, map_level_block]
  | call callee args =>
      have sameArgs := map_level_listBlock_congr (level + 1) "args: " ","
        (map_level_layouts_rename change (level + 2) args)
      simp [rename, layout, nodeBlock, map_level_block, sameArgs]

theorem map_level_layouts_rename (change : String → String) (level : Nat) (args : List Expr) :
    (layouts isShown level (renameAll change args)).map (List.map Line.level) =
      (layouts isShown level args).map (List.map Line.level) := by
  cases args with
  | nil => rfl
  | cons arg rest =>
      rw [renameAll, layouts, layouts, List.map_cons, List.map_cons,
        map_level_layout_rename change level arg, map_level_layouts_rename change level rest]

end

theorem laidOutAs (expr : Expr) :
    LaidOutAs (expr.outlineWith isShown .indented 0) (expr.layout isShown 0 "" "") := by
  have spread := expr.spreads_layout isShown 0 "" ""
  rw [String.empty_append, String.append_empty] at spread
  exact spread.laidOutAs (expr.plain_layout isShown 0 (by decide) (by decide))

end Layout

end Expr

namespace Definition

open Outline

def paramLines (isShown : Char → Bool) (params : List String) : List (List Line) :=
  params.map fun param => partLine 2 (quoteWith isShown param)

/-- The lines of the outline of a definition. -/
def layout (isShown : Char → Bool) (tree : Definition) : List Line :=
  nodeBlock 0 "" "Definition"
    [partLine 1 (field "name" (quoteWith isShown tree.name)),
      listBlock 1 "params: " (paramLines isShown tree.params) ",",
      tree.body.layout isShown 1 "body: " ","] ""

/-- The definition with other names in it. -/
def rename (change : String → String) (tree : Definition) : Definition :=
  ⟨change tree.name, tree.params.map change, tree.body.rename change⟩

section Layout

variable (isShown : Char → Bool) (tree : Definition)

theorem partsSpread_paramLines (params : List String) :
    PartsSpread 2 (params.map (quoteWith isShown)) (paramLines isShown params) := by
  rw [PartsSpread, paramLines, List.forall₂_map_left_iff, List.forall₂_map_right_iff]
  exact List.forall₂_same.mpr fun param _ => spreads_partLine _ _

theorem spreads_layout :
    Spreads 0 (tree.outlineWith isShown .indented) (tree.layout isShown) := by
  have params := (partsSpread_paramLines isShown tree.params).list "params: " ","
  have body := tree.body.spreads_layout isShown 1 "body: " ","
  have spread : PartsSpread 1
      [field "name" (quoteWith isShown tree.name),
        field "params" (list .indented 1 (tree.params.map (quoteWith isShown))),
        field "body" (tree.body.outlineWith isShown .indented 1)] _ :=
    .cons (spreads_partLine _ _) (.cons params (.cons body .nil))
  simpa [outlineWith, layout] using spread.node "" "Definition" ""

theorem plain_layout : ∀ line ∈ tree.layout isShown, Plain line.content := by
  have comma : Plain "," := by decide
  have plainName := (by decide : Plain "name").field (plain_quoteWith isShown tree.name)
  have plainParams : ∀ lines ∈ paramLines isShown tree.params, ∀ line ∈ lines,
      Plain line.content :=
    List.forall_mem_map.mpr fun param _ => plain_partLine 2 (plain_quoteWith isShown param)
  refine plain_nodeBlock (by decide) (by decide) (by decide) ?_
  simp only [List.forall_mem_cons]
  exact ⟨plain_partLine 1 plainName, plain_listBlock 1 (by decide) comma plainParams,
    tree.body.plain_layout isShown 1 (by decide) comma, by simp⟩

theorem map_level_layout_rename (change : String → String) :
    ((tree.rename change).layout isShown).map Line.level =
      (tree.layout isShown).map Line.level := by
  have sameParams : (paramLines isShown (tree.params.map change)).map (List.map Line.level) =
      (paramLines isShown tree.params).map (List.map Line.level) := by
    simp [paramLines]
  simp only [rename, layout, nodeBlock, map_level_block, List.map_cons, map_level_partLine,
    map_level_listBlock_congr 1 "params: " "," sameParams, Expr.map_level_layout_rename]

theorem laidOutAs : LaidOutAs (tree.outlineWith isShown .indented) (tree.layout isShown) :=
  (tree.spreads_layout isShown).laidOutAs (tree.plain_layout isShown)

end Layout

end Definition

namespace Command

open Outline

theorem Stage.run_outline_eq_ok_iff {source output : String} :
    Stage.outline.run source = .ok output ↔
      ∃ tree, readDefinition source = .ok tree ∧ tree.outline .indented = output := by
  rw [Stage.run, readDefinition]
  cases tokenize source with
  | error found => simp
  | ok tokens =>
      cases parsed : parse source tokens <;> simp [parsed]

/-- Whichever characters are shown, a tree is known from its outline in either style.
An indented outline has the lines of its layout and no others, and they are indented
as they are with any other names in the tree. Sources with the same outline compile
to the same program. -/
theorem outline_tells_tree :
    (∀ style, (∀ tree : Definition, tree.outlineWith isVisible style = tree.outline style) ∧
      ∀ level (expr : Expr), expr.outlineWith isVisible style level = expr.outline style level) ∧
    (∀ isShown style,
      (∀ first second : Definition,
        first.outlineWith isShown style = second.outlineWith isShown style → first = second) ∧
      ∀ level (first second : Expr), first.outlineWith isShown style level =
        second.outlineWith isShown style level → first = second) ∧
    (∀ isShown change,
      (∀ tree : Definition,
        LaidOutAs (tree.outlineWith isShown .indented) (tree.layout isShown) ∧
        indentation ((tree.rename change).outlineWith isShown .indented) =
          indentation (tree.outlineWith isShown .indented)) ∧
      ∀ expr : Expr,
        LaidOutAs (expr.outlineWith isShown .indented 0) (expr.layout isShown 0 "" "") ∧
        indentation ((expr.rename change).outlineWith isShown .indented 0) =
          indentation (expr.outlineWith isShown .indented 0)) ∧
    ∀ source other output, Stage.outline.run source = .ok output →
      Stage.outline.run other = .ok output →
      ∃ script, compile source = .ok script ∧ compile other = .ok script := by
  refine ⟨fun style => ⟨?_, ?_⟩, fun isShown style => ⟨?_, ?_⟩,
    fun isShown change => ⟨?_, ?_⟩, ?_⟩
  · exact Definition.outlineWith_isVisible style
  · exact Expr.outlineWith_isVisible style
  · exact fun first second same => Definition.outlineWith_injective isShown style same
  · exact fun level first second same => Expr.outlineWith_injective isShown style level same
  · intro tree
    refine ⟨tree.laidOutAs isShown, ?_⟩
    rw [(Definition.laidOutAs isShown _).indentation, Definition.map_level_layout_rename,
      (tree.laidOutAs isShown).indentation]
  · intro expr
    refine ⟨expr.laidOutAs isShown, ?_⟩
    rw [(Expr.laidOutAs isShown _).indentation, Expr.map_level_layout_rename,
      (expr.laidOutAs isShown).indentation]
  · intro source other output shown otherShown
    obtain ⟨tree, read, rfl⟩ := Stage.run_outline_eq_ok_iff.mp shown
    obtain ⟨otherTree, otherRead, same⟩ := Stage.run_outline_eq_ok_iff.mp otherShown
    rw [← Definition.outlineWith_isVisible, ← Definition.outlineWith_isVisible] at same
    obtain rfl := Definition.outlineWith_injective isVisible .indented same
    exact ⟨_, compile_of_readDefinition read, compile_of_readDefinition otherRead⟩

/-- A tree with line feeds in its names is told by its outlines, and so are two sources
that write a numeral differently. -/
theorem outline_tells_broken_names :
    let tree : Definition :=
      ⟨"f", ["a\n    \x22"], .call "\\n" [.var "a\n    \x22", .integer (-7)]⟩
    let source := "def f(a) g(a,07) end"
    let other := "def f ( a )\n\tg(a , 7)\nend"
    let output := "Definition \x7b\n    name: \"f\",\n    params: [\n        \"a\",\n    ],\n" ++
      "    body: Call \x7b\n        callee: \"g\",\n        args: [\n            Var \x7b\n" ++
      "                name: \"a\",\n            \x7d,\n            Integer \x7b\n" ++
      "                value: 7,\n            \x7d,\n        ],\n    \x7d,\n\x7d"
    ((tree.rename id).outlineWith isVisible .indented = tree.outlineWith isVisible .indented ∧
      tree.rename id = tree) ∧
    ((tree.body.rename id).outlineWith isVisible .compact 0 =
        tree.body.outlineWith isVisible .compact 0 ∧ tree.body.rename id = tree.body) ∧
    (Stage.outline.run source = .ok output ∧ Stage.outline.run other = .ok output) ∧
      ∃ script, compile source = .ok script ∧ compile other = .ok script := by
  intro tree source other output
  have same : (tree.rename id).outlineWith isVisible .indented =
      tree.outlineWith isVisible .indented := by decide +kernel
  have sameBody : (tree.body.rename id).outlineWith isVisible .compact 0 =
      tree.body.outlineWith isVisible .compact 0 := by decide +kernel
  have shown : Stage.outline.run source = .ok output := by decide +kernel
  have otherShown : Stage.outline.run other = .ok output := by decide +kernel
  obtain ⟨-, injective, -, sameScript⟩ := outline_tells_tree
  exact ⟨⟨same, (injective isVisible .indented).1 _ _ same⟩,
    ⟨sameBody, (injective isVisible .compact).2 0 _ _ sameBody⟩, ⟨shown, otherShown⟩,
    sameScript source other output shown otherShown⟩

end Command

end DefLang
