import DefLang.Proofs.PrintableTrees

/-!
# Printing fails with the first violation

A definition is listed as it is printed: its name, its parameters, and the nodes of
its body in preorder, each with the number of calls around it. What there is to
complain about in one entry of the list does not depend on the later ones, and an
argument is listed with the same number of calls whatever stands before it. The scan
for a violation stops early, and its message is the first of all the complaints that
the list gives rise to.
-/
namespace DefLang

namespace Script

/-- What there is to say against a text in the place of a name. -/
def nameComplaints (what text : String) : List String :=
  if IsName text then [] else ["invalid " ++ what ++ " " ++ Text.quote text]

/-- What there is to say against a parameter, given its index among all of them. That it
is no name comes before that it is repeated. -/
def paramComplaints (function : String) (params : List String) :
    String × Nat → List String
  | (param, index) => nameComplaints "parameter name" param ++
      if param ∈ params.take index then
        ["duplicate parameter \"" ++ param ++ "\" in function \"" ++ function ++ "\""]
      else []

theorem message_nameViolation? (role : Role) (text : String) :
    (nameViolation? role text).map Violation.message =
      (nameComplaints role.describe text).head? := by
  rw [nameViolation?, nameComplaints]
  split <;> rfl

theorem message_tooDeep : Violation.tooDeep.message = "calls nested deeper than 256 levels" := by
  decide +kernel

theorem paramsViolation?_cons (function param : String) (earlier rest : List String) :
    paramsViolation? function earlier (param :: rest) =
      ((nameViolation? .parameter param).or
        (if param ∈ earlier then some (.duplicateParameter param function) else none)).or
          (paramsViolation? function (earlier ++ [param]) rest) := by
  by_cases seen : param ∈ earlier <;>
    cases named : nameViolation? .parameter param <;> simp [paramsViolation?, named, seen]

theorem message_paramsViolation? (function : String) (earlier rest : List String) :
    (paramsViolation? function earlier rest).map Violation.message =
      ((rest.zipIdx earlier.length).flatMap
        (paramComplaints function (earlier ++ rest))).head? := by
  induction rest generalizing earlier with
  | nil => rfl
  | cons param rest inductionHypothesis =>
      have later := inductionHypothesis (earlier ++ [param])
      rw [List.append_assoc, List.singleton_append, List.length_append, List.length_singleton]
        at later
      have own : ((nameViolation? .parameter param).or
          (if param ∈ earlier then some (.duplicateParameter param function) else none)).map
            Violation.message =
          (paramComplaints function (earlier ++ param :: rest) (param, earlier.length)).head? := by
        rw [paramComplaints, List.take_left, List.head?_append, Option.map_or,
          message_nameViolation?]
        congr 1
        split <;> rfl
      rw [paramsViolation?_cons, Option.map_or, own, later, List.zipIdx_cons,
        List.flatMap_cons, List.head?_append]

end Script

namespace Expr

open Script

mutual

/-- The nodes of an expression in preorder, each with the number of calls around it. -/
def nodes (depth : Nat) : Expr → List (Nat × Expr)
  | .integer value => [(depth, .integer value)]
  | .var name => [(depth, .var name)]
  | .call callee args => (depth, .call callee args) :: argNodes (depth + 1) args

/-- The nodes of several expressions. -/
def argNodes (depth : Nat) : List Expr → List (Nat × Expr)
  | [] => []
  | arg :: rest => nodes depth arg ++ argNodes depth rest

end

/-- What there is to say against a node itself, inside a number of calls. Of a call, its
name comes before the level that it opens. -/
def nodeComplaints : Nat × Expr → List String
  | (_, .integer _) => []
  | (_, .var name) => nameComplaints "variable name" name
  | (depth, .call callee _) => nameComplaints "callee name" callee ++
      if depth = 256 then ["calls nested deeper than 256 levels"] else []

/-- All that there is to say against an expression, in preorder. -/
def complaints (expr : Expr) : List String := (expr.nodes 0).flatMap nodeComplaints

theorem violation?_call (depth : Nat) (callee : String) (args : List Expr) :
    (Expr.call callee args).violation? depth =
      ((nameViolation? .callee callee).or
        (if depth = maxCallDepth then some .tooDeep else none)).or
          (argsViolation? (depth + 1) args) := by
  by_cases full : depth = maxCallDepth <;>
    cases named : nameViolation? .callee callee <;> simp [violation?, named, full]

theorem argsViolation?_cons (depth : Nat) (arg : Expr) (rest : List Expr) :
    argsViolation? depth (arg :: rest) =
      (arg.violation? depth).or (argsViolation? depth rest) := by
  cases found : arg.violation? depth <;> simp [argsViolation?, found]

theorem message_callViolation? (depth : Nat) (callee : String) (args : List Expr) :
    ((nameViolation? .callee callee).or
        (if depth = maxCallDepth then some .tooDeep else none)).map Violation.message =
      (nodeComplaints (depth, .call callee args)).head? := by
  rw [nodeComplaints, List.head?_append, Option.map_or, message_nameViolation?]
  congr 1
  rw [maxCallDepth]
  split
  · rw [Option.map_some, message_tooDeep, List.head?_cons]
  · rfl

mutual

theorem message_violation? (depth : Nat) (expr : Expr) :
    (expr.violation? depth).map Violation.message =
      ((expr.nodes depth).flatMap nodeComplaints).head? := by
  cases expr with
  | integer value => simp [violation?, nodes, nodeComplaints]
  | var name =>
      rw [violation?, message_nameViolation?, nodes, List.flatMap_singleton]
      rfl
  | call callee args =>
      rw [violation?_call, Option.map_or, message_callViolation? depth callee args,
        message_argsViolation? (depth + 1) args, nodes, List.flatMap_cons, List.head?_append]

theorem message_argsViolation? (depth : Nat) (args : List Expr) :
    (argsViolation? depth args).map Violation.message =
      ((argNodes depth args).flatMap nodeComplaints).head? := by
  cases args with
  | nil => simp [argsViolation?, argNodes]
  | cons arg rest =>
      rw [argsViolation?_cons, Option.map_or, message_violation? depth arg,
        message_argsViolation? depth rest, argNodes, List.flatMap_append, List.head?_append]

end

theorem generate_eq_error_iff {expr : Expr} {violation : Violation} :
    expr.generate = .error violation ↔ expr.violation? 0 = some violation := by
  cases found : expr.violation? 0 <;> simp [generate, found]

/-- A printer of expressions: numerals in decimal, bare names, and calls with their
arguments between parentheses. -/
structure IsPlain (print : Expr → String) : Prop where
  integer : ∀ value, print (.integer value) = Int.repr value.toInt
  var : ∀ name, print (.var name) = name
  call : ∀ callee args, print (.call callee args) =
    callee ++ "(" ++ String.intercalate "," (args.map print) ++ ")"

theorem renderArgs_eq_map (args : List Expr) : renderArgs args = args.map render := by
  induction args with
  | nil => rfl
  | cons arg rest inductionHypothesis => rw [renderArgs, inductionHypothesis, List.map_cons]

theorem isPlain_render : IsPlain render where
  integer value := rfl
  var name := rfl
  call callee args := by rw [render, renderArgs_eq_map]

end Expr

namespace Definition

open Script

/-- All that there is to say against a definition: against its name, its parameters from
left to right, and the nodes of its body in preorder. -/
def complaints (tree : Definition) : List String :=
  nameComplaints "function name" tree.name ++
    (tree.params.zipIdx.flatMap (paramComplaints tree.name tree.params) ++
      tree.body.complaints)

theorem violation?_eq_or (tree : Definition) :
    tree.violation? = (nameViolation? .function tree.name).or
      ((paramsViolation? tree.name [] tree.params).or (tree.body.violation? 0)) := by
  rw [violation?]
  cases nameViolation? .function tree.name <;>
    cases paramsViolation? tree.name [] tree.params <;> rfl

theorem message_violation? (tree : Definition) :
    tree.violation?.map Violation.message = tree.complaints.head? := by
  have params := message_paramsViolation? tree.name [] tree.params
  rw [List.length_nil, List.nil_append] at params
  rw [violation?_eq_or, Option.map_or, Option.map_or, message_nameViolation?, params,
    Expr.message_violation?, complaints, List.head?_append, List.head?_append]
  rfl

theorem generate_eq_ok_iff {tree : Definition} {text : String} :
    tree.generate = .ok text ↔ tree.violation? = none ∧ tree.render = text := by
  cases found : tree.violation? <;> simp [generate, found]

theorem generate_eq_error_iff {tree : Definition} {violation : Violation} :
    tree.generate = .error violation ↔ tree.violation? = some violation := by
  cases found : tree.violation? <;> simp [generate, found]

end Definition

/-- The error carries a message, and shows it as an internal error for every source. -/
def CompileError.Says (error : CompileError) (message : String) : Prop :=
  error = .internal message ∧
    ∀ source, error.message? source = some ("internal error: " ++ message)

open Script

/-- An outcome that fails with the violation that was found says what comes first among
the complaints. -/
theorem mapError_ofViolation_eq_error_iff {outcome : Except Violation String}
    {found : Option Violation} {complaints : List String} {error : CompileError}
    (fails : ∀ violation, outcome = .error violation ↔ found = some violation)
    (worded : found.map Violation.message = complaints.head?) :
    outcome.mapError CompileError.ofViolation = .error error ↔
      ∃ message, complaints.head? = some message ∧ error.Says message := by
  rw [mapError_eq_error_iff, ← worded]
  constructor
  · rintro ⟨violation, failed, rfl⟩
    rw [(fails violation).mp failed]
    exact ⟨violation.message, rfl, rfl, fun _ => rfl⟩
  · rintro ⟨message, first, rfl, -⟩
    obtain ⟨violation, isFound, rfl⟩ := Option.map_eq_some_iff.mp first
    exact ⟨violation, (fails violation).mpr isFound, rfl⟩

/-- Whatever tree it is given, printing succeeds exactly when all names are names, the
parameters differ and no more than 256 calls are nested, and the text is then the plain
one. Otherwise it fails and says what comes first against the tree. The same holds for an
expression. -/
theorem generate_reports_first_violation :
    Expr.IsPlain Expr.render ∧
    (∀ tree : Definition,
      (∀ text, tree.generate.mapError CompileError.ofViolation = .ok text ↔
        ((∀ name ∈ tree.names, IsName name) ∧ tree.params.Nodup ∧ tree.body.callDepth ≤ 256) ∧
          text = "function " ++ tree.name ++ "(" ++ String.intercalate "," tree.params ++
            ") \x7b return " ++ tree.body.render ++ " \x7d;") ∧
      ∀ error, tree.generate.mapError CompileError.ofViolation = .error error ↔
        ∃ message, tree.complaints.head? = some message ∧ error.Says message) ∧
    ∀ expr : Expr,
      (∀ text, expr.generate.mapError CompileError.ofViolation = .ok text ↔
        ((∀ name ∈ expr.names, IsName name) ∧ expr.callDepth ≤ 256) ∧ text = expr.render) ∧
      ∀ error, expr.generate.mapError CompileError.ofViolation = .error error ↔
        ∃ message, expr.complaints.head? = some message ∧ error.Says message := by
  refine ⟨Expr.isPlain_render, fun tree => ⟨fun text => ?_, fun error => ?_⟩,
    fun expr => ⟨fun text => ?_, fun error => ?_⟩⟩
  · rw [mapError_eq_ok_iff, Definition.generate_eq_ok_iff, Definition.violation?_eq_none_iff,
      Definition.Permitted, eq_comm (a := text)]
    rfl
  · exact mapError_ofViolation_eq_error_iff (fun _ => Definition.generate_eq_error_iff)
      tree.message_violation?
  · rw [mapError_eq_ok_iff, Expr.generate_eq_ok_iff, Expr.violation?_eq_none_iff, Expr.FitsAt,
      eq_comm (a := text)]
    simp [maxCallDepth]
  · exact mapError_ofViolation_eq_error_iff (fun _ => Expr.generate_eq_error_iff)
      (expr.message_violation? 0)

example : (Definition.mk "f" ["x", "y", "x", "2"] (.call "g" [.var ""])).complaints =
    ["duplicate parameter \"x\" in function \"f\"", "invalid parameter name \"2\"",
      "invalid variable name \"\""] := by
  decide +kernel

end DefLang
