import DefLang.Compile
import DefLang.Proofs.GrammarAcceptance
import DefLang.Proofs.TokenLayout

/-!
# Every tree that a source spells can be printed

Printing refuses a tree for three reasons: a name that is no name, a parameter
that occurs twice, and calls that are nested too deep. The names of a tree are
exactly the texts of the identifiers that spell it, and the scanner gives no
identifier another text than a name. The other two reasons are ruled out by the
parser, which counts calls against the same limit.
-/
namespace DefLang

namespace Expr

mutual

/-- The names in an expression, in the order of their tokens. -/
def names : Expr → List String
  | .integer _ => []
  | .var name => [name]
  | .call callee args => callee :: argNames args

/-- The names in several expressions. -/
def argNames : List Expr → List String
  | [] => []
  | arg :: rest => names arg ++ argNames rest

end

mutual

theorem Spells.identifiers_eq {expr : Expr} {tokens : List Token}
    (spelled : Spells expr tokens) : Token.identifiers tokens = expr.names := by
  cases spelled with
  | integer kind parsed => simp [Token.identifiers, kind, names]
  | var kind => simp [Token.identifiers, kind, names]
  | call calleeKind openingKind argsSpelled closingKind =>
      have inner := argsSpelled.identifiers_eq
      simp only [Token.identifiers] at inner
      simp [Token.identifiers, calleeKind, openingKind, closingKind, names, inner]

theorem SpellsArgs.identifiers_eq {args : List Expr} {tokens : List Token}
    (spelled : SpellsArgs args tokens) : Token.identifiers tokens = argNames args := by
  cases spelled with
  | none => rfl
  | single argSpelled => simp [argNames, argSpelled.identifiers_eq]
  | cons argSpelled commaKind continued =>
      have first := argSpelled.identifiers_eq
      have later := continued.identifiers_eq
      simp only [Token.identifiers] at first later
      simp [Token.identifiers, commaKind, argNames, first, later]

end

open Script

mutual

/-- Nothing is wrong with an expression exactly when its names are names and it
fits inside the calls around it. -/
theorem violation?_eq_none_iff (depth : Nat) (expr : Expr) :
    expr.violation? depth = none ↔
      (∀ name ∈ expr.names, IsName name) ∧ expr.FitsAt depth := by
  cases expr with
  | integer value => simp [violation?, names, fitsAt_integer]
  | var name => simp [violation?, nameViolation?, names, fitsAt_var]
  | call callee args =>
      have inner := argsViolation?_eq_none_iff (depth + 1) args
      by_cases named : IsName callee
      · by_cases full : depth = maxCallDepth
        · simp [violation?, nameViolation?, named, full, fitsAt_call]
        · simp [violation?, nameViolation?, names, named, full, fitsAt_call, inner]
      · simp [violation?, nameViolation?, names, named]

theorem argsViolation?_eq_none_iff (depth : Nat) (args : List Expr) :
    argsViolation? depth args = none ↔
      (∀ name ∈ argNames args, IsName name) ∧ AllFitAt depth args := by
  cases args with
  | nil => simp [argsViolation?, argNames, allFitAt_nil]
  | cons arg rest =>
      have first := violation?_eq_none_iff depth arg
      have later := argsViolation?_eq_none_iff depth rest
      have joined : argsViolation? depth (arg :: rest) = none ↔
          arg.violation? depth = none ∧ argsViolation? depth rest = none := by
        cases found : arg.violation? depth <;> simp [argsViolation?, found]
      rw [joined, first, later, allFitAt_cons]
      simp only [argNames, List.forall_mem_append]
      tauto

end

theorem generate_eq_ok_iff {expr : Expr} {text : String} :
    expr.generate = .ok text ↔ expr.violation? 0 = none ∧ expr.render = text := by
  cases found : expr.violation? 0 <;> simp [generate, found]

end Expr

namespace Script

theorem paramsViolation?_eq_none_iff {function : String} {earlier params : List String}
    (distinct : earlier.Nodup) :
    paramsViolation? function earlier params = none ↔
      (∀ param ∈ params, IsName param) ∧ (earlier ++ params).Nodup := by
  induction params generalizing earlier with
  | nil => simpa [paramsViolation?] using distinct
  | cons param params inductionHypothesis =>
      by_cases named : IsName param
      · by_cases seen : param ∈ earlier
        · have repeated : ¬ (earlier ++ param :: params).Nodup := by
            intro allDistinct
            exact (List.nodup_append.mp allDistinct).2.2 param seen param (by simp) rfl
          simp [paramsViolation?, nameViolation?, named, seen, repeated]
        · have longer : (earlier ++ [param]).Nodup := by
            rw [← List.concat_eq_append]
            exact .concat seen distinct
          have extended := inductionHypothesis longer
          simpa [paramsViolation?, nameViolation?, named, seen] using extended
      · simp [paramsViolation?, nameViolation?, named]

end Script

namespace Definition

open Script

/-- All the names in a definition, in the order of their tokens. -/
def names (tree : Definition) : List String :=
  tree.name :: (tree.params ++ tree.body.names)

theorem Spells.identifiers_eq {tree : Definition} {tokens : List Token}
    (spelled : tree.Spells tokens) : Token.identifiers tokens = tree.names := by
  cases spelled with
  | intro startKind nameKind openingKind paramsSpelled closingKind bodySpelled finishKind =>
      have params := paramsSpelled.identifiers_eq
      have body := bodySpelled.identifiers_eq
      simp only [Token.identifiers] at params body
      simp [Token.identifiers, names, startKind, nameKind, openingKind, closingKind,
        finishKind, params, body]

theorem violation?_eq_none_iff (tree : Definition) :
    tree.violation? = none ↔ (∀ name ∈ tree.names, IsName name) ∧ tree.Permitted := by
  have params : paramsViolation? tree.name [] tree.params = none ↔
      (∀ param ∈ tree.params, IsName param) ∧ tree.params.Nodup :=
    paramsViolation?_eq_none_iff List.nodup_nil
  have body : tree.body.violation? 0 = none ↔
      (∀ name ∈ tree.body.names, IsName name) ∧ tree.body.callDepth ≤ maxCallDepth := by
    rw [Expr.violation?_eq_none_iff, Expr.FitsAt]
    simp
  have joined : tree.violation? = none ↔ IsName tree.name ∧
      paramsViolation? tree.name [] tree.params = none ∧ tree.body.violation? 0 = none := by
    by_cases named : IsName tree.name
    · cases found : paramsViolation? tree.name [] tree.params <;>
        simp [violation?, nameViolation?, named, found]
    · simp [violation?, nameViolation?, named]
  rw [joined, params, body]
  simp only [names, Permitted, List.forall_mem_cons, List.forall_mem_append]
  tauto

/-- The text of a definition, with its header kept together. -/
theorem render_eq (tree : Definition) :
    tree.render = "function " ++ (tree.name ++ "(" ++ String.intercalate "," tree.params ++ ")") ++
      " \x7b return " ++ tree.body.render ++ " \x7d;" := by
  have unfolded : tree.render = "function " ++ tree.name ++ "(" ++
      String.intercalate "," tree.params ++ ") \x7b return " ++ tree.body.render ++ " \x7d;" :=
    rfl
  rw [unfolded, ← String.toList_inj]
  simp

theorem generateProgram_of_violation?_eq_none {tree : Definition}
    (printable : tree.violation? = none) :
    tree.generate = .ok tree.render ∧
      tree.generateProgram = .ok (Script.program tree.render) := by
  have generated : tree.generate = .ok tree.render := by simp [generate, printable]
  refine ⟨generated, ?_⟩
  rw [generateProgram, generated]
  rfl

end Definition

theorem isName_of_admits {text : String}
    (admitted : Token.Kind.identifier.Admits text.toList) : Script.IsName text :=
  ⟨admitted.1, admitted.2.1⟩

theorem admits_of_mem_names {source : String} {tokens : List Token} {tree : Definition}
    (tokenized : tokenize source = .ok tokens) (spelled : tree.Spells tokens) :
    ∀ name ∈ tree.names, Token.Kind.identifier.Admits name.toList := by
  intro name member
  rw [← spelled.identifiers_eq] at member
  obtain ⟨token, tokenMember, rfl⟩ := List.mem_map.mp member
  obtain ⟨inTokens, kind⟩ := List.mem_filter.mp tokenMember
  have admitted := admits_of_tokenize tokenized token inTokens
  rwa [show token.kind = .identifier by simpa using kind] at admitted

theorem violation?_eq_none_of_parse {source : String} {tokens : List Token}
    {tree : Definition} (tokenized : tokenize source = .ok tokens)
    (parsed : parse source tokens = .ok tree) : tree.violation? = none := by
  obtain ⟨spelled, permitted⟩ := Parser.definition_sound (parse_eq_ok_iff.mp parsed)
  rw [Definition.violation?_eq_none_iff]
  refine ⟨?_, permitted⟩
  intro name member
  exact isName_of_admits (admits_of_mem_names tokenized spelled name member)

theorem readDefinition_eq_ok_iff {source : String} {tree : Definition} :
    readDefinition source = .ok tree ↔
      ∃ tokens, tokenize source = .ok tokens ∧ parse source tokens = .ok tree := by
  constructor
  · exact exists_of_bind_eq_ok
  · rintro ⟨tokens, tokenized, parsed⟩
    rw [readDefinition, tokenized]
    exact parsed

theorem readDefinition_eq_error_iff {source : String} {found : Diagnostic} :
    readDefinition source = .error found ↔ tokenize source = .error found ∨
      ∃ tokens, tokenize source = .ok tokens ∧ parse source tokens = .error found := by
  cases tokenized : tokenize source with
  | error other => simp [readDefinition, tokenized]
  | ok tokens => simp [readDefinition, tokenized]

theorem compile_of_readDefinition {source : String} {tree : Definition}
    (read : readDefinition source = .ok tree) :
    compile source = .ok (Script.program tree.render) := by
  obtain ⟨tokens, tokenized, parsed⟩ := readDefinition_eq_ok_iff.mp read
  have printable := violation?_eq_none_of_parse tokenized parsed
  rw [compile, read]
  change tree.generateProgram.mapError CompileError.ofViolation = _
  rw [(Definition.generateProgram_of_violation?_eq_none printable).2]
  rfl

theorem compile_of_readDefinition_error {source : String} {found : Diagnostic}
    (read : readDefinition source = .error found) :
    compile source = .error (.diagnostic found) := by
  rw [compile, read]
  rfl

theorem compile_eq_ok_iff {source script : String} :
    compile source = .ok script ↔
      ∃ tree, readDefinition source = .ok tree ∧ Script.program tree.render = script := by
  constructor
  · intro compiled
    cases read : readDefinition source with
    | error found =>
        rw [compile_of_readDefinition_error read] at compiled
        cases compiled
    | ok tree =>
        rw [compile_of_readDefinition read] at compiled
        exact ⟨tree, rfl, Except.ok.inj compiled⟩
  · rintro ⟨tree, read, rfl⟩
    exact compile_of_readDefinition read

theorem compile_eq_error_iff {source : String} {error : CompileError} :
    compile source = .error error ↔
      ∃ found, readDefinition source = .error found ∧ error = .diagnostic found := by
  cases read : readDefinition source with
  | error found => simp [compile_of_readDefinition_error read, eq_comm]
  | ok tree => simp [compile_of_readDefinition read]

/-- The internal error has no source: whatever tokens are read as a tree are
printed, and a source is compiled exactly when it is read. -/
theorem compile_never_internal (source : String) :
    (∀ tokens tree, tokenize source = .ok tokens → parse source tokens = .ok tree →
      (∃ script, tree.generate = .ok script) ∧ ∃ script, tree.generateProgram = .ok script) ∧
    (∀ message, compile source ≠ .error (.internal message)) ∧
    ((∃ script, compile source = .ok script) ↔
      ∃ tokens tree, tokenize source = .ok tokens ∧ parse source tokens = .ok tree) := by
  refine ⟨?_, ?_, ?_, ?_⟩
  · intro tokens tree tokenized parsed
    have printable := violation?_eq_none_of_parse tokenized parsed
    obtain ⟨generated, program⟩ := Definition.generateProgram_of_violation?_eq_none printable
    exact ⟨⟨_, generated⟩, ⟨_, program⟩⟩
  · intro message refused
    cases read : readDefinition source with
    | error found =>
        rw [compile_of_readDefinition_error read] at refused
        cases refused
    | ok tree =>
        rw [compile_of_readDefinition read] at refused
        cases refused
  · rintro ⟨script, compiled⟩
    cases read : readDefinition source with
    | error found =>
        rw [compile_of_readDefinition_error read] at compiled
        cases compiled
    | ok tree =>
        obtain ⟨tokens, tokenized, parsed⟩ := readDefinition_eq_ok_iff.mp read
        exact ⟨tokens, tree, tokenized, parsed⟩
  · rintro ⟨tokens, tree, tokenized, parsed⟩
    exact ⟨_, compile_of_readDefinition (readDefinition_eq_ok_iff.mpr ⟨tokens, tokenized, parsed⟩)⟩

end DefLang
