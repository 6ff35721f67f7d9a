import DefLang.Proofs.FirstViolation

/-!
# A tree that is read is blamed for its first wrong identifier

The texts of tokens are not checked when a tree is read from them, so printing may
still find a name that is none. The names of the tree are then listed twice: by the
tree, in the order in which they are checked, and by the tokens, in their own order,
where the neighbours of an identifier tell what it stands for. Both are the same list.
Nothing else can be wrong with such a tree, so printing fails with the first
identifier that is no name.
-/
namespace DefLang

open Script

namespace Token

/-- What an identifier between two parts of a list of tokens stands for. -/
def roleBetween (before after : List Token) : Role :=
  if before.getLast?.map Token.kind = some .defKeyword then .function
  else if ∀ token ∈ before, token.kind ≠ .closeParen then .parameter
  else if after.head?.map Token.kind = some .openParen then .callee
  else .variable

/-- The identifiers among some tokens between two other parts, with what they stand for. -/
def occurrences (before : List Token) : List Token → List Token → List (Role × String)
  | [], _ => []
  | token :: rest, after =>
      if token.kind = .identifier then
        (roleBetween before (rest ++ after), token.text) ::
          occurrences (before ++ [token]) rest after
      else occurrences (before ++ [token]) rest after

section Occurrences

variable {before after rest : List Token} {token : Token}

theorem occurrences_cons_identifier (kind : token.kind = .identifier) :
    occurrences before (token :: rest) after =
      (roleBetween before (rest ++ after), token.text) ::
        occurrences (before ++ [token]) rest after := by
  rw [occurrences, if_pos kind]

theorem occurrences_cons_other (kind : token.kind ≠ .identifier) :
    occurrences before (token :: rest) after = occurrences (before ++ [token]) rest after := by
  rw [occurrences, if_neg kind]

theorem occurrences_append (before first second after : List Token) :
    occurrences before (first ++ second) after =
      occurrences before first (second ++ after) ++
        occurrences (before ++ first) second after := by
  induction first generalizing before with
  | nil => simp [occurrences]
  | cons token first inductionHypothesis =>
      by_cases kind : token.kind = .identifier
      · simp [occurrences_cons_identifier kind, inductionHypothesis]
      · simp [occurrences_cons_other kind, inductionHypothesis]

end Occurrences

/-- The tokens end with another one than the first keyword. -/
def PastKeyword (before : List Token) : Prop :=
  before.getLast?.map Token.kind ≠ some .defKeyword

theorem pastKeyword_append_singleton {before : List Token} {token : Token}
    (kind : token.kind ≠ .defKeyword) : PastKeyword (before ++ [token]) := by
  simpa [PastKeyword] using kind

/-- The tokens end inside the parameters. -/
structure EndsInParams (before : List Token) : Prop where
  pastKeyword : PastKeyword before
  notClosed : ∀ token ∈ before, token.kind ≠ .closeParen

/-- The tokens end inside the body. -/
structure EndsInBody (before : List Token) : Prop where
  pastKeyword : PastKeyword before
  closed : ∃ token ∈ before, token.kind = .closeParen

section Roles

variable {before after : List Token} {token : Token}

theorem roleBetween_of_params (inParams : EndsInParams before) :
    roleBetween before after = .parameter := by
  rw [roleBetween, if_neg inParams.pastKeyword, if_pos inParams.notClosed]

theorem roleBetween_of_body (inBody : EndsInBody before) :
    roleBetween before after =
      if after.head?.map Token.kind = some .openParen then .callee else .variable := by
  have closed : ¬ ∀ token ∈ before, token.kind ≠ .closeParen := by
    simpa using inBody.closed
  rw [roleBetween, if_neg inBody.pastKeyword, if_neg closed]

theorem EndsInBody.append_singleton (inBody : EndsInBody before) (earlier : List Token)
    (kind : token.kind ≠ .defKeyword) : EndsInBody (before ++ earlier ++ [token]) := by
  obtain ⟨closing, member, closingKind⟩ := inBody.closed
  exact ⟨pastKeyword_append_singleton kind, closing, by simp [member], closingKind⟩

theorem EndsInParams.append_singleton (inParams : EndsInParams before)
    (notKeyword : token.kind ≠ .defKeyword) (notClosing : token.kind ≠ .closeParen) :
    EndsInParams (before ++ [token]) := by
  refine ⟨pastKeyword_append_singleton notKeyword, ?_⟩
  have notClosed := inParams.notClosed
  simpa [or_imp, forall_and, notClosing] using notClosed

end Roles

end Token

namespace Expr

mutual

/-- The names in an expression in the order of their tokens, with what they stand for. -/
def occurrences : Expr → List (Role × String)
  | .integer _ => []
  | .var name => [(.variable, name)]
  | .call callee args => (.callee, callee) :: argOccurrences args

/-- The names in several expressions. -/
def argOccurrences : List Expr → List (Role × String)
  | [] => []
  | arg :: rest => occurrences arg ++ argOccurrences rest

end

open Token

mutual

theorem Spells.occurrences_eq {expr : Expr} {tokens : List Token} (spelled : Spells expr tokens)
    {before after : List Token} (inBody : EndsInBody before)
    (ended : ∀ next ∈ after.head?, next.kind ≠ .openParen) :
    Token.occurrences before tokens after = expr.occurrences := by
  cases spelled with
  | integer kind parsed =>
      rw [occurrences_cons_other (by simp [kind])]
      rfl
  | var kind =>
      have noCall : after.head?.map Token.kind ≠ some .openParen := by simpa using ended
      rw [occurrences_cons_identifier kind, roleBetween_of_body inBody, List.nil_append,
        if_neg noCall]
      rfl
  | @call callee opening closing args inner calleeKind openingKind argsSpelled closingKind =>
      have inArgs : EndsInBody (before ++ [callee] ++ [opening]) :=
        inBody.append_singleton [callee] (by simp [openingKind])
      have argsEnded : ∀ next ∈ ([closing] ++ after).head?, next.kind ≠ .openParen := by
        simp [closingKind]
      rw [List.cons_append, occurrences_cons_identifier calleeKind, roleBetween_of_body inBody,
        if_pos (by simp [openingKind]), List.cons_append,
        occurrences_cons_other (by simp [openingKind]), occurrences_append,
        argsSpelled.occurrences_eq inArgs argsEnded, occurrences_cons_other (by simp [closingKind])]
      simp [occurrences, Token.occurrences]

theorem SpellsArgs.occurrences_eq {args : List Expr} {tokens : List Token}
    (spelled : SpellsArgs args tokens) {before after : List Token} (inBody : EndsInBody before)
    (ended : ∀ next ∈ after.head?, next.kind ≠ .openParen) :
    Token.occurrences before tokens after = argOccurrences args := by
  cases spelled with
  | none => rfl
  | single argSpelled =>
      rw [argSpelled.occurrences_eq inBody ended]
      simp [argOccurrences]
  | @cons arg next later comma tokens rest argSpelled commaKind continued =>
      have inRest : EndsInBody (before ++ tokens ++ [comma]) :=
        inBody.append_singleton tokens (by simp [commaKind])
      have argEnded : ∀ next ∈ (comma :: rest ++ after).head?, next.kind ≠ .openParen := by
        simp [commaKind]
      rw [occurrences_append, argSpelled.occurrences_eq inBody argEnded,
        occurrences_cons_other (by simp [commaKind]), continued.occurrences_eq inRest ended]
      rfl

end

end Expr

namespace Script

/-- The violation by the first of some names that is no name. -/
def firstInvalid? (names : List (Role × String)) : Option Violation :=
  names.findSome? fun (role, name) => nameViolation? role name

theorem firstInvalid?_cons (role : Role) (name : String) (rest : List (Role × String)) :
    firstInvalid? ((role, name) :: rest) =
      (nameViolation? role name).or (firstInvalid? rest) := by
  simp only [firstInvalid?, List.findSome?_cons]
  cases nameViolation? role name <;> rfl

theorem firstInvalid?_append (first second : List (Role × String)) :
    firstInvalid? (first ++ second) = (firstInvalid? first).or (firstInvalid? second) :=
  List.findSome?_append

/-- Parameters that differ from each other can be wrong only in their names. -/
theorem paramsViolation?_eq_firstInvalid? {function : String} {earlier params : List String}
    (distinct : (earlier ++ params).Nodup) :
    paramsViolation? function earlier params = firstInvalid? (params.map (Role.parameter, ·)) := by
  induction params generalizing earlier with
  | nil => rfl
  | cons param params inductionHypothesis =>
      have unseen : param ∉ earlier := by
        intro member
        exact (List.nodup_append.mp distinct).2.2 param member param (by simp) rfl
      rw [paramsViolation?_cons, if_neg unseen, Option.or_none,
        inductionHypothesis (by simpa using distinct), List.map_cons, firstInvalid?_cons]

end Script

namespace Expr

mutual

/-- An expression whose calls are not too deep can be wrong only in its names. -/
theorem violation?_eq_firstInvalid? {depth : Nat} {expr : Expr} (fits : expr.FitsAt depth) :
    expr.violation? depth = firstInvalid? expr.occurrences := by
  cases expr with
  | integer value => simp [violation?, occurrences, firstInvalid?]
  | var name => simp [violation?, occurrences, firstInvalid?]
  | call callee args =>
      obtain ⟨room, argsFit⟩ := fitsAt_call.mp fits
      rw [violation?_call, if_neg room, Option.or_none,
        argsViolation?_eq_firstInvalid? argsFit, occurrences, firstInvalid?_cons]

theorem argsViolation?_eq_firstInvalid? {depth : Nat} {args : List Expr}
    (fit : AllFitAt depth args) :
    argsViolation? depth args = firstInvalid? (argOccurrences args) := by
  cases args with
  | nil => simp [argsViolation?, argOccurrences, firstInvalid?]
  | cons arg rest =>
      obtain ⟨argFits, restFit⟩ := allFitAt_cons.mp fit
      rw [argsViolation?_cons, violation?_eq_firstInvalid? argFits,
        argsViolation?_eq_firstInvalid? restFit, argOccurrences, firstInvalid?_append]

end

end Expr

namespace Definition

open Token

/-- The names in a definition in the order of their tokens, with what they stand for. -/
def occurrences (tree : Definition) : List (Role × String) :=
  (.function, tree.name) :: (tree.params.map (Role.parameter, ·) ++ tree.body.occurrences)

theorem SpellsParams.occurrences_eq {params : List String} {tokens : List Token}
    (spelled : SpellsParams params tokens) {before : List Token} (after : List Token)
    (inParams : EndsInParams before) :
    Token.occurrences before tokens after = params.map (Role.parameter, ·) := by
  induction spelled generalizing before with
  | none => rfl
  | single kind =>
      rw [occurrences_cons_identifier kind, roleBetween_of_params inParams]
      rfl
  | @cons param comma next later rest kind commaKind _ inductionHypothesis =>
      have inRest : EndsInParams (before ++ [param] ++ [comma]) := by
        apply EndsInParams.append_singleton
        · exact inParams.append_singleton (by simp [kind]) (by simp [kind])
        · simp [commaKind]
        · simp [commaKind]
      rw [occurrences_cons_identifier kind, roleBetween_of_params inParams,
        occurrences_cons_other (by simp [commaKind]), inductionHypothesis inRest]
      rfl

theorem Spells.occurrences_eq {tree : Definition} {tokens : List Token}
    (spelled : tree.Spells tokens) : Token.occurrences [] tokens [] = tree.occurrences := by
  cases spelled with
  | @intro start name opening closing finish params body paramTokens bodyTokens startKind nameKind
      openingKind paramsSpelled closingKind bodySpelled finishKind =>
      have inParams : EndsInParams [start, name, opening] := by
        constructor
        · simp [PastKeyword, openingKind]
        · simp [startKind, nameKind, openingKind]
      have inBody : EndsInBody ([start, name, opening] ++ paramTokens ++ [closing]) := by
        constructor
        · exact pastKeyword_append_singleton (by simp [closingKind])
        · exact ⟨closing, by simp, closingKind⟩
      have parts : start :: name :: opening :: paramTokens ++ closing :: bodyTokens ++ [finish] =
          [start, name, opening] ++ (paramTokens ++ ([closing] ++ (bodyTokens ++ [finish]))) := by
        simp
      have bodyEnded : ∀ next ∈ ([finish] ++ []).head?, next.kind ≠ .openParen := by
        simp [finishKind]
      have header : Token.occurrences [] [start, name, opening]
          (paramTokens ++ ([closing] ++ (bodyTokens ++ [finish])) ++ []) =
            [(.function, name.text)] := by
        simp [Token.occurrences, roleBetween, startKind, nameKind, openingKind]
      rw [parts, occurrences_append, header, occurrences_append, List.nil_append,
        paramsSpelled.occurrences_eq _ inParams, occurrences_append,
        occurrences_cons_other (by simp [closingKind]), occurrences_append,
        bodySpelled.occurrences_eq inBody bodyEnded, occurrences_cons_other (by simp [finishKind])]
      simp [Token.occurrences, occurrences]

theorem violation?_eq_firstInvalid? {tree : Definition} (permitted : tree.Permitted) :
    tree.violation? = firstInvalid? tree.occurrences := by
  obtain ⟨distinct, shallow⟩ := permitted
  have params : paramsViolation? tree.name [] tree.params =
      firstInvalid? (tree.params.map (Role.parameter, ·)) :=
    paramsViolation?_eq_firstInvalid? distinct
  have body : tree.body.violation? 0 = firstInvalid? tree.body.occurrences :=
    Expr.violation?_eq_firstInvalid? fun _ => by simpa using shallow
  rw [occurrences, firstInvalid?_cons, firstInvalid?_append, ← params, ← body, violation?]
  cases nameViolation? .function tree.name <;>
    cases paramsViolation? tree.name [] tree.params <;> rfl

end Definition

namespace Token

/-- The token is the first identifier that is no name, and stands between the two
parts of the tokens. -/
structure IsFirstInvalid (tokens before : List Token) (token : Token) (after : List Token) :
    Prop where
  split : tokens = before ++ token :: after
  identifier : token.kind = .identifier
  invalid : ¬ IsName token.text
  earlier : ∀ other ∈ before, other.kind = .identifier → IsName other.text

theorem firstInvalid?_eq_none_of_names {tokens : List Token} (before after : List Token)
    (named : ∀ token ∈ tokens, token.kind = .identifier → IsName token.text) :
    firstInvalid? (occurrences before tokens after) = none := by
  induction tokens generalizing before with
  | nil => rfl
  | cons token rest inductionHypothesis =>
      obtain ⟨first, later⟩ := List.forall_mem_cons.mp named
      by_cases kind : token.kind = .identifier
      · rw [occurrences_cons_identifier kind, firstInvalid?_cons, nameViolation?,
          if_pos (first kind), Option.none_or]
        exact inductionHypothesis _ later
      · rw [occurrences_cons_other kind]
        exact inductionHypothesis _ later

theorem IsFirstInvalid.firstInvalid?_eq {tokens before after : List Token} {token : Token}
    (found : IsFirstInvalid tokens before token after) :
    firstInvalid? (occurrences [] tokens []) =
      some (.invalidName (roleBetween before after) token.text) := by
  rw [found.split, occurrences_append, firstInvalid?_append,
    firstInvalid?_eq_none_of_names [] _ found.earlier, Option.none_or, List.nil_append,
    occurrences_cons_identifier found.identifier, firstInvalid?_cons, nameViolation?,
    if_neg found.invalid, List.append_nil]
  rfl

theorem exists_isFirstInvalid {tokens : List Token}
    (wrong : ¬ ∀ token ∈ tokens, token.kind = .identifier → IsName token.text) :
    ∃ before token after, IsFirstInvalid tokens before token after := by
  cases found : tokens.find? fun token => token.kind = .identifier ∧ ¬ IsName token.text with
  | none =>
      have named := List.find?_eq_none.mp found
      exact absurd (by simpa using named) wrong
  | some token =>
      obtain ⟨isWrong, before, after, split, earlier⟩ := List.find?_eq_some_iff_append.mp found
      obtain ⟨identifier, invalid⟩ := of_decide_eq_true isWrong
      refine ⟨before, token, after, split, identifier, invalid, ?_⟩
      intro other member otherIdentifier
      have notWrong := earlier other member
      simpa [otherIdentifier] using notWrong

/-- How a message calls an identifier between two parts of a list of tokens: by the
keyword before it, by the parameters that are still open, or by the parenthesis after
it. -/
def describeBetween (before after : List Token) : String :=
  if before.getLast?.map Token.kind = some .defKeyword then "function name"
  else if ∀ token ∈ before, token.kind ≠ .closeParen then "parameter name"
  else if after.head?.map Token.kind = some .openParen then "callee name"
  else "variable name"

theorem describe_roleBetween (before after : List Token) :
    (roleBetween before after).describe = describeBetween before after := by
  unfold roleBetween describeBetween
  split
  · rfl
  split
  · rfl
  split <;> rfl

end Token

open Token

theorem Definition.generateProgram_eq_error_iff {tree : Definition} {violation : Violation} :
    tree.generateProgram = .error violation ↔ tree.violation? = some violation := by
  cases found : tree.violation? <;> simp [generateProgram, generate, found, Except.map]

theorem violation?_of_parse {source : String} {tokens : List Token} {tree : Definition}
    (parsed : parse source tokens = .ok tree) :
    tree.violation? = firstInvalid? (occurrences [] tokens []) := by
  obtain ⟨spelled, permitted⟩ := Parser.definition_sound (parse_eq_ok_iff.mp parsed)
  rw [Definition.violation?_eq_firstInvalid? permitted, spelled.occurrences_eq]

/-- A tree that is read is printed exactly when all the identifiers among its tokens
are names. Otherwise the message names the first that is none and says what it stands
for. No parameter is repeated in such a tree, and no call is too deep. -/
theorem generateProgram_blames_first_identifier (source : String) (tokens : List Token)
    (tree : Definition) (parsed : parse source tokens = .ok tree) :
    ((∃ script, tree.generateProgram = .ok script) ↔
      ∀ token ∈ tokens, token.kind = .identifier → IsName token.text) ∧
    ((¬ ∀ token ∈ tokens, token.kind = .identifier → IsName token.text) →
      ∃ before token after, IsFirstInvalid tokens before token after ∧
        tree.generateProgram.mapError CompileError.ofViolation = .error (CompileError.internal
          ("invalid " ++ describeBetween before after ++ " " ++ Text.quote token.text))) ∧
    ∀ violation, tree.generateProgram = .error violation →
      (∀ param function, violation ≠ .duplicateParameter param function) ∧
        violation ≠ .tooDeep := by
  have checked := violation?_of_parse parsed
  by_cases named : ∀ token ∈ tokens, token.kind = .identifier → IsName token.text
  · have printable : tree.violation? = none := by
      rw [checked, firstInvalid?_eq_none_of_names [] [] named]
    have printed := (Definition.generateProgram_of_violation?_eq_none printable).2
    refine ⟨iff_of_true ⟨_, printed⟩ named, fun wrong => absurd named wrong, ?_⟩
    simp [printed]
  · obtain ⟨before, token, after, found⟩ := exists_isFirstInvalid named
    have refused : tree.generateProgram =
        .error (.invalidName (roleBetween before after) token.text) := by
      rw [Definition.generateProgram_eq_error_iff, checked, found.firstInvalid?_eq]
    refine ⟨iff_of_false (by simp [refused]) named, fun _ => ⟨before, token, after, found, ?_⟩, ?_⟩
    · rw [refused, ← describe_roleBetween]
      rfl
    · simp [refused]

theorem generateProgram_blames_callee :
    let tokens : List Token := [⟨.defKeyword, "", 0⟩, ⟨.identifier, "f", 0⟩, ⟨.openParen, "", 0⟩,
      ⟨.identifier, "x", 0⟩, ⟨.closeParen, "", 0⟩, ⟨.identifier, "g", 0⟩, ⟨.openParen, "", 0⟩,
      ⟨.identifier, "h\n", 0⟩, ⟨.openParen, "", 0⟩, ⟨.closeParen, "", 0⟩, ⟨.comma, "", 0⟩,
      ⟨.identifier, "", 0⟩, ⟨.closeParen, "", 0⟩, ⟨.endKeyword, "", 0⟩]
    let tree : Definition := ⟨"f", ["x"], .call "g" [.call "h\n" [], .var ""]⟩
    parse "" tokens = .ok tree ∧
      (¬ ∀ token ∈ tokens, token.kind = .identifier → IsName token.text) ∧
      ∃ before token after, IsFirstInvalid tokens before token after ∧
        tree.generateProgram.mapError CompileError.ofViolation = .error (CompileError.internal
          ("invalid " ++ describeBetween before after ++ " " ++ Text.quote token.text)) := by
  intro tokens tree
  have parsed : parse "" tokens = .ok tree := by cbv
  have wrong : ¬ ∀ token ∈ tokens, token.kind = .identifier → IsName token.text := by
    decide +kernel
  exact ⟨parsed, wrong,
    (generateProgram_blames_first_identifier "" tokens tree parsed).2.1 wrong⟩

example :
    (Definition.mk "f" ["x"] (.call "g" [.call "h\n" [], .var ""])).generateProgram.mapError
      CompileError.ofViolation = .error (.internal "invalid callee name \"h\\n\"") := by
  decide +kernel

end DefLang
