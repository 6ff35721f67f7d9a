import DefLang.Proofs.LeftmostFault
import DefLang.Proofs.PrintableTrees
import DefLang.Proofs.SourceLayout

/-!
# The layout of a source does not change its outcome

The parser looks at the kinds and texts of tokens and at nothing else. It hands
on an offset only inside the token that it blames, so moving the tokens moves
the fault with them and changes nothing besides. Two lists of tokens with the
same kinds and texts come from one list, in which every token has its index as
its offset, by moving the tokens to two different places.
-/
namespace DefLang

def Token.relocate (place : Nat → Nat) (token : Token) : Token :=
  { token with offset := place token.offset }

section Token

variable (place : Nat → Nat) (token : Token)

@[simp]
theorem Token.relocate_kind : (token.relocate place).kind = token.kind := rfl

@[simp]
theorem Token.relocate_text : (token.relocate place).text = token.text := rfl

end Token

namespace Parser

def Fault.relocate (place : Nat → Nat) : Fault → Fault
  | .unexpected expected found => .unexpected expected (found.map (Token.relocate place))
  | .duplicateParameter param => .duplicateParameter (param.relocate place)
  | .integerOutOfRange literal => .integerOutOfRange (literal.relocate place)
  | .tooDeep callee => .tooDeep (callee.relocate place)

namespace Progress

/-- What is read so far, with the identifier that is remembered at another place. -/
def relocate (place : Nat → Nat) : Progress → Progress
  | identifierRead header calls identifier =>
      identifierRead header calls (identifier.relocate place)
  | progress => progress

def relocateStep (place : Nat → Nat) : Except Fault Progress → Except Fault Progress
  | .ok next => .ok (next.relocate place)
  | .error fault => .error (fault.relocate place)

section Relocate

variable (place : Nat → Nat)

@[simp]
theorem relocateStep_ok (next : Progress) :
    relocateStep place (.ok next) = .ok (next.relocate place) := rfl

@[simp]
theorem relocateStep_error (fault : Fault) :
    relocateStep place (.error fault) = .error (fault.relocate place) := rfl

@[simp]
theorem relocateStep_refuse (progress : Progress) (token : Token) :
    relocateStep place (progress.refuse token) = progress.refuse (token.relocate place) := rfl

theorem takeOperand_relocate (header : Header) (calls : List OpenCall) (token : Token) :
    takeOperand header calls (token.relocate place) =
      relocateStep place (takeOperand header calls token) := by
  by_cases integer : token.kind = .integer
  · cases parsed : Numeral.parse? token.text <;>
      simp [takeOperand, integer, parsed, relocate, Fault.relocate]
  by_cases identifier : token.kind = .identifier <;>
    simp [takeOperand, integer, identifier, relocate]

theorem takeAfter_relocate (header : Header) (calls : List OpenCall) (expr : Expr)
    (token : Token) :
    takeAfter header calls expr (token.relocate place) =
      relocateStep place (takeAfter header calls expr token) := by
  cases calls with
  | nil => by_cases ended : token.kind = .endKeyword <;> simp [takeAfter, ended, relocate]
  | cons innermost outer =>
      by_cases comma : token.kind = .comma
      · simp [takeAfter, comma, relocate]
      by_cases closing : token.kind = .closeParen <;>
        simp [takeAfter, comma, closing, relocate]

/-- Taking a token from another place leads to the same state, or to the same
fault at the other place. -/
theorem step_relocate (progress : Progress) (token : Token) :
    (progress.relocate place).step (token.relocate place) =
      relocateStep place (progress.step token) := by
  cases progress with
  | start => by_cases started : token.kind = .defKeyword <;> simp [relocate, step, started]
  | defRead =>
      by_cases identifier : token.kind = .identifier <;> simp [relocate, step, identifier]
  | nameRead name =>
      by_cases opening : token.kind = .openParen <;> simp [relocate, step, opening]
  | paramsOpened name =>
      by_cases identifier : token.kind = .identifier
      · simp [relocate, step, identifier]
      by_cases closing : token.kind = .closeParen <;> simp [relocate, step, identifier, closing]
  | paramDue name params =>
      by_cases identifier : token.kind = .identifier
      · by_cases seen : token.text ∈ params <;>
          simp [relocate, step, identifier, seen, Fault.relocate]
      · simp [relocate, step, identifier]
  | paramRead name params =>
      by_cases comma : token.kind = .comma
      · simp [relocate, step, comma]
      by_cases closing : token.kind = .closeParen <;> simp [relocate, step, comma, closing]
  | operandDue header calls => exact takeOperand_relocate place header calls token
  | identifierRead header calls identifier =>
      -- Only this state holds a token, which moves along with the one being taken.
      by_cases opening : token.kind = .openParen
      · by_cases full : calls.length = maxCallDepth <;>
          simp [relocate, step, opening, full, Fault.relocate]
      · simpa [relocate, step, opening] using
          takeAfter_relocate place header calls (.var identifier.text) token
  | callOpened header calls callee =>
      by_cases closing : token.kind = .closeParen
      · simp [relocate, step, closing]
      · simpa [relocate, step, closing] using
          takeOperand_relocate place header (⟨callee, []⟩ :: calls) token
  | exprRead header calls expr => exact takeAfter_relocate place header calls expr token
  | finished tree => rfl

theorem finish_relocate (progress : Progress) :
    (progress.relocate place).finish = progress.finish.mapError (Fault.relocate place) := by
  cases progress <;> rfl

theorem run_relocate (progress : Progress) (tokens : List Token) :
    run (progress.relocate place) (tokens.map (Token.relocate place)) =
      (run progress tokens).mapError (Fault.relocate place) := by
  induction tokens generalizing progress with
  | nil => exact finish_relocate place progress
  | cons token rest inductionHypothesis =>
      rw [List.map_cons, run_cons, run_cons, step_relocate]
      cases progress.step token with
      | error fault => rfl
      | ok next => exact inductionHypothesis next

end Relocate

end Progress

/-- Moving the tokens of a definition moves its fault and changes nothing else. -/
theorem definition_relocate (place : Nat → Nat) (tokens : List Token) :
    definition (tokens.map (Token.relocate place)) =
      (definition tokens).mapError (Fault.relocate place) := by
  rw [definition_eq_run, definition_eq_run]
  exact Progress.run_relocate place .start tokens

/-- The token that is blamed, unless it is the end of the input. -/
def Fault.token? : Fault → Option Token
  | .unexpected _ found => found
  | .duplicateParameter param => some param
  | .integerOutOfRange literal => some literal
  | .tooDeep callee => some callee

/-- The token that is blamed is one of those that were read. -/
theorem Fault.mem_of_definition_eq_error {tokens : List Token} {fault : Fault} {token : Token}
    (stopped : definition tokens = .error fault) (blamed : fault.token? = some token) :
    token ∈ tokens := by
  rw [definition_eq_run] at stopped
  rcases Progress.exists_of_run_eq_error stopped with
    ⟨reached, -, early⟩ | ⟨before, wrong, after, reached, rfl, taken, refused⟩
  · obtain rfl := Progress.finish_eq_error early
    cases blamed
  · rcases Progress.step_eq_error refused with rfl | rfl | rfl |
      ⟨header, calls, callee, rfl, rfl⟩
    all_goals obtain rfl := Option.some.inj blamed
    · simp
    · simp
    · simp
    · -- A call that nests too deeply is blamed on its name, one token earlier.
      obtain ⟨earlier, rfl⟩ := Progress.eq_append_of_foldlM_eq_identifierRead taken
      simp

section Diagnostic

variable {fault : Fault} (place : Nat → Nat) (source : String)

theorem Fault.cause_relocate (otherPlace : Nat → Nat) (other : String) :
    ((fault.relocate place).diagnostic source).cause =
      ((fault.relocate otherPlace).diagnostic other).cause := by
  rcases fault with ⟨expected, _ | found⟩ | param | literal | callee <;> rfl

theorem Fault.offset_relocate_of_token {token : Token} (blamed : fault.token? = some token) :
    ((fault.relocate place).diagnostic source).offset = place token.offset := by
  rcases fault with ⟨expected, _ | found⟩ | param | literal | callee <;> cases blamed <;> rfl

theorem Fault.offset_relocate_of_end (blamed : fault.token? = none) :
    ((fault.relocate place).diagnostic source).offset = Text.byteLength source.toList := by
  rcases fault with ⟨expected, _ | found⟩ | param | literal | callee <;> cases blamed
  rfl

end Diagnostic

end Parser

namespace Token

/-- What two tokens share that differ only in their places. -/
def spelling (token : Token) : Kind × String := (token.kind, token.text)

/-- The tokens with their indices in place of their offsets. -/
def numbered (tokens : List Token) : List Token :=
  tokens.mapIdx fun index token => token.relocate fun _ => index

def offsetAt (tokens : List Token) (index : Nat) : Nat :=
  (tokens[index]?.map Token.offset).getD 0

theorem numbered_eq_of_spelling {tokens others : List Token}
    (same : tokens.map spelling = others.map spelling) : numbered tokens = numbered others := by
  have spelled (list : List Token) : numbered list =
      (list.map spelling).mapIdx fun index (kind, text) => (⟨kind, text, index⟩ : Token) := by
    apply List.ext_getElem?
    intro index
    simp [numbered, spelling, relocate, Function.comp_def]
  rw [spelled, spelled, same]

/-- The tokens are those with their indices, moved to where they stand. -/
theorem map_relocate_numbered (tokens : List Token) :
    (numbered tokens).map (relocate (offsetAt tokens)) = tokens := by
  apply List.ext_getElem?
  intro index
  cases found : tokens[index]? with
  | none => simp [numbered, found]
  | some token => simp [numbered, found, relocate, offsetAt]

theorem exists_of_mem_numbered {tokens : List Token} {token : Token}
    (member : token ∈ numbered tokens) :
    ∃ original, tokens[token.offset]? = some original ∧
      offsetAt tokens token.offset = original.offset := by
  obtain ⟨index, inside, rfl⟩ := List.mem_mapIdx.mp member
  have found : tokens[index]? = some tokens[index] := List.getElem?_eq_getElem inside
  exact ⟨tokens[index], found, by simp [offsetAt, relocate, found]⟩

end Token

open Token

/-- A source is read as its numbered tokens are, apart from the place of a fault. -/
theorem readDefinition_eq_numbered {source : String} {tokens : List Token}
    (tokenized : tokenize source = .ok tokens) :
    readDefinition source = (Parser.definition (numbered tokens)).mapError fun fault =>
      (fault.relocate (offsetAt tokens)).diagnostic source := by
  have moved := Parser.definition_relocate (offsetAt tokens) (numbered tokens)
  rw [map_relocate_numbered] at moved
  rw [readDefinition, tokenized]
  change parse source tokens = _
  rw [parse, moved]
  cases Parser.definition (numbered tokens) <;> rfl

/-- The diagnostic shows the place of the token with an index, or the end of the
source where there is none. -/
def Diagnostic.ShownAt (source : String) (tokens : List Token) (found : Diagnostic) :
    Option Nat → Prop
  | some index => ∃ token, tokens[index]? = some token ∧
      Snippet.SamePlace source found.offset token.offset
  | none => Snippet.SamePlace source found.offset (Text.byteLength source.toList)

/-- A fault among numbered tokens is shown at the token whose number it has. -/
theorem Parser.Fault.shownAt {source : String} {tokens : List Token} {fault : Parser.Fault}
    (tokenized : tokenize source = .ok tokens)
    (stopped : Parser.definition (numbered tokens) = .error fault) :
    Diagnostic.ShownAt source tokens ((fault.relocate (offsetAt tokens)).diagnostic source)
      (fault.token?.map Token.offset) := by
  cases blamed : fault.token? with
  | none =>
      rw [Option.map_none, Diagnostic.ShownAt, Fault.offset_relocate_of_end _ _ blamed]
      exact Snippet.samePlace_of_isPlace (Or.inr (Nat.le_refl _))
  | some token =>
      obtain ⟨original, found, place⟩ :=
        exists_of_mem_numbered (Fault.mem_of_definition_eq_error stopped blamed)
      have boundary := isBoundary_of_tokenize tokenized original (List.mem_of_getElem? found)
      refine ⟨original, found, ?_⟩
      rw [Fault.offset_relocate_of_token _ _ blamed, place]
      exact Snippet.samePlace_of_isPlace (Or.inl boundary)

/-- Two sources with the same tokens, apart from their places, are compiled to
the same program, or are refused for the same cause: at the tokens with the same
index, or both at their ends. -/
theorem compile_ignores_layout (source other : String) (tokens others : List Token)
    (tokenized : tokenize source = .ok tokens) (otherTokenized : tokenize other = .ok others)
    (same : tokens.map spelling = others.map spelling) :
    (∃ script, compile source = .ok script ∧ compile other = .ok script) ∨
    ∃ found otherFound, compile source = .error (.diagnostic found) ∧
      compile other = .error (.diagnostic otherFound) ∧ found.cause = otherFound.cause ∧
      ∃ index, found.ShownAt source tokens index ∧ otherFound.ShownAt other others index := by
  have sameNumbered := numbered_eq_of_spelling same
  have read := readDefinition_eq_numbered tokenized
  have otherRead := readDefinition_eq_numbered otherTokenized
  rw [← sameNumbered] at otherRead
  cases parsed : Parser.definition (numbered tokens) with
  | ok tree =>
      rw [parsed] at read otherRead
      exact Or.inl ⟨_, compile_of_readDefinition read, compile_of_readDefinition otherRead⟩
  | error fault =>
      have shown := Parser.Fault.shownAt tokenized parsed
      have otherShown := Parser.Fault.shownAt otherTokenized (sameNumbered ▸ parsed)
      rw [parsed] at read otherRead
      exact Or.inr ⟨_, _, compile_of_readDefinition_error read,
        compile_of_readDefinition_error otherRead, Parser.Fault.cause_relocate _ _ _ _, _,
        shown, otherShown⟩

theorem compile_ignores_layout_of_repeated_parameter :
    let source := "def f(x,x"
    let tokens : List Token := [⟨.defKeyword, "def", 0⟩, ⟨.identifier, "f", 4⟩,
      ⟨.openParen, "(", 5⟩, ⟨.identifier, "x", 6⟩, ⟨.comma, ",", 7⟩, ⟨.identifier, "x", 8⟩]
    let other := "def f (\n\tx ,\n\tx"
    let others : List Token := [⟨.defKeyword, "def", 0⟩, ⟨.identifier, "f", 4⟩,
      ⟨.openParen, "(", 6⟩, ⟨.identifier, "x", 9⟩, ⟨.comma, ",", 11⟩, ⟨.identifier, "x", 14⟩]
    (tokenize source = .ok tokens ∧ tokenize other = .ok others ∧
      tokens.map spelling = others.map spelling) ∧
    ((∃ script, compile source = .ok script ∧ compile other = .ok script) ∨
      ∃ found otherFound, compile source = .error (.diagnostic found) ∧
        compile other = .error (.diagnostic otherFound) ∧ found.cause = otherFound.cause ∧
        ∃ index, found.ShownAt source tokens index ∧ otherFound.ShownAt other others index) := by
  intro source tokens other others
  have tokenized : tokenize source = .ok tokens := by decide +kernel
  have otherTokenized : tokenize other = .ok others := by decide +kernel
  have same : tokens.map spelling = others.map spelling := by decide
  exact ⟨⟨tokenized, otherTokenized, same⟩,
    compile_ignores_layout source other tokens others tokenized otherTokenized same⟩

end DefLang
