import DefLang.Proofs.NumeralReading
import DefLang.Proofs.PrintableTrees

/-!
# A program keeps the texts of its source

Reading builds a tree and printing flattens it again, with its own commas and
parentheses. The marks that are printed are those that were read, since every
token of the grammar has a part in the text and a mark has only one spelling.
Integers alone may change: they are printed without leading zeros.
-/
namespace DefLang

namespace Token

/-- The text of a token in a program. -/
def printed (token : Token) : String :=
  if token.kind = .integer then String.ofList (Numeral.stripZeros token.text.toList)
  else token.text

def joined (textOf : Token → String) (tokens : List Token) : String :=
  String.join (tokens.map textOf)

/-- Every token has a text that its kind admits. -/
def AllAdmitted (tokens : List Token) : Prop :=
  ∀ token ∈ tokens, token.kind.Admits token.text.toList

section Texts

variable {textOf : Token → String} {token : Token} {tokens before after : List Token}

@[simp]
theorem joined_nil : joined textOf [] = "" := by
  simp [joined]

@[simp]
theorem joined_cons : joined textOf (token :: tokens) = textOf token ++ joined textOf tokens := by
  simp [joined]

@[simp]
theorem joined_append :
    joined textOf (before ++ after) = joined textOf before ++ joined textOf after := by
  simp [joined]

theorem allAdmitted_cons :
    AllAdmitted (token :: tokens) ↔ token.kind.Admits token.text.toList ∧ AllAdmitted tokens :=
  List.forall_mem_cons

theorem allAdmitted_append :
    AllAdmitted (before ++ after) ↔ AllAdmitted before ∧ AllAdmitted after :=
  List.forall_mem_append

theorem printed_of_kind {kind : Kind} (isKind : token.kind = kind) (noInteger : kind ≠ .integer) :
    token.printed = token.text := by
  rw [printed, if_neg (by rwa [isKind])]

/-- A mark has only one spelling. -/
theorem text_of_mark {kind : Kind} {mark : String}
    (admitted : token.kind.Admits token.text.toList) (isKind : token.kind = kind)
    (spelling : kind.Admits token.text.toList → token.text.toList = mark.toList) :
    token.text = mark := by
  rw [isKind] at admitted
  exact String.toList_inj.mp (spelling admitted)

theorem text_of_openParen (admitted : token.kind.Admits token.text.toList)
    (isOpening : token.kind = .openParen) : token.text = "(" :=
  text_of_mark admitted isOpening id

theorem text_of_closeParen (admitted : token.kind.Admits token.text.toList)
    (isClosing : token.kind = .closeParen) : token.text = ")" :=
  text_of_mark admitted isClosing id

theorem text_of_comma (admitted : token.kind.Admits token.text.toList)
    (isComma : token.kind = .comma) : token.text = "," :=
  text_of_mark admitted isComma id

end Texts

end Token

open Token

theorem Definition.SpellsParams.joined_eq {params : List String} {tokens : List Token}
    (spelled : SpellsParams params tokens) (admitted : AllAdmitted tokens) :
    joined text tokens = String.intercalate "," params := by
  induction spelled with
  | none => rfl
  | single kind => simp
  | @cons param comma next later rest kind commaKind continued inductionHypothesis =>
      obtain ⟨-, fromComma⟩ := allAdmitted_cons.mp admitted
      obtain ⟨commaAdmitted, restAdmitted⟩ := allAdmitted_cons.mp fromComma
      have commaText := text_of_comma commaAdmitted commaKind
      rw [joined_cons, joined_cons, commaText, inductionHypothesis restAdmitted,
        String.intercalate_cons_cons, String.append_assoc]

namespace Expr

mutual

/-- The text of an expression is that of the tokens that spell it. -/
theorem Spells.joined_eq {expr : Expr} {tokens : List Token}
    (spelled : Spells expr tokens) (admitted : AllAdmitted tokens) :
    joined printed tokens = expr.render := by
  cases spelled with
  | @integer literal value kind parsed =>
      obtain ⟨literalAdmitted, -⟩ := allAdmitted_cons.mp admitted
      rw [kind] at literalAdmitted
      -- The value forgets how many zeros were in front; its numeral has none.
      have written := Numeral.toList_render_of_digits literalAdmitted.1 literalAdmitted.2 parsed
      rw [joined_cons, joined_nil, String.append_empty, printed, if_pos kind,
        ← written, String.ofList_toList, render]
  | var kind =>
      rw [joined_cons, joined_nil, String.append_empty,
        printed_of_kind kind (by decide), render]
  | @call callee opening closing args inner calleeKind openingKind argsSpelled closingKind =>
      simp only [List.cons_append, allAdmitted_cons, allAdmitted_append] at admitted
      obtain ⟨-, openingAdmitted, innerAdmitted, closingAdmitted, -⟩ := admitted
      have openingText := text_of_openParen openingAdmitted openingKind
      have closingText := text_of_closeParen closingAdmitted closingKind
      have innerText := argsSpelled.joined_eq innerAdmitted
      simp only [List.cons_append, joined_cons, joined_append, joined_nil,
        printed_of_kind calleeKind (by decide), printed_of_kind openingKind (by decide),
        printed_of_kind closingKind (by decide), openingText, closingText, innerText, render,
        String.append_empty, String.append_assoc]

theorem SpellsArgs.joined_eq {args : List Expr} {tokens : List Token}
    (spelled : SpellsArgs args tokens) (admitted : AllAdmitted tokens) :
    joined printed tokens = String.intercalate "," (renderArgs args) := by
  cases spelled with
  | none => rfl
  | single argSpelled =>
      rw [argSpelled.joined_eq admitted, renderArgs, renderArgs,
        String.intercalate_singleton]
  | @cons arg next later comma tokens rest argSpelled commaKind continued =>
      obtain ⟨argAdmitted, fromComma⟩ := allAdmitted_append.mp admitted
      obtain ⟨commaAdmitted, restAdmitted⟩ := allAdmitted_cons.mp fromComma
      have commaText := text_of_comma commaAdmitted commaKind
      have restText := continued.joined_eq restAdmitted
      rw [renderArgs] at restText
      rw [joined_append, joined_cons, printed_of_kind commaKind (by decide),
        commaText, argSpelled.joined_eq argAdmitted, restText, renderArgs, renderArgs,
        String.intercalate_cons_cons, String.append_assoc]

end

end Expr

namespace Definition

/-- The tokens between the keywords at the two ends are the header, up to the
first closing parenthesis, and then the body. -/
structure Divides (tokens header body : List Token) (closing : Nat) : Prop where
  headKind : tokens.head?.map Token.kind = some .defKeyword
  lastKind : tokens.getLast?.map Token.kind = some .endKeyword
  found : tokens.findIdx? (fun token => token.kind = .closeParen) = some closing
  header_eq : tokens.extract 1 (closing + 1) = header
  body_eq : tokens.extract (closing + 1) (tokens.length - 1) = body

theorem divides_append {start finish closing : Token} {before body : List Token}
    (startKind : start.kind = .defKeyword) (finishKind : finish.kind = .endKeyword)
    (noClosing : ∀ token ∈ before, token.kind ≠ .closeParen)
    (closingKind : closing.kind = .closeParen) :
    Divides (start :: ((before ++ [closing]) ++ (body ++ [finish]))) (before ++ [closing]) body
      (before ++ [closing]).length where
  headKind := by simp [startKind]
  lastKind := by
    rw [← List.append_assoc, ← List.cons_append, List.getLast?_concat]
    simp [finishKind]
  found := by
    have nothing : before.findIdx? (fun token => token.kind = .closeParen) = none := by
      simpa using noClosing
    simp [List.findIdx?_cons, List.findIdx?_append, startKind, closingKind, nothing]
  header_eq := by
    rw [List.extract_eq_take_drop, Nat.add_sub_cancel, List.drop_one, List.tail_cons,
      List.take_left]
  body_eq := by
    have size : (start :: ((before ++ [closing]) ++ (body ++ [finish]))).length - 1 -
        ((before ++ [closing]).length + 1) = body.length := by
      simp only [List.length_cons, List.length_append, List.length_nil]
      omega
    rw [List.extract_eq_take_drop, size, List.drop_succ_cons, List.drop_left, List.take_left]

/-- The text of a definition is that of its tokens around the fixed words. -/
theorem Spells.exists_divides {tree : Definition} {tokens : List Token}
    (spelled : tree.Spells tokens) (admitted : AllAdmitted tokens) :
    ∃ header body closing, Divides tokens header body closing ∧
      tree.render = "function " ++ joined text header ++ " \x7b return " ++ joined printed body ++
        " \x7d;" := by
  cases spelled with
  | @intro start name opening closing finish params body paramTokens bodyTokens startKind
      nameKind openingKind paramsSpelled closingKind bodySpelled finishKind =>
      have whole : start :: name :: opening :: paramTokens ++ closing :: bodyTokens ++ [finish] =
          start :: ((name :: opening :: paramTokens ++ [closing]) ++
            (bodyTokens ++ [finish])) := by simp
      -- No parameter is a parenthesis, so the first closing one ends the header.
      have noClosing : ∀ token ∈ name :: opening :: paramTokens, token.kind ≠ .closeParen := by
        simpa [nameKind, openingKind] using paramsSpelled.kind_ne_closeParen
      rw [whole] at admitted ⊢
      refine ⟨_, _, _, divides_append startKind finishKind noClosing closingKind, ?_⟩
      simp only [List.cons_append, allAdmitted_cons, allAdmitted_append] at admitted
      obtain ⟨-, -, openingAdmitted, ⟨paramsAdmitted, closingAdmitted, -⟩, bodyAdmitted, -⟩ :=
        admitted
      have openingText := text_of_openParen openingAdmitted openingKind
      have closingText := text_of_closeParen closingAdmitted closingKind
      have headerText : joined text (name :: opening :: paramTokens ++ [closing]) =
          name.text ++ "(" ++ String.intercalate "," params ++ ")" := by
        simp only [List.cons_append, joined_append, joined_cons, joined_nil, openingText,
          closingText, paramsSpelled.joined_eq paramsAdmitted, String.append_empty,
          String.append_assoc]
      rw [headerText, bodySpelled.joined_eq bodyAdmitted, render_eq]

end Definition

/-- A program is its source token by token: the fixed lines, and between them the
texts of the header and of the body as they stand in the source, where integers
have lost their leading zeros. Only the keywords at the two ends are left out. -/
theorem compile_keeps_texts (source script : String) (compiled : compile source = .ok script) :
    ∃ tokens closing, tokenize source = .ok tokens ∧
      tokens.head?.map Token.kind = some .defKeyword ∧
      tokens.getLast?.map Token.kind = some .endKeyword ∧
      tokens.findIdx? (fun token => token.kind = .closeParen) = some closing ∧
      script = Script.runtime ++ "\n" ++
        ("function " ++ joined text (tokens.extract 1 (closing + 1)) ++ " \x7b return " ++
          joined printed (tokens.extract (closing + 1) (tokens.length - 1)) ++ " \x7d;") ++
        "\n" ++ Script.invocation := by
  obtain ⟨tree, read, rfl⟩ := compile_eq_ok_iff.mp compiled
  obtain ⟨tokens, tokenized, parsed⟩ := readDefinition_eq_ok_iff.mp read
  obtain ⟨spelled, -⟩ := Parser.definition_sound (parse_eq_ok_iff.mp parsed)
  obtain ⟨header, body, closing, divided, rendered⟩ :=
    spelled.exists_divides (admits_of_tokenize tokenized)
  refine ⟨tokens, closing, tokenized, divided.headKind, divided.lastKind, divided.found, ?_⟩
  rw [divided.header_eq, divided.body_eq, ← rendered, Script.program]

theorem compile_keeps_texts_of_nested_calls :
    let source := "def f(x)\n g(h(), 07)\nend"
    let script := Script.program "function f(x) \x7b return g(h(),7) \x7d;"
    compile source = .ok script ∧
      ∃ tokens closing, tokenize source = .ok tokens ∧
        tokens.head?.map Token.kind = some .defKeyword ∧
        tokens.getLast?.map Token.kind = some .endKeyword ∧
        tokens.findIdx? (fun token => token.kind = .closeParen) = some closing ∧
        script = Script.runtime ++ "\n" ++
          ("function " ++ joined text (tokens.extract 1 (closing + 1)) ++ " \x7b return " ++
            joined printed (tokens.extract (closing + 1) (tokens.length - 1)) ++ " \x7d;") ++
          "\n" ++ Script.invocation := by
  intro source script
  have compiled : compile source = .ok script := by decide +kernel
  exact ⟨compiled, compile_keeps_texts source script compiled⟩

end DefLang
