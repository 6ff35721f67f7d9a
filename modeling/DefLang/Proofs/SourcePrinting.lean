import DefLang.Proofs.NumeralReading
import DefLang.Proofs.PrintableTrees

/-!
# Printing a tree as a source

A tree has a source exactly when it can be printed, none of its names is a
keyword and none of its integers is negative. Its source is the printed body
with the other tokens around it, and reading that source gives the tree back.
The round trip is shown for a text in any place: the tokens of a printed
expression come out before those of whatever follows, as long as that does not
extend the last word.
-/
namespace DefLang

/-- What the integer tokens among some tokens are read as. -/
def Token.literalValues (tokens : List Token) : List (Option Int64) :=
  (tokens.filter fun token => token.kind = .integer).map fun literal =>
    Numeral.parse? literal.text

namespace Expr

mutual

/-- The integers in an expression, in the order of their tokens. -/
def integers : Expr → List Int64
  | .integer value => [value]
  | .var _ => []
  | .call _ args => argIntegers args

/-- The integers in several expressions. -/
def argIntegers : List Expr → List Int64
  | [] => []
  | arg :: rest => integers arg ++ argIntegers rest

end

mutual

/-- The integers in an expression are the values of its integer tokens. -/
theorem Spells.literalValues_eq {expr : Expr} {tokens : List Token}
    (spelled : Spells expr tokens) : Token.literalValues tokens = expr.integers.map some := by
  cases spelled with
  | integer kind parsed => simp [Token.literalValues, integers, kind, parsed]
  | var kind => simp [Token.literalValues, integers, kind]
  | call calleeKind openingKind argsSpelled closingKind =>
      have inner := argsSpelled.literalValues_eq
      simp only [Token.literalValues] at inner
      simp [Token.literalValues, integers, calleeKind, openingKind, closingKind, inner]

theorem SpellsArgs.literalValues_eq {args : List Expr} {tokens : List Token}
    (spelled : SpellsArgs args tokens) :
    Token.literalValues tokens = (argIntegers args).map some := by
  cases spelled with
  | none => rfl
  | single argSpelled => simp [argIntegers, argSpelled.literalValues_eq]
  | cons argSpelled commaKind continued =>
      have first := argSpelled.literalValues_eq
      have later := continued.literalValues_eq
      simp only [Token.literalValues] at first later
      simp [Token.literalValues, argIntegers, commaKind, first, later]

end

end Expr

/-- A text that an identifier in a source may have. -/
def IsIdentifier (text : String) : Prop :=
  Script.IsName text ∧ text ≠ "def" ∧ text ≠ "end"

theorem admits_identifier_iff {text : String} :
    Token.Kind.identifier.Admits text.toList ↔ IsIdentifier text := by
  have defText : text = "def" ↔ text.toList = ['d', 'e', 'f'] := by
    rw [← String.toList_inj]
    rfl
  have endText : text = "end" ↔ text.toList = ['e', 'n', 'd'] := by
    rw [← String.toList_inj]
    rfl
  simp only [IsIdentifier, Script.IsName, Token.Kind.Admits, ne_eq, defText, endText, and_assoc]

/-- A tree that some source spells. -/
structure Definition.Writable (tree : Definition) : Prop where
  name : IsIdentifier tree.name
  params : ∀ param ∈ tree.params, IsIdentifier param
  bodyNames : ∀ name ∈ tree.body.names, IsIdentifier name
  distinct : tree.params.Nodup
  nonnegative : ∀ value ∈ tree.body.integers, 0 ≤ value.toInt
  shallow : tree.body.callDepth ≤ maxCallDepth

/-- The source of a definition with the given text of its body. -/
def Definition.sourceWith (tree : Definition) (body : String) : String :=
  "def " ++ tree.name ++ "(" ++ String.intercalate "," tree.params ++ ") " ++ body ++ " end"

namespace Token

theorem scan_of_text {kind : Kind} {text : String} {rest : List Char} (offset : Nat)
    (admitted : kind.Admits text.toList) (ended : kind.isWord → EndsWord rest) :
    scan offset (text.toList ++ rest) =
      (⟨kind, text, offset⟩ :: ·) <$>
        scan (offset + Text.byteLength text.toList) rest := by
  simpa using scan_of_admits offset admitted ended

theorem scan_mark {kind : Kind} {mark : Char} (offset : Nat) (rest : List Char)
    (admitted : kind.Admits [mark]) (noWord : kind.isWord = false) :
    scan offset (mark :: rest) =
      (⟨kind, String.ofList [mark], offset⟩ :: ·) <$> scan (offset + mark.utf8Size) rest := by
  have ended : kind.isWord → EndsWord rest := by simp [noWord]
  simpa using scan_of_admits offset admitted ended

/-- Wherever the text stands, and whatever follows without extending a word, its
own tokens come out first and have the given property. -/
def ReadsAs (text : List Char) (Spelled : List Token → Prop) : Prop :=
  ∀ offset rest, EndsWord rest → ∃ tokens, Spelled tokens ∧
    scan offset (text ++ rest) =
      (tokens ++ ·) <$> scan (offset + Text.byteLength text) rest

section ReadsAs

variable {text later : List Char} {First Second : List Token → Prop}

theorem ReadsAs.mono (reads : ReadsAs text First)
    (implies : ∀ tokens, First tokens → Second tokens) : ReadsAs text Second := by
  intro offset rest ended
  obtain ⟨tokens, spelled, scanned⟩ := reads offset rest ended
  exact ⟨tokens, implies tokens spelled, scanned⟩

theorem readsAs_nil (empty : First []) : ReadsAs [] First := by
  intro offset rest _
  exact ⟨[], empty, by simp⟩

theorem readsAs_text {kind : Kind} {word : String} (admitted : kind.Admits word.toList) :
    ReadsAs word.toList fun tokens =>
      ∃ token, tokens = [token] ∧ token.kind = kind ∧ token.text = word := by
  intro offset rest ended
  refine ⟨[⟨kind, word, offset⟩], ⟨_, rfl, rfl, rfl⟩, ?_⟩
  exact scan_of_text offset admitted fun _ => ended

theorem ReadsAs.append_comma (first : ReadsAs text First) (second : ReadsAs later Second) :
    ReadsAs (text ++ ',' :: later) fun tokens =>
      ∃ before comma after, tokens = before ++ comma :: after ∧ First before ∧
        comma.kind = .comma ∧ Second after := by
  intro offset rest ended
  obtain ⟨before, beforeSpelled, beforeScanned⟩ :=
    first offset (',' :: (later ++ rest)) (endsWord_cons (by decide))
  obtain ⟨after, afterSpelled, afterScanned⟩ :=
    second (offset + Text.byteLength text + ','.utf8Size) rest ended
  let comma : Token := ⟨.comma, String.ofList [','], offset + Text.byteLength text⟩
  have commaScanned : scan comma.offset (',' :: (later ++ rest)) =
      (comma :: ·) <$> scan (comma.offset + ','.utf8Size) (later ++ rest) :=
    scan_mark _ _ rfl rfl
  refine ⟨before ++ comma :: after,
    ⟨before, comma, after, rfl, beforeSpelled, rfl, afterSpelled⟩, ?_⟩
  rw [List.append_assoc, List.cons_append, beforeScanned, commaScanned, afterScanned]
  simp [comma, Nat.add_assoc]

theorem ReadsAs.append_space (first : ReadsAs text First) (second : ReadsAs later Second) :
    ReadsAs (text ++ ' ' :: later) fun tokens =>
      ∃ before after, tokens = before ++ after ∧ First before ∧ Second after := by
  intro offset rest ended
  obtain ⟨before, beforeSpelled, beforeScanned⟩ :=
    first offset (' ' :: (later ++ rest)) (endsWord_cons (by decide))
  obtain ⟨after, afterSpelled, afterScanned⟩ :=
    second (offset + Text.byteLength text + ' '.utf8Size) rest ended
  refine ⟨before ++ after, ⟨before, after, rfl, beforeSpelled, afterSpelled⟩, ?_⟩
  rw [List.append_assoc, List.cons_append, beforeScanned, scan_of_space (by decide),
    afterScanned]
  simp [Nat.add_assoc]

theorem ReadsAs.applied {name : String} (identifier : IsIdentifier name)
    (inner : ReadsAs text First) :
    ReadsAs (name.toList ++ '(' :: (text ++ [')'])) fun tokens =>
      ∃ head opening inside closing, tokens = head :: opening :: inside ++ [closing] ∧
        head.kind = .identifier ∧ head.text = name ∧ opening.kind = .openParen ∧
        First inside ∧ closing.kind = .closeParen := by
  intro offset rest _
  let head : Token := ⟨.identifier, name, offset⟩
  let opening : Token := ⟨.openParen, String.ofList ['('], offset + Text.byteLength name.toList⟩
  obtain ⟨inside, spelled, scanned⟩ :=
    inner (opening.offset + '('.utf8Size) (')' :: rest) (endsWord_cons (by decide))
  let closing : Token :=
    ⟨.closeParen, String.ofList [')'], opening.offset + '('.utf8Size + Text.byteLength text⟩
  have headScanned : scan offset (name.toList ++ '(' :: (text ++ ')' :: rest)) =
      (head :: ·) <$> scan opening.offset ('(' :: (text ++ ')' :: rest)) :=
    scan_of_text offset (admits_identifier_iff.mpr identifier)
      fun _ => endsWord_cons (by decide)
  have openingScanned : scan opening.offset ('(' :: (text ++ ')' :: rest)) =
      (opening :: ·) <$> scan (opening.offset + '('.utf8Size) (text ++ ')' :: rest) :=
    scan_mark _ _ rfl rfl
  have closingScanned : scan closing.offset (')' :: rest) =
      (closing :: ·) <$> scan (closing.offset + ')'.utf8Size) rest :=
    scan_mark _ _ rfl rfl
  refine ⟨head :: opening :: inside ++ [closing],
    ⟨head, opening, inside, closing, rfl, rfl, rfl, rfl, spelled, rfl⟩, ?_⟩
  simp only [List.append_assoc, List.cons_append, List.nil_append]
  rw [headScanned, openingScanned, scanned, closingScanned]
  simp [closing, opening, Nat.add_assoc]

theorem ReadsAs.exists_tokenize {source : String} (reads : ReadsAs source.toList First) :
    ∃ tokens, tokenize source = .ok tokens ∧ First tokens := by
  obtain ⟨tokens, spelled, scanned⟩ := reads 0 [] endsWord_nil
  refine ⟨tokens, ?_, spelled⟩
  rw [tokenize, ← List.append_nil source.toList, scanned, scan_nil]
  simp

end ReadsAs

end Token

open Token

namespace Expr

theorem toList_render_call (callee : String) (args : List Expr) :
    (render (.call callee args)).toList =
      callee.toList ++ '(' :: ((String.intercalate "," (renderArgs args)).toList ++ [')']) := by
  simp [render]

theorem toList_intercalate_cons (first next : String) (later : List String) :
    (String.intercalate "," (first :: next :: later)).toList =
      first.toList ++ ',' :: (String.intercalate "," (next :: later)).toList := by
  simp [String.intercalate_cons_cons]

mutual

theorem readsAs_render (expr : Expr) (identifiers : ∀ name ∈ expr.names, IsIdentifier name)
    (nonnegative : ∀ value ∈ expr.integers, 0 ≤ value.toInt) :
    ReadsAs expr.render.toList expr.Spells := by
  cases expr with
  | integer value =>
      have digits := Numeral.render_all_isDigit (nonnegative value (by simp [integers]))
      have admitted : Kind.integer.Admits (Numeral.render value).toList := digits
      rw [render]
      apply (readsAs_text admitted).mono
      rintro _ ⟨token, rfl, kind, text⟩
      exact .integer kind (by rw [text, Numeral.parse?_render])
  | var name =>
      have admitted := admits_identifier_iff.mpr (identifiers name (by simp [names]))
      rw [render]
      apply (readsAs_text admitted).mono
      rintro _ ⟨token, rfl, kind, rfl⟩
      exact .var kind
  | call callee args =>
      have inner := readsAs_renderArgs args
        (fun name member => identifiers name (by simp [names, member]))
        (fun value member => nonnegative value (by simpa [integers] using member))
      rw [toList_render_call]
      apply (inner.applied (identifiers callee (by simp [names]))).mono
      rintro _ ⟨head, opening, inside, closing, rfl, headKind, rfl, openingKind, spelled,
        closingKind⟩
      exact .call headKind openingKind spelled closingKind

theorem readsAs_renderArgs (args : List Expr)
    (identifiers : ∀ name ∈ argNames args, IsIdentifier name)
    (nonnegative : ∀ value ∈ argIntegers args, 0 ≤ value.toInt) :
    ReadsAs (String.intercalate "," (renderArgs args)).toList (SpellsArgs args) := by
  cases args with
  | nil => exact readsAs_nil .none
  | cons arg rest =>
      have first := readsAs_render arg
        (fun name member => identifiers name (by simp [argNames, member]))
        (fun value member => nonnegative value (by simp [argIntegers, member]))
      have later := readsAs_renderArgs rest
        (fun name member => identifiers name (by simp [argNames, member]))
        (fun value member => nonnegative value (by simp [argIntegers, member]))
      cases rest with
      | nil =>
          rw [renderArgs, renderArgs, String.intercalate_singleton]
          exact first.mono fun tokens spelled => .single spelled
      | cons next rest =>
          rw [renderArgs, renderArgs, toList_intercalate_cons]
          rw [renderArgs] at later
          apply (first.append_comma later).mono
          rintro _ ⟨before, comma, after, rfl, spelled, commaKind, continued⟩
          exact .cons spelled commaKind continued

end

end Expr

namespace Definition

theorem readsAs_params (params : List String)
    (identifiers : ∀ param ∈ params, IsIdentifier param) :
    ReadsAs (String.intercalate "," params).toList (SpellsParams params) := by
  induction params with
  | nil => exact readsAs_nil .none
  | cons param rest inductionHypothesis =>
      have later := inductionHypothesis fun name member => identifiers name (by simp [member])
      have first := readsAs_text (admits_identifier_iff.mpr (identifiers param (by simp)))
      cases rest with
      | nil =>
          rw [String.intercalate_singleton]
          apply first.mono
          rintro _ ⟨token, rfl, kind, rfl⟩
          exact .single kind
      | cons next rest =>
          rw [Expr.toList_intercalate_cons]
          apply (first.append_comma later).mono
          rintro _ ⟨_, comma, after, rfl, ⟨token, rfl, kind, rfl⟩, commaKind, continued⟩
          exact .cons kind commaKind continued

theorem toList_sourceWith (tree : Definition) (body : String) :
    (tree.sourceWith body).toList =
      "def".toList ++ ' ' :: (tree.name.toList ++
        '(' :: ((String.intercalate "," tree.params).toList ++ [')']) ++
        ' ' :: (body.toList ++ ' ' :: "end".toList)) := by
  simp [sourceWith]

/-- Around the tokens of its body, a source has the tokens that make a definition of
any expression. -/
theorem exists_tokenize_sourceWith {tree : Definition} {text : String}
    {Spelled : List Token → Prop} (name : IsIdentifier tree.name)
    (params : ∀ param ∈ tree.params, IsIdentifier param)
    (body : ReadsAs text.toList Spelled) :
    ∃ header inner finish, tokenize (tree.sourceWith text) = .ok (header ++ inner ++ [finish]) ∧
      Spelled inner ∧ ∀ expr tokens, Expr.Spells expr tokens →
        Spells ⟨tree.name, tree.params, expr⟩ (header ++ tokens ++ [finish]) := by
  have start : ReadsAs "def".toList fun tokens =>
      ∃ token, tokens = [token] ∧ token.kind = .defKeyword ∧ token.text = "def" :=
    readsAs_text rfl
  have header := (readsAs_params tree.params params).applied name
  have finish : ReadsAs "end".toList fun tokens =>
      ∃ token, tokens = [token] ∧ token.kind = .endKeyword ∧ token.text = "end" :=
    readsAs_text rfl
  have whole := start.append_space (header.append_space (body.append_space finish))
  rw [← toList_sourceWith] at whole
  obtain ⟨_, tokenized, _, _, rfl, ⟨start, rfl, startKind, -⟩, _, _, rfl,
    ⟨name, opening, params, closing, rfl, nameKind, nameText, openingKind, paramsSpelled,
      closingKind⟩,
    inner, _, rfl, spelled, finish, rfl, finishKind, -⟩ := whole.exists_tokenize
  refine ⟨start :: name :: opening :: params ++ [closing], inner, finish, ?_, spelled, ?_⟩
  · rw [tokenized]
    simp
  · intro expr tokens exprSpelled
    have made := Spells.intro startKind nameKind openingKind paramsSpelled closingKind
      exprSpelled finishKind
    rw [nameText] at made
    simpa using made

theorem SpellsParams.literalValues_eq {params : List String} {tokens : List Token}
    (spelled : SpellsParams params tokens) : literalValues tokens = [] := by
  induction spelled with
  | none => rfl
  | single kind => simp [literalValues, kind]
  | cons kind commaKind continued inductionHypothesis =>
      simpa [literalValues, kind, commaKind] using inductionHypothesis

theorem Spells.literalValues_eq {tree : Definition} {tokens : List Token}
    (spelled : tree.Spells tokens) : literalValues tokens = tree.body.integers.map some := by
  cases spelled with
  | intro startKind nameKind openingKind paramsSpelled closingKind bodySpelled finishKind =>
      have params := paramsSpelled.literalValues_eq
      have body := bodySpelled.literalValues_eq
      simp only [literalValues, List.map_eq_nil_iff] at params body
      simp [literalValues, startKind, nameKind, openingKind, closingKind, finishKind, params, body]

theorem Spells.exists_literal {tree : Definition} {tokens : List Token}
    (spelled : tree.Spells tokens) : ∀ value ∈ tree.body.integers,
      ∃ literal ∈ tokens, literal.kind = .integer ∧
        Numeral.parse? literal.text = some value := by
  intro value member
  have read : some value ∈ literalValues tokens := by
    simpa [spelled.literalValues_eq] using member
  obtain ⟨literal, isLiteral, parsed⟩ := List.mem_map.mp read
  obtain ⟨inTokens, kind⟩ := List.mem_filter.mp isLiteral
  exact ⟨literal, inTokens, by simpa using kind, parsed⟩

theorem writable_of_parse {source : String} {tokens : List Token} {tree : Definition}
    (tokenized : tokenize source = .ok tokens) (parsed : parse source tokens = .ok tree) :
    tree.Writable := by
  obtain ⟨spelled, distinct, shallow⟩ := Parser.definition_sound (parse_eq_ok_iff.mp parsed)
  have identifiers : ∀ name ∈ tree.names, IsIdentifier name := fun name member =>
    admits_identifier_iff.mp (admits_of_mem_names tokenized spelled name member)
  refine ⟨identifiers tree.name (by simp [names]), ?_, ?_, distinct, ?_, shallow⟩
  · intro param member
    exact identifiers param (by simp [names, member])
  · intro name member
    exact identifiers name (by simp [names, member])
  · intro value member
    obtain ⟨literal, inTokens, kind, read⟩ := spelled.exists_literal value member
    have admitted := admits_of_tokenize tokenized literal inTokens
    rw [kind] at admitted
    exact Numeral.nonneg_of_digits admitted.1 admitted.2 read

theorem generate_body {tree : Definition} (writable : tree.Writable) :
    tree.body.generate = .ok tree.body.render := by
  have printable : tree.body.violation? 0 = none := by
    rw [Expr.violation?_eq_none_iff]
    refine ⟨fun name member => (writable.bodyNames name member).1, ?_⟩
    intro _
    simpa using writable.shallow
  simp [Expr.generate, printable]

theorem exists_parse_sourceWith {tree : Definition} (writable : tree.Writable) :
    ∃ tokens, tokenize (tree.sourceWith tree.body.render) = .ok tokens ∧
      parse (tree.sourceWith tree.body.render) tokens = .ok tree := by
  obtain ⟨header, inner, finish, tokenized, spelled, made⟩ :=
    exists_tokenize_sourceWith writable.name writable.params
      (tree.body.readsAs_render writable.bodyNames writable.nonnegative)
  refine ⟨_, tokenized, ?_⟩
  rw [parse_eq_ok_iff]
  exact Parser.definition_of_spells (made tree.body inner spelled)
    ⟨writable.distinct, writable.shallow⟩

/-- The trees that sources are read as are exactly those with a source, and
reading undoes printing: the printed source of such a tree is read as the tree
itself. -/
theorem exists_source_iff_writable (tree : Definition) :
    ((∃ source tokens, tokenize source = .ok tokens ∧ parse source tokens = .ok tree) ↔
      tree.Writable) ∧
    (tree.Writable → ∃ body, tree.body.generate = .ok body ∧
      ∃ tokens, tokenize (tree.sourceWith body) = .ok tokens ∧
        parse (tree.sourceWith body) tokens = .ok tree) := by
  refine ⟨⟨?_, ?_⟩, ?_⟩
  · rintro ⟨source, tokens, tokenized, parsed⟩
    exact writable_of_parse tokenized parsed
  · intro writable
    exact ⟨_, exists_parse_sourceWith writable⟩
  · intro writable
    exact ⟨_, generate_body writable, exists_parse_sourceWith writable⟩

end Definition

end DefLang
