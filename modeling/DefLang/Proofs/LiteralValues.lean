import DefLang.Proofs.LeftmostFault
import DefLang.Proofs.SourcePrinting
import Mathlib.Data.Nat.Digits.Defs
import Mathlib.Tactic.Ring

/-!
# The values of integer literals

An integer token is read as the number that its digits stand for by their
positions, however many there are, and is refused exactly when that number does
not fit in 64 bits or the text is no numeral. The parser adds nothing to this: the
integers of a tree are the values of its integer tokens in order, and a token
without a value is blamed wherever an integer may stand.
-/
namespace DefLang

namespace Numeral

/-- The number that decimal digits stand for by their positions. -/
def decimal (digits : List Char) : Nat :=
  Nat.ofDigits 10 (digits.map fun digit => digit.toNat - '0'.toNat).reverse

def IsDecimal (digits : List Char) : Prop := digits ≠ [] ∧ digits.all Char.isDigit

/-- The text is decimal digits after at most one sign, with the given value. -/
inductive Denotes : List Char → Int → Prop where
  | unsigned {digits : List Char} (isDecimal : IsDecimal digits) :
      Denotes digits (decimal digits)
  | plus {digits : List Char} (isDecimal : IsDecimal digits) :
      Denotes ('+' :: digits) (decimal digits)
  | minus {digits : List Char} (isDecimal : IsDecimal digits) :
      Denotes ('-' :: digits) (-decimal digits)

/-- The text is no numeral, or its value is not within 64 bits. -/
def LacksValue (text : String) : Prop :=
  ∀ value, Denotes text.toList value → value < -2 ^ 63 ∨ 2 ^ 63 - 1 < value

theorem ofDigitChars_eq (digits : List Char) (number : Nat) :
    Nat.ofDigitChars 10 digits number = 10 ^ digits.length * number + decimal digits := by
  induction digits generalizing number with
  | nil => simp [decimal]
  | cons first digits inductionHypothesis =>
      rw [Nat.ofDigitChars_cons, inductionHypothesis, decimal, decimal, List.map_cons,
        Nat.ofDigits_reverse_cons, List.length_map, List.length_cons]
      ring

theorem ofDigitChars_zero (digits : List Char) :
    Nat.ofDigitChars 10 digits 0 = decimal digits := by
  rw [ofDigitChars_eq, Nat.mul_zero, Nat.zero_add]

theorem natural?_eq_some_iff {digits : List Char} {number : Nat} :
    natural? digits = some number ↔ IsDecimal digits ∧ decimal digits = number := by
  rw [natural?, ofDigitChars_zero, IsDecimal, Option.ite_none_right_eq_some, Option.some.injEq]

theorem integer?_eq_some_iff {text : List Char} {value : Int} :
    integer? text = some value ↔ Denotes text value := by
  constructor
  · intro read
    unfold integer? at read
    split at read
    all_goals
      obtain ⟨_, lifted, rfl⟩ := Option.map_eq_some_iff.mp read
      obtain ⟨number, natural, cast⟩ := Option.bind_eq_some_iff.mp lifted
      obtain ⟨isDecimal, rfl⟩ := natural?_eq_some_iff.mp natural
      obtain rfl := Option.some.inj cast
    · exact .plus isDecimal
    · exact .minus isDecimal
    · exact .unsigned isDecimal
  · intro denotes
    cases denotes with
    | unsigned isDecimal =>
        rw [integer?_of_digits isDecimal.1 isDecimal.2, ofDigitChars_zero]
    | plus isDecimal => simp [integer?, natural?_eq_some_iff.mpr ⟨isDecimal, rfl⟩]
    | minus isDecimal => simp [integer?, natural?_eq_some_iff.mpr ⟨isDecimal, rfl⟩]

theorem fits_iff {value : Int} : Fits value ↔ -2 ^ 63 ≤ value ∧ value ≤ 2 ^ 63 - 1 := by
  rw [Fits, Int64.toInt_minValue, Int64.toInt_maxValue]

/-- A text is read as a value exactly when it denotes it. -/
theorem parse?_eq_some_iff {text : String} {value : Int64} :
    parse? text = some value ↔ Denotes text.toList value.toInt := by
  constructor
  · intro parsed
    rw [parse?] at parsed
    cases read : integer? text.toList with
    | none => simp [read] at parsed
    | some number =>
        by_cases fits : Fits number
        · obtain rfl : Int64.ofInt number = value := by simpa [read, fits] using parsed
          rw [toInt_ofInt_of_fits fits]
          exact integer?_eq_some_iff.mp read
        · simp [read, fits] at parsed
  · intro denotes
    rw [parse?, integer?_eq_some_iff.mpr denotes]
    simp only [if_pos (fits_toInt value), Int64.ofInt_toInt]

theorem parse?_eq_none_iff {text : String} : parse? text = none ↔ LacksValue text := by
  constructor
  · intro unread value denotes
    by_contra inRange
    have fits : Fits value := fits_iff.mpr (by omega)
    simp [parse?, integer?_eq_some_iff.mpr denotes, fits] at unread
  · intro lacks
    cases parsed : parse? text with
    | none => rfl
    | some value =>
        have outside := lacks _ (parse?_eq_some_iff.mp parsed)
        have inside := fits_iff.mp (fits_toInt value)
        omega

theorem Denotes.unique {text : List Char} {value other : Int} (denotes : Denotes text value)
    (otherDenotes : Denotes text other) : value = other := by
  rw [← integer?_eq_some_iff] at denotes otherDenotes
  exact Option.some.inj (denotes.symm.trans otherDenotes)

end Numeral

open Numeral

namespace Parser

section Literal

variable {literal : Token}

/-- An integer is an expression of its own, whatever follows. -/
theorem expression_of_integer (kind : literal.kind = .integer) (depth : Nat)
    (rest : List Token) :
    expression depth (literal :: rest) =
      match parse? literal.text with
      | some value => .ok (.integer value, rest)
      | none => .error (.integerOutOfRange literal) := by
  rw [expression, operand_of_integer kind]
  cases parse? literal.text with
  | none => rfl
  | some value => exact resume_nil

theorem expression_eq_ok_iff (kind : literal.kind = .integer) (depth : Nat) (rest : List Token)
    (value : Int64) :
    expression depth (literal :: rest) = .ok (.integer value, rest) ↔
      Denotes literal.text.toList value.toInt := by
  rw [← parse?_eq_some_iff, expression_of_integer kind]
  cases parse? literal.text <;> simp

theorem expression_eq_error_iff (kind : literal.kind = .integer) (depth : Nat)
    (rest : List Token) :
    expression depth (literal :: rest) = .error (.integerOutOfRange literal) ↔
      LacksValue literal.text := by
  rw [← parse?_eq_none_iff, expression_of_integer kind]
  cases parse? literal.text <;> simp

namespace Progress

variable {progress next : Progress}

/-- An integer is taken only where an expression may start. -/
theorem Takes.exists_operand? (taken : Takes progress literal next)
    (isInteger : literal.kind = .integer) :
    ∃ header calls, progress.operand? = some (header, calls) := by
  cases taken with
  | integer due kind parsed => exact ⟨_, _, due⟩
  | defKeyword kind | name kind | openParams kind | firstParam kind | noParams kind
  | param kind new | nextParam kind | closeParams kind | identifier due kind
  | openCall kind room | closeEmptyCall kind | nextArg read kind | closeCall read kind
  | endKeyword read kind => cases isInteger.symm.trans kind

theorem step_of_lacksValue {header : Header} {calls : List OpenCall}
    (due : progress.operand? = some (header, calls)) (isInteger : literal.kind = .integer)
    (lacks : LacksValue literal.text) :
    progress.step literal = .error (.integerOutOfRange literal) := by
  have unread := parse?_eq_none_iff.mpr lacks
  cases progress <;> cases due <;> simp [step, takeOperand, isInteger, unread]

end Progress

end Literal

end Parser

/-- Some integer may stand after the tokens. -/
def IntegerMayFollow (source : String) (before : List Token) : Prop :=
  ∃ literal, literal.kind = .integer ∧ Viable source (before ++ [literal])

theorem parse_of_lacksValue {source : String} {before after : List Token} {literal : Token}
    (due : IntegerMayFollow source before) (isInteger : literal.kind = .integer)
    (lacks : LacksValue literal.text) :
    parse source (before ++ literal :: after) =
      .error ⟨literal.offset, .integerOutOfRange literal.text⟩ := by
  obtain ⟨other, otherInteger, viable⟩ := due
  obtain ⟨next, taken⟩ := viable_iff.mp viable
  obtain ⟨reached, takenBefore, stepped⟩ :=
    Parser.Progress.foldlM_append_singleton_eq_ok_iff.mp taken
  obtain ⟨header, calls, operandDue⟩ :=
    (Parser.Progress.takes_of_step stepped).exists_operand? otherInteger
  have refused := Parser.Progress.step_of_lacksValue operandDue isInteger lacks
  rw [parse_eq_run, Parser.Progress.run_append, takenBefore, ok_bind,
    Parser.Progress.run_cons, refused]
  rfl

theorem literals_of_parse {source : String} {tokens : List Token} {tree : Definition}
    (parsed : parse source tokens = .ok tree) :
    List.Forall₂ (fun literal value => Denotes literal.text.toList value.toInt)
      (tokens.filter fun token => token.kind = .integer) tree.body.integers := by
  obtain ⟨spelled, -⟩ := Parser.definition_sound (parse_eq_ok_iff.mp parsed)
  have values := spelled.literalValues_eq
  rw [Token.literalValues, ← List.forall₂_eq_eq_eq, List.forall₂_map_left_iff,
    List.forall₂_map_right_iff] at values
  exact values.imp fun literal value read => parse?_eq_some_iff.mp read

/-- The source whose body is the given digits. -/
def literalSource (digits : String) : String := "def f() " ++ digits ++ " end"

theorem literalSource_eq (digits : String) :
    literalSource digits = Definition.sourceWith ⟨"f", [], .integer 0⟩ digits := by
  rw [← String.toList_inj]
  simp [literalSource, Definition.sourceWith]

theorem exists_tokenize_literalSource {digits : String} (isDecimal : IsDecimal digits.toList) :
    ∃ header literal finish, literal.kind = .integer ∧ literal.text = digits ∧
      tokenize (literalSource digits) = .ok (header ++ literal :: [finish]) ∧
      ∀ expr tokens, Expr.Spells expr tokens →
        Definition.Spells ⟨"f", [], expr⟩ (header ++ tokens ++ [finish]) := by
  have admitted : Token.Kind.integer.Admits digits.toList := isDecimal
  have name : IsIdentifier "f" := ⟨by decide, by decide, by decide⟩
  obtain ⟨header, _, finish, tokenized, ⟨literal, rfl, kind, text⟩, made⟩ :=
    @Definition.exists_tokenize_sourceWith ⟨"f", [], .integer 0⟩ digits _ name (by simp)
      (Token.readsAs_text admitted)
  refine ⟨header, literal, finish, kind, text, ?_, made⟩
  rw [literalSource_eq, tokenized]
  simp

theorem permitted_literal (value : Int64) :
    Definition.Permitted ⟨"f", [], .integer value⟩ :=
  ⟨List.nodup_nil, Nat.zero_le _⟩

theorem compile_literalSource_of_parse? {digits : String} {value : Int64}
    (isDecimal : IsDecimal digits.toList) (parsed : parse? digits = some value) :
    compile (literalSource digits) =
      .ok (Script.program ("function f() \x7b return " ++ Numeral.render value ++ " \x7d;")) := by
  obtain ⟨header, literal, finish, kind, text, tokenized, made⟩ :=
    exists_tokenize_literalSource isDecimal
  have spelled := made _ _ (.integer kind (by rw [text, parsed]))
  have read : readDefinition (literalSource digits) = .ok ⟨"f", [], .integer value⟩ := by
    rw [readDefinition_eq_ok_iff]
    refine ⟨_, tokenized, ?_⟩
    rw [parse_eq_ok_iff]
    simpa using Parser.definition_of_spells spelled (permitted_literal value)
  rw [compile_of_readDefinition read]
  rfl

theorem compile_literalSource_of_lacksValue {digits : String}
    (isDecimal : IsDecimal digits.toList) (lacks : LacksValue digits) :
    ∃ offset, compile (literalSource digits) =
      .error (.diagnostic ⟨offset, .integerOutOfRange digits⟩) := by
  obtain ⟨header, literal, finish, kind, rfl, tokenized, made⟩ :=
    exists_tokenize_literalSource isDecimal
  -- The same tokens with a zero in place of the literal are accepted.
  let zero : Token := ⟨.integer, "0", 0⟩
  have zeroSpelled : Expr.Spells (.integer 0) [zero] := .integer rfl (by decide)
  have accepted : Accepted (literalSource literal.text) (header ++ [zero] ++ [finish]) :=
    ⟨_, parse_eq_ok_iff.mpr (Parser.definition_of_spells (made _ _ zeroSpelled)
      (permitted_literal 0))⟩
  have due : IntegerMayFollow (literalSource literal.text) header :=
    ⟨zero, rfl, _, accepted, List.prefix_append _ _⟩
  refine ⟨literal.offset, compile_of_readDefinition_error ?_⟩
  rw [readDefinition_eq_error_iff]
  exact Or.inr ⟨_, tokenized, parse_of_lacksValue due kind lacks⟩

/-- Digits make a body exactly when their number fits in 64 bits. -/
theorem compile_literalSource_cases {digits : String} (isDecimal : IsDecimal digits.toList) :
    (decimal digits.toList ≤ 2 ^ 63 - 1 ∧ compile (literalSource digits) =
      .ok (Script.program
        ("function f() \x7b return " ++ Nat.repr (decimal digits.toList) ++ " \x7d;"))) ∨
    (2 ^ 63 - 1 < decimal digits.toList ∧ ∃ offset, compile (literalSource digits) =
      .error (.diagnostic ⟨offset, .integerOutOfRange digits⟩)) := by
  rcases Nat.lt_or_ge (2 ^ 63 - 1) (decimal digits.toList) with large | small
  · have lacks : LacksValue digits := by
      intro value denotes
      have same := denotes.unique (.unsigned isDecimal)
      omega
    exact Or.inr ⟨large, compile_literalSource_of_lacksValue isDecimal lacks⟩
  · have fits : Fits (decimal digits.toList) := fits_iff.mpr (by omega)
    have value := toInt_ofInt_of_fits fits
    have parsed : parse? digits = some (Int64.ofInt (decimal digits.toList)) := by
      rw [parse?_eq_some_iff, value]
      exact .unsigned isDecimal
    refine Or.inl ⟨small, ?_⟩
    rw [compile_literalSource_of_parse? isDecimal parsed, Numeral.render, value, Int.repr_eq_if,
      if_pos (Int.natCast_nonneg _), Int.toNat_natCast]

/-- Integer tokens are read as what their texts denote and are refused when that does
not fit in 64 bits, on their own and inside any definition. What is printed for a value
is read back as that value. Digits of any length, however many zeros they start with,
make a body that is compiled when their number fits, and are printed as that number. -/
theorem integer_literals_exact :
    (∀ literal : Token, literal.kind = .integer → ∀ depth rest,
      (∀ value : Int64, Parser.expression depth (literal :: rest) = .ok (.integer value, rest) ↔
        Denotes literal.text.toList value.toInt) ∧
      (Parser.expression depth (literal :: rest) = .error (.integerOutOfRange literal) ↔
        LacksValue literal.text)) ∧
    (∀ source tokens tree, parse source tokens = .ok tree →
      List.Forall₂ (fun literal value => Denotes literal.text.toList value.toInt)
        (tokens.filter fun token => token.kind = .integer) tree.body.integers) ∧
    (∀ source before literal after, IntegerMayFollow source before →
      literal.kind = .integer → LacksValue literal.text →
      parse source (before ++ literal :: after) =
        .error ⟨literal.offset, .integerOutOfRange literal.text⟩) ∧
    (∀ value : Int64, ∃ text, (Expr.integer value).generate = .ok text ∧
      ∀ offset depth rest, Parser.expression depth (⟨.integer, text, offset⟩ :: rest) =
        .ok (.integer value, rest)) ∧
    ∀ digits : String, IsDecimal digits.toList →
      ((∃ script, compile (literalSource digits) = .ok script) ↔
        decimal digits.toList ≤ 2 ^ 63 - 1) ∧
      ∀ script, compile (literalSource digits) = .ok script →
        ∃ body, script = Script.program ("function f() \x7b return " ++ body ++ " \x7d;") ∧
          body = Nat.repr (decimal digits.toList) ∧ body.toList = stripZeros digits.toList := by
  refine ⟨?_, ?_, ?_, ?_, ?_⟩
  · intro literal isInteger depth rest
    exact ⟨Parser.expression_eq_ok_iff isInteger depth rest,
      Parser.expression_eq_error_iff isInteger depth rest⟩
  · intro source tokens tree parsed
    exact literals_of_parse parsed
  · intro source before literal after due isInteger lacks
    exact parse_of_lacksValue due isInteger lacks
  · intro value
    refine ⟨Numeral.render value, rfl, fun offset depth rest => ?_⟩
    rw [Parser.expression_of_integer rfl, parse?_render]
  · intro digits isDecimal
    rcases compile_literalSource_cases isDecimal with
      ⟨small, compiled⟩ | ⟨large, offset, refused⟩
    · refine ⟨⟨fun _ => small, fun _ => ⟨_, compiled⟩⟩, ?_⟩
      intro script otherCompiled
      refine ⟨_, Except.ok.inj (otherCompiled.symm.trans compiled), rfl, ?_⟩
      rw [Nat.toList_repr, ← ofDigitChars_zero,
        toDigits_ofDigitChars_zero isDecimal.1 isDecimal.2]
    · simpa [refused] using large

/-- Literals at both limits, and one past the limit inside a call. -/
theorem literals_at_the_limits :
    let before : List Token := [⟨.defKeyword, "def", 0⟩, ⟨.identifier, "f", 4⟩,
      ⟨.openParen, "(", 5⟩, ⟨.closeParen, ")", 6⟩, ⟨.identifier, "g", 8⟩, ⟨.openParen, "(", 9⟩]
    let literal : Token := ⟨.integer, "+9223372036854775808", 10⟩
    let digits := "0009223372036854775807"
    (IntegerMayFollow "def f() g(" before ∧ LacksValue literal.text ∧
      parse "def f() g(" (before ++ [literal]) =
        .error ⟨10, .integerOutOfRange "+9223372036854775808"⟩) ∧
    Denotes "-9223372036854775808".toList Int64.minValue.toInt ∧
    IsDecimal digits.toList ∧ ∃ script, compile (literalSource digits) = .ok script := by
  intro before literal digits
  obtain ⟨alone, -, refused, -, bodies⟩ := integer_literals_exact
  have due : IntegerMayFollow "def f() g(" before :=
    ⟨⟨.integer, "0", 10⟩, rfl, viable_iff.mpr ⟨_, rfl⟩⟩
  have lacks : LacksValue literal.text := parse?_eq_none_iff.mp (by decide +kernel)
  have least : Parser.expression 0 [⟨.integer, "-9223372036854775808", 0⟩] =
      .ok (.integer Int64.minValue, []) := by rfl
  have isDecimal : IsDecimal digits.toList := by
    unfold IsDecimal
    decide
  exact ⟨⟨due, lacks, refused _ before literal [] due rfl lacks⟩,
    ((alone _ rfl 0 []).1 _).mp least, isDecimal,
    (bodies digits isDecimal).1.mpr (by decide +kernel)⟩

end DefLang
