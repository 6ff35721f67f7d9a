import DefLang.Proofs.NumeralReading
import DefLang.Proofs.PrintableTrees

/-!
# A program shows the definition that it was printed from

No two definitions are printed as the same program, and no name adds a line to
it. The text of an expression is decoded from the left: it starts with a word,
which ends where the first mark or blank stands, and the character after the
word tells a call from anything else. What follows the expression is kept in
every statement, so that an argument can be taken off the front of its list.
-/
namespace DefLang

namespace Script

/-- Whether a character may stand in a name or in a numeral. -/
def isAtomCharacter (character : Char) : Bool :=
  character.isAlphanum || character = '-'

def IsAtom (text : List Char) : Prop :=
  text ≠ [] ∧ ∀ character ∈ text, isAtomCharacter character

/-- The text does not go on with a name or a numeral. -/
def EndsAtom (text : List Char) : Prop :=
  ∀ next ∈ text.head?, isAtomCharacter next = false

/-- The text may stand directly after an expression. -/
def EndsExpr (text : List Char) : Prop :=
  ∀ next ∈ text.head?, next = ',' ∨ next = ')' ∨ next = ' '

section Atoms

variable {text first second firstRest secondRest : List Char}

theorem EndsExpr.endsAtom (ended : EndsExpr text) : EndsAtom text := by
  intro next isHead
  rcases ended next isHead with rfl | rfl | rfl <;> rfl

theorem EndsExpr.ne_opening (ended : EndsExpr text) (inner : List Char) :
    text ≠ '(' :: inner := by
  rintro rfl
  have allowed := ended '(' rfl
  simp at allowed

theorem endsAtom_cons {character : Char} (outside : isAtomCharacter character = false) :
    EndsAtom (character :: text) := by
  simpa [EndsAtom] using outside

theorem takeWhile_of_isAtom (atom : IsAtom first) (ended : EndsAtom firstRest) :
    (first ++ firstRest).takeWhile isAtomCharacter = first := by
  have stops : firstRest.takeWhile isAtomCharacter = [] := by
    cases firstRest with
    | nil => rfl
    | cons next rest => simp [ended next rfl]
  rw [List.takeWhile_append_of_pos atom.2, stops, List.append_nil]

/-- Where an atom ends is seen from the text. -/
theorem atom_append_inj (firstAtom : IsAtom first) (secondAtom : IsAtom second)
    (firstEnded : EndsAtom firstRest) (secondEnded : EndsAtom secondRest)
    (same : first ++ firstRest = second ++ secondRest) :
    first = second ∧ firstRest = secondRest := by
  have firstEq : first = second := by
    rw [← takeWhile_of_isAtom firstAtom firstEnded, same,
      takeWhile_of_isAtom secondAtom secondEnded]
  subst firstEq
  exact ⟨rfl, List.append_cancel_left same⟩

theorem IsAtom.newline_notMem (atom : IsAtom text) : '\n' ∉ text := by
  intro member
  exact absurd (atom.2 '\n' member) (by decide)

end Atoms

theorem IsName.isAtom {name : String} (named : IsName name) : IsAtom name.toList := by
  refine ⟨named.1, fun character member => ?_⟩
  have letter := List.all_eq_true.mp named.2 character member
  simp [isAtomCharacter, Char.isAlphanum, letter]

theorem newline_notMem_intercalate {texts : List String}
    (outside : ∀ text ∈ texts, '\n' ∉ text.toList) :
    '\n' ∉ (String.intercalate "," texts).toList := by
  induction texts with
  | nil => simp
  | cons text texts inductionHypothesis =>
      obtain ⟨notFirst, notLater⟩ := List.forall_mem_cons.mp outside
      cases texts with
      | nil => simpa using notFirst
      | cons next later =>
          have notJoined := inductionHypothesis notLater
          rw [String.intercalate_cons_cons, String.toList_append, String.toList_append]
          simp only [List.mem_append, not_or]
          exact ⟨⟨notFirst, by decide⟩, notJoined⟩

theorem exists_digits_numeral (value : Int64) : ∃ sign number,
    (sign = [] ∨ sign = ['-']) ∧
      (Numeral.render value).toList = sign ++ Nat.toDigits 10 number := by
  rw [Numeral.render, Int.repr_eq_if]
  split
  · exact ⟨[], _, Or.inl rfl, Nat.toList_repr⟩
  · refine ⟨['-'], (-value.toInt).toNat, Or.inr rfl, ?_⟩
    rw [String.toList_append, Nat.toList_repr]
    rfl

theorem isAtom_numeral (value : Int64) : IsAtom (Numeral.render value).toList := by
  obtain ⟨sign, number, signs, numeral⟩ := exists_digits_numeral value
  rw [numeral]
  refine ⟨by simp, fun character member => ?_⟩
  rcases List.mem_append.mp member with inSign | inDigits
  · rcases signs with rfl | rfl
    · cases inSign
    · obtain rfl : character = '-' := by simpa using inSign
      rfl
  · have digit := List.all_eq_true.mp (Numeral.toDigits_all_isDigit number) character inDigits
    simp [isAtomCharacter, Char.isAlphanum, digit]

/-- A numeral has a digit and a name has none. -/
theorem numeral_ne_name {value : Int64} {name : String} (named : IsName name) :
    Numeral.render value ≠ name := by
  intro same
  obtain ⟨sign, number, -, numeral⟩ := exists_digits_numeral value
  obtain ⟨first, later, digits⟩ :=
    List.exists_cons_of_ne_nil (Nat.toDigits_ne_nil : Nat.toDigits 10 number ≠ [])
  have digit : first.isDigit :=
    List.all_eq_true.mp (Numeral.toDigits_all_isDigit number) first (by simp [digits])
  have letter : first.isAlpha :=
    List.all_eq_true.mp named.2 first (by simp [← same, numeral, digits])
  rw [Token.isDigit_of_isAlpha letter] at digit
  cases digit

theorem numeral_injective {first second : Int64}
    (same : Numeral.render first = Numeral.render second) : first = second := by
  have read := Numeral.parse?_render first
  rw [same, Numeral.parse?_render second] at read
  exact (Option.some.inj read).symm

end Script

namespace Expr

open Script

def leadingAtom : Expr → String
  | .integer value => Numeral.render value
  | .var name => name
  | .call callee _ => callee

/-- The text of an expression after its first word. -/
def trailing : Expr → List Char
  | .integer _ => []
  | .var _ => []
  | .call _ args => '(' :: ((String.intercalate "," (renderArgs args)).toList ++ [')'])

def Named (expr : Expr) : Prop := ∀ name ∈ expr.names, IsName name

def AllNamed (args : List Expr) : Prop := ∀ name ∈ argNames args, IsName name

section Named

variable {expr arg : Expr} {args : List Expr} {name callee : String}

theorem named_var : (Expr.var name).Named ↔ IsName name := by
  simp [Named, names]

theorem named_call : (Expr.call callee args).Named ↔ IsName callee ∧ AllNamed args := by
  simp [Named, AllNamed, names]

theorem allNamed_cons : AllNamed (arg :: args) ↔ arg.Named ∧ AllNamed args := by
  simp only [AllNamed, Named, argNames, List.forall_mem_append]

theorem isAtom_leadingAtom (named : expr.Named) : IsAtom expr.leadingAtom.toList := by
  cases expr with
  | integer value => exact isAtom_numeral value
  | var name => exact (named_var.mp named).isAtom
  | call callee args => exact (named_call.mp named).1.isAtom

theorem toList_render (expr : Expr) :
    expr.render.toList = expr.leadingAtom.toList ++ expr.trailing := by
  cases expr <;> simp [render, leadingAtom, trailing]

theorem endsAtom_trailing {rest : List Char} (ended : EndsExpr rest) :
    EndsAtom (expr.trailing ++ rest) := by
  cases expr with
  | integer value => exact ended.endsAtom
  | var name => exact ended.endsAtom
  | call callee args => exact endsAtom_cons (by decide)

end Named

/-- The first word of an expression is read off its text. -/
theorem leadingAtom_append_inj {first second : Expr} {firstRest secondRest : List Char}
    (firstNamed : first.Named) (secondNamed : second.Named) (firstEnded : EndsExpr firstRest)
    (secondEnded : EndsExpr secondRest)
    (same : first.render.toList ++ firstRest = second.render.toList ++ secondRest) :
    first.leadingAtom = second.leadingAtom ∧
      first.trailing ++ firstRest = second.trailing ++ secondRest := by
  rw [toList_render, toList_render, List.append_assoc, List.append_assoc] at same
  obtain ⟨sameAtom, sameTrailing⟩ := atom_append_inj (isAtom_leadingAtom firstNamed)
    (isAtom_leadingAtom secondNamed) (endsAtom_trailing firstEnded)
    (endsAtom_trailing secondEnded) same
  exact ⟨String.toList_inj.mp sameAtom, sameTrailing⟩

/-- What stands after an argument of a call. -/
def afterArg (args : List Expr) (rest : List Char) : List Char :=
  match args with
  | [] => ')' :: rest
  | next :: later => ',' :: ((String.intercalate "," (renderArgs (next :: later))).toList ++
      ')' :: rest)

section Args

variable {arg : Expr} {args others : List Expr} {rest otherRest : List Char}

theorem endsExpr_afterArg : EndsExpr (afterArg args rest) := by
  cases args <;> simp [EndsExpr, afterArg]

theorem toList_renderArgs_cons :
    (String.intercalate "," (renderArgs (arg :: args))).toList ++ ')' :: rest =
      arg.render.toList ++ afterArg args rest := by
  cases args with
  | nil => simp [renderArgs, afterArg]
  | cons next later => simp [renderArgs, afterArg, String.intercalate_cons_cons]

theorem renderArgs_eq_of_afterArg_eq (same : afterArg args rest = afterArg others otherRest) :
    (String.intercalate "," (renderArgs args)).toList ++ ')' :: rest =
      (String.intercalate "," (renderArgs others)).toList ++ ')' :: otherRest := by
  cases args with
  | nil =>
      cases others with
      | nil => simpa [afterArg] using same
      | cons next later => simp [afterArg] at same
  | cons next later =>
      cases others with
      | nil => simp [afterArg] at same
      | cons otherNext otherLater => exact (List.cons.inj same).2

/-- A call with arguments does not look like one without. -/
theorem renderArgs_cons_ne_closing {other : List Char} (named : arg.Named) :
    arg.render.toList ++ other ≠ ')' :: rest := by
  intro same
  obtain ⟨nonempty, inAtom⟩ := isAtom_leadingAtom named
  obtain ⟨first, later, starts⟩ := List.exists_cons_of_ne_nil nonempty
  have firstInAtom := inAtom first (by simp [starts])
  rw [toList_render, starts] at same
  obtain ⟨rfl, -⟩ := List.cons.inj same
  cases firstInAtom

end Args

mutual

/-- An expression and what follows it are read off their text. -/
theorem render_append_inj (first second : Expr) {firstRest secondRest : List Char}
    (firstNamed : first.Named) (secondNamed : second.Named) (firstEnded : EndsExpr firstRest)
    (secondEnded : EndsExpr secondRest)
    (same : first.render.toList ++ firstRest = second.render.toList ++ secondRest) :
    first = second ∧ firstRest = secondRest := by
  -- The first words tell a numeral from a name, and what follows a name tells
  -- whether it is called, so that only equal constructors remain.
  obtain ⟨sameAtom, sameTrailing⟩ :=
    leadingAtom_append_inj firstNamed secondNamed firstEnded secondEnded same
  cases first with
  | integer value =>
      cases second with
      | integer other => exact ⟨by rw [numeral_injective sameAtom], sameTrailing⟩
      | var name => exact absurd sameAtom (numeral_ne_name (named_var.mp secondNamed))
      | call callee args => exact absurd sameAtom (numeral_ne_name (named_call.mp secondNamed).1)
  | var name =>
      cases second with
      | integer value => exact absurd sameAtom.symm (numeral_ne_name (named_var.mp firstNamed))
      | var other => exact ⟨by rw [show name = other from sameAtom], sameTrailing⟩
      | call callee args => exact absurd sameTrailing (firstEnded.ne_opening _)
  | call callee args =>
      cases second with
      | integer value =>
          exact absurd sameAtom.symm (numeral_ne_name (named_call.mp firstNamed).1)
      | var name => exact absurd sameTrailing.symm (secondEnded.ne_opening _)
      | call otherCallee otherArgs =>
          simp only [trailing, List.cons_append, List.append_assoc, List.cons.injEq, true_and]
            at sameTrailing
          obtain ⟨rfl, sameRest⟩ := renderArgs_append_inj args otherArgs
            (named_call.mp firstNamed).2 (named_call.mp secondNamed).2 sameTrailing
          exact ⟨by rw [show callee = otherCallee from sameAtom], sameRest⟩

theorem renderArgs_append_inj (first second : List Expr) {firstRest secondRest : List Char}
    (firstNamed : AllNamed first) (secondNamed : AllNamed second)
    (same : (String.intercalate "," (renderArgs first)).toList ++ ')' :: firstRest =
      (String.intercalate "," (renderArgs second)).toList ++ ')' :: secondRest) :
    first = second ∧ firstRest = secondRest := by
  cases first with
  | nil =>
      cases second with
      | nil => exact ⟨rfl, (List.cons.inj same).2⟩
      | cons arg args =>
          rw [toList_renderArgs_cons] at same
          exact absurd same.symm (renderArgs_cons_ne_closing (allNamed_cons.mp secondNamed).1)
  | cons arg args =>
      obtain ⟨argNamed, argsNamed⟩ := allNamed_cons.mp firstNamed
      rw [toList_renderArgs_cons] at same
      cases second with
      | nil => exact absurd same (renderArgs_cons_ne_closing argNamed)
      | cons otherArg otherArgs =>
          obtain ⟨otherNamed, othersNamed⟩ := allNamed_cons.mp secondNamed
          rw [toList_renderArgs_cons] at same
          obtain ⟨rfl, sameAfter⟩ := render_append_inj arg otherArg argNamed otherNamed
            endsExpr_afterArg endsExpr_afterArg same
          obtain ⟨rfl, sameRest⟩ := renderArgs_append_inj args otherArgs argsNamed othersNamed
            (renderArgs_eq_of_afterArg_eq sameAfter)
          exact ⟨rfl, sameRest⟩

end

mutual

theorem newline_notMem_render (expr : Expr) (named : expr.Named) :
    '\n' ∉ expr.render.toList := by
  cases expr with
  | integer value => exact (isAtom_numeral value).newline_notMem
  | var name => exact (named_var.mp named).isAtom.newline_notMem
  | call callee args =>
      obtain ⟨calleeNamed, argsNamed⟩ := named_call.mp named
      have inCallee := calleeNamed.isAtom.newline_notMem
      have inArgs := newline_notMem_intercalate (newline_notMem_renderArgs args argsNamed)
      rw [toList_render, leadingAtom, trailing]
      simp only [List.mem_append, List.mem_cons, not_or]
      exact ⟨inCallee, by decide, inArgs, by decide, List.not_mem_nil⟩

theorem newline_notMem_renderArgs (args : List Expr) (named : AllNamed args) :
    ∀ text ∈ renderArgs args, '\n' ∉ text.toList := by
  cases args with
  | nil => simp [renderArgs]
  | cons arg rest =>
      obtain ⟨argNamed, restNamed⟩ := allNamed_cons.mp named
      rw [renderArgs]
      exact List.forall_mem_cons.mpr
        ⟨newline_notMem_render arg argNamed, newline_notMem_renderArgs rest restNamed⟩

end

theorem renderArgs_map_var (params : List String) : renderArgs (params.map .var) = params := by
  induction params with
  | nil => rfl
  | cons param params inductionHypothesis =>
      simp [renderArgs, render, inductionHypothesis]

theorem allNamed_map_var {params : List String} (named : ∀ param ∈ params, IsName param) :
    AllNamed (params.map .var) := by
  induction params with
  | nil => simp [AllNamed, argNames]
  | cons param params inductionHypothesis =>
      obtain ⟨paramNamed, laterNamed⟩ := List.forall_mem_cons.mp named
      exact allNamed_cons.mpr ⟨named_var.mpr paramNamed, inductionHypothesis laterNamed⟩

theorem generate_inj {first second : Expr} {text : String} (printed : first.generate = .ok text)
    (otherPrinted : second.generate = .ok text) : first = second := by
  obtain ⟨printable, rendered⟩ := generate_eq_ok_iff.mp printed
  obtain ⟨otherPrintable, otherRendered⟩ := generate_eq_ok_iff.mp otherPrinted
  have named := ((violation?_eq_none_iff 0 first).mp printable).1
  have otherNamed := ((violation?_eq_none_iff 0 second).mp otherPrintable).1
  have ended : EndsExpr [] := by simp [EndsExpr]
  have same : first.render.toList ++ [] = second.render.toList ++ [] := by
    rw [rendered, otherRendered]
  exact (render_append_inj first second named otherNamed ended ended same).1

end Expr

namespace Definition

open Script

def Named (tree : Definition) : Prop := ∀ name ∈ tree.names, IsName name

theorem named_iff {tree : Definition} :
    tree.Named ↔ IsName tree.name ∧ (∀ param ∈ tree.params, IsName param) ∧ tree.body.Named := by
  simp only [Named, names, List.forall_mem_cons, List.forall_mem_append, Expr.Named]

theorem toList_render (tree : Definition) :
    tree.render.toList = "function ".toList ++ (tree.name.toList ++
      '(' :: ((String.intercalate "," (Expr.renderArgs (tree.params.map .var))).toList ++
        ')' :: (" \x7b return ".toList ++ (tree.body.render.toList ++ " \x7d;".toList)))) := by
  simp [render_eq, Expr.renderArgs_map_var]

theorem render_injective {first second : Definition} (firstNamed : first.Named)
    (secondNamed : second.Named) (same : first.render = second.render) : first = second := by
  obtain ⟨firstName, firstParams, firstBody⟩ := named_iff.mp firstNamed
  obtain ⟨secondName, secondParams, secondBody⟩ := named_iff.mp secondNamed
  rw [← String.toList_inj, toList_render, toList_render] at same
  obtain ⟨sameName, afterName⟩ := atom_append_inj firstName.isAtom secondName.isAtom
    (endsAtom_cons (by decide)) (endsAtom_cons (by decide)) (List.append_cancel_left same)
  -- The parameters are printed as a call with only variables as its arguments is.
  obtain ⟨sameParams, afterParams⟩ := Expr.renderArgs_append_inj _ _
    (Expr.allNamed_map_var firstParams) (Expr.allNamed_map_var secondParams)
    (List.cons.inj afterName).2
  have ended : EndsExpr " \x7d;".toList := by simp [EndsExpr]
  obtain ⟨sameBody, -⟩ := Expr.render_append_inj first.body second.body firstBody secondBody
    ended ended (List.append_cancel_left afterParams)
  have varInjective : Function.Injective Expr.var := fun _ _ equal => Expr.var.inj equal
  obtain ⟨name, params, body⟩ := first
  obtain ⟨otherName, otherParams, otherBody⟩ := second
  obtain rfl : name = otherName := String.toList_inj.mp sameName
  obtain rfl : params = otherParams := varInjective.list_map sameParams
  obtain rfl : body = otherBody := sameBody
  rfl

theorem newline_notMem_render {tree : Definition} (named : tree.Named) :
    '\n' ∉ tree.render.toList := by
  obtain ⟨nameNamed, paramsNamed, bodyNamed⟩ := named_iff.mp named
  have inName := nameNamed.isAtom.newline_notMem
  have inParams := newline_notMem_intercalate
    (Expr.newline_notMem_renderArgs _ (Expr.allNamed_map_var paramsNamed))
  have inBody := tree.body.newline_notMem_render bodyNamed
  rw [toList_render]
  simp only [List.mem_append, List.mem_cons, not_or]
  exact ⟨by decide, inName, by decide, inParams, by decide, by decide, inBody, by decide⟩

theorem generateProgram_eq_ok_iff {tree : Definition} {script : String} :
    tree.generateProgram = .ok script ↔
      tree.violation? = none ∧ Script.program tree.render = script := by
  cases found : tree.violation? <;> simp [generateProgram, generate, found, Except.map]

end Definition

namespace Script

theorem toList_program (function : String) :
    (program function).toList =
      ['\n'].intercalate [runtime.toList, function.toList, invocation.toList] := by
  simp [program]

theorem program_injective : Function.Injective program := by
  intro first second same
  rw [program, program, ← String.toList_inj] at same
  simp only [String.toList_append, List.append_assoc] at same
  have fromFunction := List.append_cancel_left (List.append_cancel_left same)
  exact String.toList_inj.mp (List.append_cancel_right fromFunction)

/-- A function without line feeds is the middle one of three lines. -/
theorem splitOn_program {function : String} (oneLine : '\n' ∉ function.toList) :
    (program function).toList.splitOn '\n' =
      [runtime.toList, function.toList, invocation.toList] := by
  rw [toList_program]
  apply List.splitOn_intercalate
  · simp only [List.forall_mem_cons]
    exact ⟨by decide, oneLine, by decide, by simp⟩
  · simp

theorem count_newline_program {function : String} (oneLine : '\n' ∉ function.toList) :
    (program function).toList.count '\n' = 2 := by
  simp only [program, String.toList_append, List.count_append, List.count_eq_zero.mpr oneLine]
  decide

end Script

/-- A program has three lines, of which the first and the last are fixed. It was
printed from only one definition, and the text of an expression from only one
expression. -/
theorem generateProgram_unambiguous :
    (∀ (tree : Definition) (script : String), tree.generateProgram = .ok script →
      script.toList.count '\n' = 2 ∧
      (script.toList.splitOn '\n').head? = some Script.runtime.toList ∧
      (script.toList.splitOn '\n').getLast? = some Script.invocation.toList) ∧
    (∀ (first second : Definition) (script : String), first.generateProgram = .ok script →
      second.generateProgram = .ok script → first = second) ∧
    ∀ (first second : Expr) (text : String), first.generate = .ok text →
      second.generate = .ok text → first = second := by
  refine ⟨?_, ?_, fun first second text => Expr.generate_inj⟩
  · intro tree script printed
    obtain ⟨printable, rfl⟩ := Definition.generateProgram_eq_ok_iff.mp printed
    have named : tree.Named := (tree.violation?_eq_none_iff.mp printable).1
    have oneLine := Definition.newline_notMem_render named
    rw [Script.splitOn_program oneLine]
    exact ⟨Script.count_newline_program oneLine, rfl, rfl⟩
  · intro first second script printed otherPrinted
    obtain ⟨printable, rfl⟩ := Definition.generateProgram_eq_ok_iff.mp printed
    obtain ⟨otherPrintable, same⟩ := Definition.generateProgram_eq_ok_iff.mp otherPrinted
    exact Definition.render_injective (first.violation?_eq_none_iff.mp printable).1
      (second.violation?_eq_none_iff.mp otherPrintable).1 (Script.program_injective same.symm)

end DefLang
