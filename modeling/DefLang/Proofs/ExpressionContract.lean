import DefLang.Proofs.CursorSteps
import DefLang.Proofs.Relocation

/-!
# What reading an expression promises

An expression may be read from any position, inside any number of calls that is
allowed. What is read then ends at a later position, and the tokens up to it are
those of the expression. The steps of the cursor close as many calls as they
open, so the depth is what it was. Nothing else decides the result: tokens with
the same kinds and texts in these places give it again, whatever stands before
and after them, unless an opening parenthesis follows, which would turn a variable
at the end into a callee.
-/
namespace DefLang

namespace Token

variable {token other : Token}

theorem kind_eq_of_spelling (same : other.spelling = token.spelling) :
    other.kind = token.kind :=
  congrArg Prod.fst same

theorem text_eq_of_spelling (same : other.spelling = token.spelling) :
    other.text = token.text :=
  congrArg Prod.snd same

end Token

open Token (spelling kind_eq_of_spelling text_eq_of_spelling)

namespace Expr

mutual

/-- An expression is spelled by kinds and texts, wherever the tokens stand. -/
theorem Spells.of_spelling {expr : Expr} {tokens others : List Token}
    (spelled : Spells expr tokens) (same : others.map spelling = tokens.map spelling) :
    Spells expr others := by
  cases spelled with
  | integer kind parsed =>
      obtain ⟨literal, rfl, sameLiteral⟩ := List.map_eq_singleton_iff.mp same
      refine .integer ((kind_eq_of_spelling sameLiteral).trans kind) ?_
      rwa [text_eq_of_spelling sameLiteral]
  | var kind =>
      obtain ⟨name, rfl, sameName⟩ := List.map_eq_singleton_iff.mp same
      rw [← text_eq_of_spelling sameName]
      exact .var ((kind_eq_of_spelling sameName).trans kind)
  | call calleeKind openingKind argsSpelled closingKind =>
      rw [List.map_append] at same
      obtain ⟨front, last, rfl, sameFront, sameLast⟩ := List.map_eq_append_iff.mp same
      obtain ⟨callee, afterCallee, rfl, sameCallee, fromOpening⟩ :=
        List.map_eq_cons_iff.mp sameFront
      obtain ⟨opening, inner, rfl, sameOpening, sameInner⟩ := List.map_eq_cons_iff.mp fromOpening
      obtain ⟨closing, rfl, sameClosing⟩ := List.map_eq_singleton_iff.mp sameLast
      rw [← text_eq_of_spelling sameCallee]
      exact .call ((kind_eq_of_spelling sameCallee).trans calleeKind)
        ((kind_eq_of_spelling sameOpening).trans openingKind)
        (argsSpelled.of_spelling sameInner)
        ((kind_eq_of_spelling sameClosing).trans closingKind)

theorem SpellsArgs.of_spelling {args : List Expr} {tokens others : List Token}
    (spelled : SpellsArgs args tokens) (same : others.map spelling = tokens.map spelling) :
    SpellsArgs args others := by
  cases spelled with
  | none =>
      obtain rfl := List.map_eq_nil_iff.mp same
      exact .none
  | single argSpelled => exact .single (argSpelled.of_spelling same)
  | cons argSpelled commaKind continued =>
      rw [List.map_append] at same
      obtain ⟨arg, later, rfl, sameArg, sameLater⟩ := List.map_eq_append_iff.mp same
      obtain ⟨comma, rest, rfl, sameComma, sameRest⟩ := List.map_eq_cons_iff.mp sameLater
      exact .cons (argSpelled.of_spelling sameArg)
        ((kind_eq_of_spelling sameComma).trans commaKind) (continued.of_spelling sameRest)

end

end Expr

namespace Parser

open StateTransition

/-- The expression is read from a position, inside some calls, up to the next position,
and the cursor counts the same calls there. -/
structure Reads (tokens : List Token) (position depth : Nat) (expr : Expr) (next : Nat) :
    Prop where
  result : expression depth (tokens.drop position) = .ok (expr, tokens.drop next)
  inside : next ≤ tokens.length
  restored : ⟨next, depth, [], .exprRead expr⟩ ∈
    eval (Cursor.step tokens) (.start position depth)

/-- The tokens between two positions have the same kinds and texts in both lists. -/
def SameBetween (position next : Nat) (tokens others : List Token) : Prop :=
  ∀ index, position ≤ index → index < next →
    others[index]?.map spelling = tokens[index]?.map spelling

/-- What is known of an expression that was read: where it ends, that it fits, that the
tokens between the two positions are its own, and that no others matter. -/
structure Consumes (tokens : List Token) (position depth : Nat) (expr : Expr) (next : Nat) :
    Prop extends Reads tokens position depth expr next where
  forward : position < next
  fits : depth + expr.callDepth ≤ maxCallDepth
  spelled : expr.Spells (tokens.extract position next)
  isLocal : ∀ others, SameBetween position next tokens others →
    (∀ token, others[next]? = some token → token.kind ≠ .openParen) →
      Reads others position depth expr next

section Contract

variable {tokens others rest : List Token} {position depth next : Nat} {expr : Expr}

theorem eq_of_drop_eq {first second : Nat} (firstInside : first ≤ tokens.length)
    (secondInside : second ≤ tokens.length) (same : tokens.drop first = tokens.drop second) :
    first = second := by
  have lengths := congrArg List.length same
  rw [List.length_drop, List.length_drop] at lengths
  omega

theorem extract_append_drop (ordered : position ≤ next) :
    tokens.extract position next ++ tokens.drop next = tokens.drop position := by
  have continued : (tokens.drop position).drop (next - position) = tokens.drop next := by
    rw [List.drop_drop, Nat.add_sub_cancel' ordered]
  rw [List.extract_eq_take_drop, ← continued, List.take_append_drop]

/-- The run of the cursor ends where the parser does, with all its calls closed. -/
theorem reads_of_expression (inside : position ≤ tokens.length) (shallow : depth ≤ maxCallDepth)
    (nextInside : next ≤ tokens.length)
    (read : expression depth (tokens.drop position) = .ok (expr, tokens.drop next)) :
    Reads tokens position depth expr next := by
  obtain ⟨last, ends⟩ := Part.dom_iff_mem.mp (Cursor.eval_dom tokens (.start position depth))
  obtain ⟨run, ended⟩ := mem_eval.mp ends
  have leads := (Cursor.leadsTo_start inside shallow).reaches run
  rw [read] at leads
  obtain ⟨isLast, sameRest⟩ := leads.eq_of_step_eq_none ended
  have isNext : next = last.position := eq_of_drop_eq nextInside leads.inside sameRest
  refine ⟨read, nextInside, ?_⟩
  rw [isNext, ← isLast]
  exact ends

/-- Reading an expression consumes at least one token, and exactly those that spell it. -/
theorem exists_of_expression_eq_ok (inside : position ≤ tokens.length)
    (shallow : depth ≤ maxCallDepth)
    (read : expression depth (tokens.drop position) = .ok (expr, rest)) :
    ∃ next, rest = tokens.drop next ∧ position < next ∧ next ≤ tokens.length ∧
      depth + expr.callDepth ≤ maxCallDepth ∧ expr.Spells (tokens.extract position next) := by
  obtain ⟨consumed, split, spelled, fits⟩ := operand_sound .nil read
  obtain ⟨first, later, starts, -⟩ := spelled.exists_head
  rw [List.nil_append] at spelled starts
  have lengths := congrArg List.length split
  rw [List.length_drop, List.length_append] at lengths
  have nonempty : 0 < consumed.length := by simp [starts]
  have isRest : rest = tokens.drop (position + consumed.length) := by
    rw [← List.drop_drop, split, List.drop_left]
  refine ⟨position + consumed.length, isRest, by omega, by omega, fits shallow, ?_⟩
  rwa [List.extract_eq_take_drop, Nat.add_sub_cancel_left, split, List.take_left]

theorem SameBetween.map_extract (same : SameBetween position next tokens others) :
    (others.extract position next).map spelling = (tokens.extract position next).map spelling := by
  apply List.ext_getElem?
  intro index
  simp only [List.extract_eq_take_drop, List.getElem?_map, List.getElem?_take,
    List.getElem?_drop]
  split
  next within => exact same (position + index) (Nat.le_add_right _ _) (by omega)
  next => rfl

theorem SameBetween.le_length (same : SameBetween position next tokens others)
    (forward : position < next) (inside : next ≤ tokens.length) : next ≤ others.length := by
  have last := same (next - 1) (by omega) (by omega)
  have before : next - 1 < tokens.length := by omega
  rw [List.getElem?_eq_getElem before, Option.map_some] at last
  obtain ⟨token, found, -⟩ := Option.map_eq_some_iff.mp last
  have inOthers := Cursor.lt_of_getElem? found
  omega

/-- The tokens of an expression are read as that expression wherever they stand. -/
theorem reads_of_spells (shallow : depth ≤ maxCallDepth) (forward : position < next)
    (inside : next ≤ tokens.length) (fits : depth + expr.callDepth ≤ maxCallDepth)
    (spelled : expr.Spells (tokens.extract position next))
    (ended : ∀ token, tokens[next]? = some token → token.kind ≠ .openParen) :
    Reads tokens position depth expr next := by
  have noCall : ∀ token, (tokens.drop next).head? = some token → token.kind ≠ .openParen := by
    intro token isHead
    rw [List.head?_drop] at isHead
    exact ended token isHead
  have read := operand_of_spells depth [] (tokens.drop next) spelled (fun _ => fits) noCall
  rw [extract_append_drop forward.le, resume_nil] at read
  exact reads_of_expression (by omega) shallow inside read

end Contract

/-- From every position and inside every number of calls that is allowed, an expression
that is read ends at a later position and at the same depth, fits inside the calls around
it, and is what the tokens up to that position spell, which alone decide it. Whether one is
read or not, the cursor comes to an end, and on the way it never counts more calls than
allowed nor fewer than none. -/
theorem expression_consumes_its_spelling (tokens : List Token) (position depth : Nat)
    (inside : position ≤ tokens.length) (shallow : depth ≤ maxCallDepth) :
    (∀ expr rest, expression depth (tokens.drop position) = .ok (expr, rest) →
      ∃ next, rest = tokens.drop next ∧ Consumes tokens position depth expr next) ∧
    (eval (Cursor.step tokens) (.start position depth)).Dom ∧
    ∀ cursor, Reaches (Cursor.step tokens) (.start position depth) cursor →
      cursor.LeadsTo depth tokens (expression depth (tokens.drop position)) ∧
        cursor.phase ≠ .underflow := by
  refine ⟨fun expr rest read => ?_, Cursor.eval_dom tokens _, fun cursor run => ?_⟩
  · obtain ⟨next, rfl, forward, nextInside, fits, spelled⟩ :=
      exists_of_expression_eq_ok inside shallow read
    have reads := reads_of_expression inside shallow nextInside read
    refine ⟨next, rfl, reads, forward, fits, spelled, fun others same ended => ?_⟩
    exact reads_of_spells shallow forward (same.le_length forward nextInside) fits
      (spelled.of_spelling same.map_extract) ended
  · have leads := (Cursor.leadsTo_start inside shallow).reaches run
    exact ⟨leads, leads.phase_ne_underflow⟩

/-- The inner call uses the last level, and it is read again among other tokens. -/
theorem expression_consumes_its_spelling_at_limit :
    let tokens : List Token := [⟨.comma, ",", 0⟩, ⟨.identifier, "f", 1⟩, ⟨.openParen, "(", 2⟩,
      ⟨.identifier, "g", 3⟩, ⟨.openParen, "(", 4⟩, ⟨.closeParen, ")", 5⟩, ⟨.comma, ",", 6⟩,
      ⟨.integer, "07", 7⟩, ⟨.closeParen, ")", 9⟩, ⟨.defKeyword, "def", 10⟩]
    let others : List Token := [⟨.openParen, "(", 0⟩, ⟨.identifier, "f", 2⟩,
      ⟨.openParen, "(", 3⟩, ⟨.identifier, "g", 5⟩, ⟨.openParen, "(", 7⟩, ⟨.closeParen, ")", 8⟩,
      ⟨.comma, ",", 9⟩, ⟨.integer, "07", 11⟩, ⟨.closeParen, ")", 13⟩]
    let expr : Expr := .call "f" [.call "g" [], .integer 7]
    (1 ≤ tokens.length ∧ 254 ≤ maxCallDepth ∧ SameBetween 1 9 tokens others ∧
      others[9]? = none ∧
      expression 254 (tokens.drop 1) = .ok (expr, [⟨.defKeyword, "def", 10⟩])) ∧
    Consumes tokens 1 254 expr 9 ∧ Reads others 1 254 expr 9 ∧
    (eval (Cursor.step tokens) (.start 1 254)).Dom ∧
    ∀ cursor, Reaches (Cursor.step tokens) (.start 1 254) cursor →
      cursor.LeadsTo 254 tokens (expression 254 (tokens.drop 1)) ∧
        cursor.phase ≠ .underflow := by
  intro tokens others expr
  have inside : 1 ≤ tokens.length := by decide
  have shallow : 254 ≤ maxCallDepth := by decide
  have read : expression 254 (tokens.drop 1) = .ok (expr, [⟨.defKeyword, "def", 10⟩]) := rfl
  have bounded : ∀ index < 9, 1 ≤ index →
      others[index]?.map spelling = tokens[index]?.map spelling := by decide
  have same : SameBetween 1 9 tokens others := fun index from1 upTo9 => bounded index upTo9 from1
  have absent : others[9]? = none := by decide
  obtain ⟨consumed, run⟩ := expression_consumes_its_spelling tokens 1 254 inside shallow
  obtain ⟨next, isRest, consumes⟩ := consumed expr _ read
  obtain rfl : next = 9 := eq_of_drop_eq consumes.inside (by decide) isRest.symm
  refine ⟨⟨inside, shallow, same, absent, read⟩, consumes, ?_, run⟩
  exact consumes.isLocal others same (by simp [absent])

end Parser

end DefLang
