import DefLang.Text.Quoted
import Mathlib.Logic.Function.Defs

/-!
# Quoted texts are read back

A quoted text shows where it ends and which text it quotes. It is read one
character at a time: an escape tells its character and where it ends, and none
starts with a quote. This does not depend on which characters are shown as they
are, so the set of those is a parameter here.
-/
namespace DefLang.Text

/-- A thing and all that follows its text are known from the two written together. -/
def Delimited {Value : Type} (textOf : Value → List Char) (value : Value) : Prop :=
  ∀ ⦃other : Value⦄ ⦃rest otherRest : List Char⦄,
    textOf value ++ rest = textOf other ++ otherRest → value = other ∧ rest = otherRest

/-- A text ends at the first mark that it does not have. -/
theorem append_cons_inj {mark : Char} {text other rest otherRest : List Char}
    (notText : mark ∉ text) (notOther : mark ∉ other)
    (same : text ++ mark :: rest = other ++ mark :: otherRest) :
    text = other ∧ rest = otherRest := by
  have sameParts := congrArg (List.splitOn mark) same
  rw [List.splitOn_append_cons_self_of_not_mem notText,
    List.splitOn_append_cons_self_of_not_mem notOther] at sameParts
  obtain ⟨rfl, -⟩ := List.cons.inj sameParts
  exact ⟨rfl, (List.cons.inj (List.append_cancel_left same)).2⟩

section Digits

variable {base : Nat}

theorem notMem_toDigits (atLeast : 1 < base) {character : Char}
    (noDigit : ∀ digit, character ≠ Nat.digitChar digit) (number : Nat) :
    character ∉ Nat.toDigits base number := by
  induction number using Nat.strongRecOn with
  | ind number inductionHypothesis =>
      rw [Nat.toDigits_eq_if atLeast]
      split
      case isTrue => simpa using noDigit number
      case isFalse large =>
        have shorter : number / base < number := Nat.div_lt_self (by omega) atLeast
        simpa [inductionHypothesis _ shorter] using noDigit (number % base)

theorem newline_notMem_toDigits (atLeast : 1 < base) (number : Nat) :
    '\n' ∉ Nat.toDigits base number :=
  notMem_toDigits atLeast (by simp) number

theorem hexDigit_injective : ∀ first < 16, ∀ second < 16,
    Nat.digitChar first = Nat.digitChar second → first = second := by
  decide

/-- Two numbers with the same hexadecimal digits are equal. -/
theorem hexDigits_injective : Function.Injective (Nat.toDigits 16) := by
  intro first second same
  induction first using Nat.strongRecOn generalizing second with
  | ind first inductionHypothesis =>
      rw [Nat.toDigits_eq_if (n := first) (by decide),
        Nat.toDigits_eq_if (n := second) (by decide)] at same
      split at same <;> split at same
      case isTrue.isTrue small otherSmall =>
        exact hexDigit_injective first small second otherSmall (List.singleton_inj.mp same)
      case isFalse.isFalse large otherLarge =>
        obtain ⟨sameLeading, sameLast⟩ := List.append_singleton_inj.mp same
        have leading := inductionHypothesis _ (by omega) sameLeading
        have last := hexDigit_injective _ (by omega) _ (by omega) sameLast
        omega
      -- One digit is not as long as two.
      case isTrue.isFalse | isFalse.isTrue =>
        have lengths := congrArg List.length same
        simp [Nat.toDigits_ne_nil] at lengths

end Digits

/-- The characters that have a short escape, each with what stands after the
backslash. -/
def namedEscapes : List (Char × Char) :=
  [('\x22', '\x22'), ('\\', '\\'), ('\t', 't'), ('\r', 'r'), ('\n', 'n'), ('\x00', '0')]

/-- How one character is written inside quotes, when some characters are shown. -/
def escapeWith (isShown : Char → Bool) (character : Char) : List Char :=
  match namedEscapes.lookup character with
  | some letter => ['\\', letter]
  | none => if isShown character then [character] else escapeCodePoint character

/-- A text between double quotes, when some characters are shown. -/
def quoteWith (isShown : Char → Bool) (text : String) : String :=
  String.ofList ('\x22' :: (text.toList.flatMap (escapeWith isShown) ++ ['\x22']))

theorem escapeWith_isVisible : escapeWith isVisible = escape := by
  funext character
  rw [escape]
  iterate 6
    split
    · rename_i named
      rw [named]
      rfl
  have unnamed : namedEscapes.lookup character = none := by
    simp [namedEscapes, List.lookup_eq_none_iff, *]
  rw [escapeWith, unnamed]

theorem quoteWith_isVisible : quoteWith isVisible = quote := by
  funext text
  rw [quoteWith, quote, escapeWith_isVisible]

section Escapes

variable (isShown : Char → Bool)

/-- A character has a named escape, is shown, or is written by its code point. -/
theorem escapeWith_cases (character : Char) :
    (∃ letter, (character, letter) ∈ namedEscapes ∧
        escapeWith isShown character = ['\\', letter]) ∨
      ((∀ letter, (character, letter) ∉ namedEscapes) ∧
        escapeWith isShown character = [character]) ∨
      escapeWith isShown character = escapeCodePoint character := by
  rw [escapeWith]
  cases found : namedEscapes.lookup character with
  | some letter =>
      obtain ⟨before, after, split, -⟩ := List.lookup_eq_some_iff.mp found
      exact Or.inl ⟨letter, by simp [split], rfl⟩
  | none =>
      have unnamed (letter : Char) : (character, letter) ∉ namedEscapes := fun member => by
        simpa using List.lookup_eq_none_iff.mp found _ member
      cases isShown character with
      | true => exact Or.inr (Or.inl ⟨unnamed, rfl⟩)
      | false => exact Or.inr (Or.inr rfl)

theorem newline_notMem_escapeWith (character : Char) : '\n' ∉ escapeWith isShown character := by
  rcases escapeWith_cases isShown character with
    ⟨letter, named, written⟩ | ⟨unnamed, written⟩ | written <;> rw [written]
  · have noNewline : ∀ entry ∈ namedEscapes, '\n' ∉ ['\\', entry.2] := by decide
    exact noNewline _ named
  · intro member
    obtain rfl := List.mem_singleton.mp member
    exact unnamed 'n' (by decide)
  · have digits := newline_notMem_toDigits (by decide : 1 < 16) character.toNat
    simp [escapeCodePoint, digits]

theorem newline_notMem_quoteWith (text : String) :
    '\n' ∉ (quoteWith isShown text).toList := by
  simp [quoteWith, newline_notMem_escapeWith]

theorem newline_notMem_quote (text : String) : '\n' ∉ (quote text).toList := by
  rw [← quoteWith_isVisible]
  exact newline_notMem_quoteWith isVisible text

/-- No escape starts with a quote, so the first one that does not follow a backslash
is the end. -/
theorem escapeWith_append_ne_quote (character : Char) (rest otherRest : List Char) :
    escapeWith isShown character ++ rest ≠ '\x22' :: otherRest := by
  rcases escapeWith_cases isShown character with
    ⟨letter, named, written⟩ | ⟨unnamed, written⟩ | written <;> rw [written]
  · simp
  · rintro ⟨⟩
    exact unnamed '\x22' (by decide)
  · simp [escapeCodePoint]

theorem delimited_escapeCodePoint (character : Char) : Delimited escapeCodePoint character := by
  intro other rest otherRest same
  have noBrace := notMem_toDigits (by decide : 1 < 16)
    (show ∀ digit, '\x7d' ≠ Nat.digitChar digit by simp)
  simp only [escapeCodePoint, List.cons_append, List.append_assoc, List.nil_append,
    List.cons.injEq, true_and] at same
  obtain ⟨sameDigits, sameRest⟩ :=
    append_cons_inj (noBrace character.toNat) (noBrace other.toNat) same
  exact ⟨Char.toNat_inj.mp (hexDigits_injective sameDigits), sameRest⟩

/-- An escape tells its character and where it ends. -/
theorem delimited_escapeWith (character : Char) : Delimited (escapeWith isShown) character := by
  intro other rest otherRest same
  have sameEntry : ∀ entry ∈ namedEscapes, ∀ otherEntry ∈ namedEscapes,
      entry.2 = otherEntry.2 → entry.1 = otherEntry.1 := by decide
  have noCodePoint : ∀ entry ∈ namedEscapes, entry.2 ≠ 'u' := by decide
  have backslash : ('\\', '\\') ∈ namedEscapes := by decide
  -- Escapes of two kinds differ in the backslash or in what stands after it.
  rcases escapeWith_cases isShown character with
    ⟨letter, named, written⟩ | ⟨unnamed, written⟩ | written <;>
  rcases escapeWith_cases isShown other with
    ⟨otherLetter, otherNamed, otherWritten⟩ | ⟨otherUnnamed, otherWritten⟩ | otherWritten <;>
  rw [written, otherWritten] at same
  · cases same
    exact ⟨sameEntry _ named _ otherNamed rfl, rfl⟩
  · cases same
    exact absurd backslash (otherUnnamed _)
  · cases same
    exact absurd rfl (noCodePoint _ named)
  · cases same
    exact absurd backslash (unnamed _)
  · cases same
    exact ⟨rfl, rfl⟩
  · cases same
    exact absurd backslash (unnamed _)
  · cases same
    exact absurd rfl (noCodePoint _ otherNamed)
  · cases same
    exact absurd backslash (otherUnnamed _)
  · exact delimited_escapeCodePoint character same

theorem flatMap_escapeWith_inj (first second : List Char) {rest otherRest : List Char}
    (same : first.flatMap (escapeWith isShown) ++ '\x22' :: rest =
      second.flatMap (escapeWith isShown) ++ '\x22' :: otherRest) :
    first = second ∧ rest = otherRest := by
  induction first generalizing second with
  | nil =>
      cases second with
      | nil => simpa using same
      | cons next later =>
          rw [List.flatMap_cons, List.append_assoc] at same
          exact absurd same.symm (escapeWith_append_ne_quote isShown next _ _)
  | cons character first inductionHypothesis =>
      rw [List.flatMap_cons, List.append_assoc] at same
      cases second with
      | nil => exact absurd same (escapeWith_append_ne_quote isShown character _ _)
      | cons next later =>
          rw [List.flatMap_cons, List.append_assoc] at same
          obtain ⟨rfl, sameLater⟩ := delimited_escapeWith isShown character same
          obtain ⟨rfl, sameRest⟩ := inductionHypothesis later sameLater
          exact ⟨rfl, sameRest⟩

/-- A quoted text tells the text and where it ends, whichever characters are shown. -/
theorem delimited_quoteWith (text : String) :
    Delimited (fun text => (quoteWith isShown text).toList) text := by
  intro other rest otherRest same
  simp only [quoteWith, String.toList_ofList, List.cons_append, List.append_assoc,
    List.nil_append, List.cons.injEq, true_and] at same
  obtain ⟨sameText, sameRest⟩ := flatMap_escapeWith_inj isShown text.toList other.toList same
  exact ⟨String.toList_inj.mp sameText, sameRest⟩

end Escapes

end DefLang.Text
