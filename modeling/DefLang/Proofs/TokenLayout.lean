import DefLang.Token.Layout
import Mathlib.Data.List.Basic

/-!
# The texts of tokens

A text that a kind admits, and that nothing extends to a longer word, is read as
one token of that kind. Conversely every token that is read has a text that its
kind admits, and the source is laid out from these texts and spaces. The scanner
never stands inside a word, which is the invariant of both directions.
-/
namespace DefLang.Token

section Characters

variable {character : Char}

theorem isWordCharacter_of_isAlpha (letter : character.isAlpha) :
    isWordCharacter character := by
  simp [isWordCharacter, Char.isAlphanum, letter]

theorem isWordCharacter_of_isDigit (digit : character.isDigit) :
    isWordCharacter character := by
  simp [isWordCharacter, Char.isAlphanum, digit]

theorem isWordCharacter_of_isSpace (space : isSpace character) :
    isWordCharacter character = false := by
  simp only [isSpace, Bool.or_eq_true, decide_eq_true_eq] at space
  rcases space with ((((rfl | rfl) | rfl) | rfl) | rfl) | rfl <;> rfl

theorem isSpace_of_isWordCharacter (inWord : isWordCharacter character) :
    isSpace character = false := by
  by_contra space
  rw [isWordCharacter_of_isSpace (by simpa using space)] at inWord
  exact absurd inWord (by decide)

theorem bounds_of_isAlpha (letter : character.isAlpha) :
    (65 ≤ character.val.toNat ∧ character.val.toNat ≤ 90) ∨
      (97 ≤ character.val.toNat ∧ character.val.toNat ≤ 122) := by
  rcases Bool.or_eq_true_iff.mp letter with upper | lower
  · exact Or.inl (of_decide_eq_true upper)
  · exact Or.inr ((Bool.and_eq_true_iff.mp lower).imp of_decide_eq_true of_decide_eq_true)

theorem bounds_of_isDigit (digit : character.isDigit) :
    48 ≤ character.val.toNat ∧ character.val.toNat ≤ 57 :=
  (Bool.and_eq_true_iff.mp digit).imp of_decide_eq_true of_decide_eq_true

theorem isDigit_of_isAlpha (letter : character.isAlpha) : character.isDigit = false := by
  apply Bool.eq_false_iff.mpr
  intro digit
  have letterBounds := bounds_of_isAlpha letter
  have digitBounds := bounds_of_isDigit digit
  omega

end Characters

/-- Nothing at the start of the text extends a word before it. -/
def EndsWord (text : List Char) : Prop :=
  ∀ next, text.head? = some next → isWordCharacter next = false

theorem endsWord_nil : EndsWord [] := by
  intro next isHead
  cases isHead

theorem endsWord_cons {character : Char} {rest : List Char}
    (outside : isWordCharacter character = false) : EndsWord (character :: rest) := by
  intro next isHead
  obtain rfl : character = next := by simpa using isHead
  exact outside

theorem endsWord_dropWhile (text : List Char) : EndsWord (text.dropWhile isWordCharacter) := by
  intro next isHead
  have first := List.head?_dropWhile_not isWordCharacter text
  rw [isHead] at first
  simpa using first

theorem Kind.Admits.isWordText {kind : Kind} {text : List Char} (admitted : kind.Admits text)
    (word : kind.isWord) : text ≠ [] ∧ ∀ character ∈ text, isWordCharacter character := by
  cases kind with
  | defKeyword =>
      obtain rfl := admitted
      exact ⟨by simp, List.all_eq_true.mp (by decide)⟩
  | endKeyword =>
      obtain rfl := admitted
      exact ⟨by simp, List.all_eq_true.mp (by decide)⟩
  | identifier =>
      obtain ⟨nonempty, letters, -⟩ := admitted
      exact ⟨nonempty, fun character member =>
        isWordCharacter_of_isAlpha (List.all_eq_true.mp letters character member)⟩
  | integer =>
      obtain ⟨nonempty, digits⟩ := admitted
      exact ⟨nonempty, fun character member =>
        isWordCharacter_of_isDigit (List.all_eq_true.mp digits character member)⟩
  | openParen => cases word
  | closeParen => cases word
  | comma => cases word

theorem Kind.ofWord?_eq_some_iff {kind : Kind} {word : List Char} (nonempty : word ≠ []) :
    Kind.ofWord? word = some kind ↔ kind.isWord ∧ kind.Admits word := by
  by_cases isDef : word = ['d', 'e', 'f']
  · subst isDef
    cases kind <;> simp [Kind.ofWord?, Kind.isWord, Kind.Admits]
  by_cases isEnd : word = ['e', 'n', 'd']
  · subst isEnd
    cases kind <;> simp [Kind.ofWord?, Kind.isWord, Kind.Admits]
  by_cases letters : word.all Char.isAlpha
  · have notDigits : word.all Char.isDigit = false := by
      obtain ⟨first, rest, rfl⟩ := List.exists_cons_of_ne_nil nonempty
      simp [isDigit_of_isAlpha (List.all_eq_true.mp letters first (by simp))]
    cases kind <;>
      simp [Kind.ofWord?, Kind.isWord, Kind.Admits, isDef, isEnd, letters, notDigits, nonempty]
  by_cases digits : word.all Char.isDigit <;> cases kind <;>
    simp [Kind.ofWord?, Kind.isWord, Kind.Admits, isDef, isEnd, letters, digits, nonempty]

theorem Kind.ofMark?_eq_some_iff {kind : Kind} {mark : Char} :
    Kind.ofMark? mark = some kind ↔ kind.isWord = false ∧ kind.Admits [mark] := by
  by_cases opening : mark = '('
  · subst opening
    cases kind <;> simp [Kind.ofMark?, Kind.isWord, Kind.Admits]
  by_cases closing : mark = ')'
  · subst closing
    cases kind <;> simp [Kind.ofMark?, Kind.isWord, Kind.Admits]
  by_cases comma : mark = ',' <;> cases kind <;>
    simp [Kind.ofMark?, Kind.isWord, Kind.Admits, opening, closing, comma]

theorem Kind.Admits.exists_mark {kind : Kind} {text : List Char} (admitted : kind.Admits text)
    (noWord : kind.isWord = false) :
    ∃ mark, text = [mark] ∧ isSpace mark = false ∧ isWordCharacter mark = false := by
  cases kind with
  | openParen => exact ⟨'(', admitted, by decide, by decide⟩
  | closeParen => exact ⟨')', admitted, by decide, by decide⟩
  | comma => exact ⟨',', admitted, by decide, by decide⟩
  | defKeyword => cases noWord
  | endKeyword => cases noWord
  | identifier => cases noWord
  | integer => cases noWord

/-- A text that a kind admits is read as one token of that kind, unless it is a
word that goes on. -/
theorem scan_of_admits {kind : Kind} {text rest : List Char} (offset : Nat)
    (admitted : kind.Admits text) (ended : kind.isWord → EndsWord rest) :
    scan offset (text ++ rest) =
      (⟨kind, String.ofList text, offset⟩ :: ·) <$> scan (offset + Text.byteLength text) rest := by
  cases word : kind.isWord with
  | true =>
      obtain ⟨nonempty, inWord⟩ := admitted.isWordText word
      obtain ⟨first, later, rfl⟩ := List.exists_cons_of_ne_nil nonempty
      have firstInWord := inWord first (by simp)
      have laterInWord : ∀ character ∈ later, isWordCharacter character :=
        fun character member => inWord character (by simp [member])
      have wordEnds : rest.takeWhile isWordCharacter = [] ∧
          rest.dropWhile isWordCharacter = rest := by
        cases rest with
        | nil => simp
        | cons next rest => simp [ended word next rfl]
      have kindOfWord := (Kind.ofWord?_eq_some_iff nonempty).mpr ⟨word, admitted⟩
      rw [List.cons_append, scan_of_word (isSpace_of_isWordCharacter firstInWord) firstInWord,
        List.takeWhile_append_of_pos laterInWord, List.dropWhile_append_of_pos laterInWord,
        wordEnds.1, wordEnds.2, List.append_nil]
      simp only [kindOfWord]
      rfl
  | false =>
      obtain ⟨mark, rfl, noSpace, notInWord⟩ := admitted.exists_mark word
      have kindOfMark := Kind.ofMark?_eq_some_iff.mpr ⟨word, admitted⟩
      rw [List.singleton_append, scan_of_mark noSpace notInWord]
      simp only [kindOfMark]
      rfl

theorem Layout.cons_space {offset : Nat} {before after : Bool} {character : Char}
    {text : List Char} {tokens : List Token} (space : isSpace character)
    (layout : Layout (offset + character.utf8Size) before text tokens) :
    Layout offset after (character :: text) tokens := by
  cases layout with
  | nil spaces => exact .nil (by simpa [space] using spaces)
  | @cons _ _ gap rest token later spaces admitted separated place continued =>
      rw [List.append_assoc, ← List.cons_append, ← List.append_assoc]
      refine .cons (by simpa [space] using spaces) admitted (by simp) ?_ continued
      rw [place, Text.byteLength_cons, Nat.add_assoc]

/-- A token may stand at the very start of a text, unless it is a word directly
after another. -/
theorem Layout.cons_token {offset : Nat} {afterWord : Bool} {kind : Kind}
    {text rest : List Char} {later : List Token} (admitted : kind.Admits text)
    (apart : afterWord = true → kind.isWord = false)
    (continued : Layout (offset + Text.byteLength text) kind.isWord rest later) :
    Layout offset afterWord (text ++ rest) (⟨kind, String.ofList text, offset⟩ :: later) := by
  have separated : afterWord = true → kind.isWord = true → ([] : List Char) ≠ [] := by
    intro directly isWord
    exact absurd isWord (by simp [apart directly])
  have layout := @Layout.cons offset afterWord [] rest ⟨kind, String.ofList text, offset⟩ later
    (by simp) (by simpa using admitted) separated (by simp) (by simpa using continued)
  simpa using layout

/-- The source of the tokens that are read is laid out from them. -/
theorem layout_of_scan {offset : Nat} {afterWord : Bool} {text : List Char}
    {tokens : List Token} (ended : afterWord = true → EndsWord text)
    (read : scan offset text = .ok tokens) : Layout offset afterWord text tokens := by
  fun_induction scan offset text generalizing afterWord tokens with
  | case1 offset =>
      cases read
      exact .nil (by simp)
  | case2 offset character rest space inductionHypothesis =>
      have later : Layout (offset + character.utf8Size) false rest tokens :=
        inductionHypothesis (by simp) read
      exact later.cons_space space
  | case3 => cases read
  | case4 offset character rest noSpace inWord word kind kindOfWord =>
      rename_i inductionHypothesis
      cases scanned : scan (offset + Text.byteLength word) (rest.dropWhile isWordCharacter) with
      | error diagnostic =>
          rw [scanned] at read
          cases read
      | ok later =>
          rw [scanned] at read
          cases read
          obtain ⟨isWord, admitted⟩ := (Kind.ofWord?_eq_some_iff (by simp [word])).mp kindOfWord
          have split : character :: rest = word ++ rest.dropWhile isWordCharacter := by
            simp [word, List.takeWhile_append_dropWhile]
          have apart : afterWord = true → kind.isWord = false := by
            intro directly
            have outside := ended directly character rfl
            exact absurd inWord (by simp [outside])
          rw [split]
          exact .cons_token admitted apart
            (inductionHypothesis (fun _ => endsWord_dropWhile rest) scanned)
  | case5 => cases read
  | case6 offset character rest noSpace notInWord kind kindOfMark inductionHypothesis =>
      cases scanned : scan (offset + character.utf8Size) rest with
      | error diagnostic =>
          rw [scanned] at read
          cases read
      | ok later =>
          rw [scanned] at read
          cases read
          obtain ⟨noWord, admitted⟩ := Kind.ofMark?_eq_some_iff.mp kindOfMark
          rw [← List.singleton_append]
          refine .cons_token admitted (fun _ => noWord) ?_
          exact inductionHypothesis (by simp [noWord]) scanned

theorem Layout.admits {offset : Nat} {afterWord : Bool} {text : List Char}
    {tokens : List Token} (layout : Layout offset afterWord text tokens) :
    ∀ token ∈ tokens, token.kind.Admits token.text.toList := by
  induction layout with
  | nil => simp
  | cons _ admitted _ _ _ inductionHypothesis => simpa [admitted] using inductionHypothesis

end DefLang.Token

namespace DefLang

theorem admits_of_tokenize {source : String} {tokens : List Token}
    (read : tokenize source = .ok tokens) :
    ∀ token ∈ tokens, token.kind.Admits token.text.toList := by
  have layout : Token.Layout 0 false source.toList tokens :=
    Token.layout_of_scan (by simp) read
  exact layout.admits

end DefLang
