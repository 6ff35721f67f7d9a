/-! # Byte offsets into a text

A place in a source text is named by the number of bytes before it in UTF-8.
Texts are handled as lists of characters, so an offset names a place only when
it falls between two characters. `splitAt?` makes that distinction, and
`splitAt?_eq_some_iff` says that it succeeds exactly at such places.
-/
namespace DefLang.Text

/-- The number of bytes that the characters take in UTF-8. -/
def byteLength : List Char → Nat
  | [] => 0
  | character :: rest => character.utf8Size + byteLength rest

@[simp]
theorem byteLength_nil : byteLength [] = 0 := rfl

@[simp]
theorem byteLength_cons (character : Char) (rest : List Char) :
    byteLength (character :: rest) = character.utf8Size + byteLength rest := rfl

@[simp]
theorem byteLength_append (before after : List Char) :
    byteLength (before ++ after) = byteLength before + byteLength after := by
  induction before with
  | nil => simp
  | cons character before inductionHypothesis =>
      simp [inductionHypothesis, Nat.add_assoc]

/-- Cuts a text after the given number of bytes. There is no cut inside a
character or beyond the end. -/
def splitAt? : List Char → Nat → Option (List Char × List Char)
  | text, 0 => some ([], text)
  | [], _ + 1 => none
  | character :: rest, offset + 1 =>
      if character.utf8Size ≤ offset + 1 then
        match splitAt? rest (offset + 1 - character.utf8Size) with
        | some (before, after) => some (character :: before, after)
        | none => none
      else
        none

@[simp]
theorem splitAt?_zero (text : List Char) : splitAt? text 0 = some ([], text) := by
  cases text <;> rfl

/-- The two parts of a cut are the text, and the first part has the byte
length that was asked for. -/
theorem splitAt?_sound {text before after : List Char} {offset : Nat}
    (cut : splitAt? text offset = some (before, after)) :
    before ++ after = text ∧ byteLength before = offset := by
  fun_induction splitAt? text offset generalizing before after with
  | case1 text => simp_all
  | case2 => simp at cut
  | case3 character rest offset fits first last found inductionHypothesis =>
      obtain ⟨rfl, rfl⟩ := by simpa using cut
      obtain ⟨joined, size⟩ := inductionHypothesis found
      refine ⟨by simp [joined], ?_⟩
      simp only [byteLength_cons]
      omega
  | case4 => simp at cut
  | case5 => simp at cut

/-- Every place between two characters is found by its offset. -/
theorem splitAt?_append (before after : List Char) :
    splitAt? (before ++ after) (byteLength before) = some (before, after) := by
  induction before with
  | nil => simp
  | cons character before inductionHypothesis =>
      have positive := character.utf8Size_pos
      obtain ⟨offset, offset_eq⟩ :
          ∃ offset, character.utf8Size + byteLength before = offset + 1 :=
        ⟨character.utf8Size + byteLength before - 1, by omega⟩
      have remaining : offset + 1 - character.utf8Size = byteLength before := by omega
      simp only [List.cons_append, byteLength_cons, offset_eq, splitAt?, remaining,
        inductionHypothesis, show character.utf8Size ≤ offset + 1 by omega, if_true]

theorem splitAt?_eq_some_iff {text before after : List Char} {offset : Nat} :
    splitAt? text offset = some (before, after) ↔
      before ++ after = text ∧ byteLength before = offset := by
  refine ⟨splitAt?_sound, ?_⟩
  rintro ⟨rfl, rfl⟩
  exact splitAt?_append before after

end DefLang.Text
