import DefLang.Diagnostic

/-! # Splitting a source text into tokens

Spaces separate tokens and are dropped. A word is a longest run of letters,
digits and underscores, and counts as one token or as none: it is a keyword,
all letters, or all digits. Parentheses and commas stand for themselves.
Splitting stops at the first place where no token starts.
-/
namespace DefLang

namespace Token

/-- Whether a character may stand between tokens. -/
def isSpace (character : Char) : Bool :=
  character = ' ' || character = '\t' || character = '\n' ||
    character = '\x0b' || character = '\x0c' || character = '\r'

/-- Whether a character belongs to a word. -/
def isWordCharacter (character : Char) : Bool :=
  character.isAlphanum || character = '_'

/-- The kind of token that a nonempty word is. -/
def Kind.ofWord? (word : List Char) : Option Kind :=
  if word = ['d', 'e', 'f'] then some .defKeyword
  else if word = ['e', 'n', 'd'] then some .endKeyword
  else if word.all Char.isAlpha then some .identifier
  else if word.all Char.isDigit then some .integer
  else none

/-- The kind of token that a single mark is. -/
def Kind.ofMark? (mark : Char) : Option Kind :=
  if mark = '(' then some .openParen
  else if mark = ')' then some .closeParen
  else if mark = ',' then some .comma
  else none

/-- The tokens of a text that starts at a byte offset of its source. -/
def scan (offset : Nat) : List Char → Except Diagnostic (List Token)
  | [] => .ok []
  | character :: rest =>
      if isSpace character then
        scan (offset + character.utf8Size) rest
      else if isWordCharacter character then
        let word := character :: rest.takeWhile isWordCharacter
        match Kind.ofWord? word with
        | none => .error ⟨offset, .unmatched (String.ofList (character :: rest))⟩
        | some kind => do
            let later ← scan (offset + Text.byteLength word) (rest.dropWhile isWordCharacter)
            return ⟨kind, String.ofList word, offset⟩ :: later
      else
        match Kind.ofMark? character with
        | none => .error ⟨offset, .unmatched (String.ofList (character :: rest))⟩
        | some kind => do
            let later ← scan (offset + character.utf8Size) rest
            return ⟨kind, String.ofList [character], offset⟩ :: later
termination_by text => text.length
decreasing_by
  · simp
  · have shorter := (List.dropWhile_sublist (l := rest) isWordCharacter).length_le
    simp only [List.length_cons]
    omega
  · simp

section Scan

variable {offset : Nat} {character : Char} {rest : List Char}

@[simp]
theorem scan_nil : scan offset [] = .ok [] := by
  rw [scan]

/-- A space is skipped. -/
theorem scan_of_space (space : isSpace character) :
    scan offset (character :: rest) = scan (offset + character.utf8Size) rest := by
  rw [scan, if_pos space]

/-- A word is one token or none. -/
theorem scan_of_word (space : isSpace character = false)
    (inWord : isWordCharacter character) :
    scan offset (character :: rest) =
      let word := character :: rest.takeWhile isWordCharacter
      match Kind.ofWord? word with
      | none => .error ⟨offset, .unmatched (String.ofList (character :: rest))⟩
      | some kind => do
          let later ← scan (offset + Text.byteLength word) (rest.dropWhile isWordCharacter)
          return ⟨kind, String.ofList word, offset⟩ :: later := by
  rw [scan]
  simp only [space, inWord, if_true, Bool.false_eq_true, if_false]

/-- Every other character is a token of its own or none. -/
theorem scan_of_mark (space : isSpace character = false)
    (notInWord : isWordCharacter character = false) :
    scan offset (character :: rest) =
      match Kind.ofMark? character with
      | none => .error ⟨offset, .unmatched (String.ofList (character :: rest))⟩
      | some kind => do
          let later ← scan (offset + character.utf8Size) rest
          return ⟨kind, String.ofList [character], offset⟩ :: later := by
  rw [scan]
  simp only [space, notInWord, Bool.false_eq_true, if_false]

end Scan

end Token

/-- The tokens of a source text, or the first place where no token starts. -/
def tokenize (source : String) : Except Diagnostic (List Token) :=
  Token.scan 0 source.toList

end DefLang
