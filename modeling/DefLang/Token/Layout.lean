import DefLang.Token.Lexer

/-! # Laying out tokens as text

A text lays out a list of tokens when it is their spellings in order, with
spaces in the gaps. Two words in a row need a gap between them, because they
would join to one word without it.
-/
namespace DefLang.Token

/-- The texts that a token of a kind may have. -/
def Kind.Admits : Kind → List Char → Prop
  | .defKeyword, text => text = ['d', 'e', 'f']
  | .endKeyword, text => text = ['e', 'n', 'd']
  | .identifier, text =>
      text ≠ [] ∧ text.all Char.isAlpha ∧ text ≠ ['d', 'e', 'f'] ∧ text ≠ ['e', 'n', 'd']
  | .integer, text => text ≠ [] ∧ text.all Char.isDigit
  | .openParen, text => text = ['(']
  | .closeParen, text => text = [')']
  | .comma, text => text = [',']

/-- The kinds of token that are words. -/
def Kind.isWord : Kind → Bool
  | .defKeyword | .endKeyword | .identifier | .integer => true
  | .openParen | .closeParen | .comma => false

/-- The text from a byte offset on lays out the tokens. The flag says whether a
word stands directly before it. -/
inductive Layout : Nat → Bool → List Char → List Token → Prop where
  | nil {offset : Nat} {afterWord : Bool} {gap : List Char} (spaces : gap.all isSpace) :
      Layout offset afterWord gap []
  | cons {offset : Nat} {afterWord : Bool} {gap rest : List Char} {token : Token}
      {later : List Token} (spaces : gap.all isSpace)
      (admitted : token.kind.Admits token.text.toList)
      (separated : afterWord = true → token.kind.isWord = true → gap ≠ [])
      (place : token.offset = offset + Text.byteLength gap)
      (continued : Layout (token.offset + Text.byteLength token.text.toList)
        token.kind.isWord rest later) :
      Layout offset afterWord (gap ++ token.text.toList ++ rest) (token :: later)

end DefLang.Token
