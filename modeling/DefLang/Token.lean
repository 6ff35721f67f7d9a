/-! # Tokens

A source text is a sequence of tokens: two keywords, identifiers, integers,
parentheses and commas. Each token keeps its spelling and the byte offset at
which it starts.
-/
namespace DefLang

namespace Token

/-- What a token is, apart from its spelling. -/
inductive Kind where
  | defKeyword
  | endKeyword
  | identifier
  | integer
  | openParen
  | closeParen
  | comma
deriving DecidableEq, Repr

namespace Kind

/-- The name of a kind in a token listing. -/
def name : Kind → String
  | defKeyword => "Def"
  | endKeyword => "End"
  | identifier => "Identifier"
  | integer => "Integer"
  | openParen => "OParen"
  | closeParen => "CParen"
  | comma => "Comma"

/-- The name of a kind in a message: the spelling in quotes where there is only
one, and a noun otherwise. -/
def describe : Kind → String
  | defKeyword => "\"def\""
  | endKeyword => "\"end\""
  | identifier => "identifier"
  | integer => "integer"
  | openParen => "\"(\""
  | closeParen => "\")\""
  | comma => "\",\""

end Kind

end Token

/-- A piece of a source text that stands for one symbol of the grammar. -/
structure Token where
  kind : Token.Kind
  text : String
  /-- The number of bytes before the token in its source. -/
  offset : Nat
deriving DecidableEq, Repr

/-- The line of a token in a listing. -/
def Token.listing (token : Token) : String := token.kind.name ++ " " ++ token.text

end DefLang
