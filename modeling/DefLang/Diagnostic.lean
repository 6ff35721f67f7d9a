import DefLang.Snippet
import DefLang.Text.Quoted
import DefLang.Token

/-! # Diagnostics

A diagnostic says what is wrong with a source text and where. The cause is kept
apart from its wording, so that `Cause.message` is the only place where texts
are made, and apart from the source, which is needed only to show the place.
-/
namespace DefLang

/-- What the grammar calls for at some place. -/
inductive Expected where
  | token (kind : Token.Kind)
  | endOfInput
deriving DecidableEq, Repr

/-- The name of an expectation in a message. -/
def Expected.describe : Expected → String
  | .token kind => kind.describe
  | .endOfInput => "end of input"

/-- The name in a message of the token that was found, if there was one. -/
def Token.Kind.describeFound : Option Token.Kind → String
  | some kind => kind.describe
  | none => "end of input"

/-- What is wrong at a place in a source text. -/
inductive Cause where
  /-- No token starts at the text that is left. -/
  | unmatched (rest : String)
  /-- The grammar calls for something else than what was found. -/
  | unexpected (expected : Expected) (found : Option Token.Kind)
  /-- An earlier parameter has the same name. -/
  | duplicateParameter (name : String)
  /-- The value of an integer does not fit in 64 bits. -/
  | integerOutOfRange (text : String)
  /-- There are as many calls open as are allowed. -/
  | tooDeep (limit : Nat)
deriving DecidableEq, Repr

/-- The wording of a cause. -/
def Cause.message : Cause → String
  | .unmatched rest => "couldn't match a token on " ++ Text.quote rest
  | .unexpected expected found =>
      "expected " ++ expected.describe ++ ", but got " ++ Token.Kind.describeFound found
  | .duplicateParameter name => "duplicate parameter \"" ++ name ++ "\""
  | .integerOutOfRange text => "integer literal \"" ++ text ++ "\" does not fit in 64 bits"
  | .tooDeep limit => "calls nested deeper than " ++ Nat.repr limit ++ " levels"

/-- A cause together with the byte offset at which it arises. -/
structure Diagnostic where
  offset : Nat
  cause : Cause
deriving DecidableEq, Repr

namespace Diagnostic

/-- A diagnostic for the text from an offset on, at which no token starts.
There is none when the offset is no place in the source. -/
def unmatched? (source : String) (offset : Nat) : Option Diagnostic :=
  match Text.splitAt? source.toList offset with
  | some (_, rest) => some ⟨offset, .unmatched (String.ofList rest)⟩
  | none => none

/-- The place in the source followed by the wording of the cause. There is no
message when the place falls inside a character. -/
def message? (source : String) (diagnostic : Diagnostic) : Option String :=
  match Snippet.at? source diagnostic.offset with
  | some snippet => some (snippet.render ++ " " ++ diagnostic.cause.message)
  | none => none

end Diagnostic

end DefLang
