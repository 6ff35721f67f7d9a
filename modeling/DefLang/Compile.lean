import DefLang.Definition.Parser
import DefLang.Script
import DefLang.Token.Lexer

/-! # Compiling a source text

Compilation splits a source into tokens, reads them as a definition and prints
that definition as a program. A source is refused with a diagnostic. A tree
that cannot be printed is refused with an internal error, because no source
should lead to one.
-/
namespace DefLang

/-- Why there is no program. -/
inductive CompileError where
  /-- The source is at fault. -/
  | diagnostic (found : Diagnostic)
  /-- The tree is at fault. -/
  | internal (message : String)
deriving DecidableEq, Repr

namespace CompileError

/-- An internal error for a tree that cannot be printed. -/
def ofViolation (violation : Script.Violation) : CompileError := .internal violation.message

/-- The wording of an internal error. -/
def internalMessage (message : String) : String := "internal error: " ++ message

/-- The message of an error. It is missing when it would show a place inside a
character of the source. -/
def message? (source : String) : CompileError → Option String
  | .diagnostic found => found.message? source
  | .internal message => some (internalMessage message)

/-- The message of an error, or its cause alone where the place cannot be shown. -/
def report (source : String) : CompileError → String
  | .diagnostic found => (found.message? source).getD found.cause.message
  | .internal message => internalMessage message

end CompileError

/-- The definition that a source spells. -/
def readDefinition (source : String) : Except Diagnostic Definition := do
  let tokens ← tokenize source
  parse source tokens

/-- The program for a source. -/
def compile (source : String) : Except CompileError String := do
  let definition ← (readDefinition source).mapError .diagnostic
  definition.generateProgram.mapError .ofViolation

end DefLang
