import DefLang.Command.Input
import DefLang.Compile
import DefLang.Outline

/-! # The command

The command reads one source and prints what a stage of compilation makes of
it: the tokens, the outline of the definition, or the program. It writes either
to standard output, and succeeds, or to standard error, and fails.
-/
namespace DefLang.Command

/-- What the command prints. -/
inductive Stage where
  | tokens
  | outline
  | script
deriving DecidableEq, Repr

namespace Stage

/-- The stage that an argument names. -/
def ofName? (name : String) : Option Stage :=
  if name = "tokens" then some .tokens
  else if name = "ast" then some .outline
  else if name = "js" then some .script
  else none

/-- What a stage makes of a source. Each stage goes on from the one before it,
and none goes further than is asked for. -/
def run (source : String) (stage : Stage) : Except CompileError String := do
  let tokens ← (tokenize source).mapError .diagnostic
  if stage = .tokens then
    return String.intercalate "\n" (tokens.map Token.listing)
  let definition ← (parse source tokens).mapError .diagnostic
  if stage = .outline then
    return definition.outline .indented
  definition.generateProgram.mapError .ofViolation

end Stage

/-- What the arguments ask for. -/
structure Options where
  stage : Stage
  path : String
deriving DecidableEq, Repr

namespace Options

/-- Whether an argument is a flag. -/
def IsFlag (argument : String) : Prop := argument.toList.take 2 = ['-', '-']

instance (argument : String) : Decidable (IsFlag argument) := by
  unfold IsFlag
  infer_instance

/-- Reads the arguments from left to right, given the stage and the path that
hold so far. -/
def extend? (stage : Stage) (path : Option String) : List String → Option Options
  | [] => path.map fun path => ⟨stage, path⟩
  | argument :: rest =>
      if argument = "--emit" then
        match rest with
        | [] => none
        | name :: rest =>
            match Stage.ofName? name with
            | some stage => extend? stage path rest
            | none => none
      else if IsFlag argument then
        none
      else
        match path with
        | some _ => none
        | none => extend? stage (some argument) rest

/-- The options that the arguments give. The last stage holds, which is the
program if there is none, and there has to be exactly one path. -/
def ofArguments? (arguments : List String) : Option Options :=
  extend? .script none arguments

end Options

/-- What the command leaves behind. -/
structure Outcome where
  code : Nat
  standardOutput : String
  standardError : String
deriving DecidableEq, Repr

namespace Outcome

/-- A line on standard output. -/
def success (text : String) : Outcome := ⟨0, text ++ "\n", ""⟩

/-- A line on standard error. -/
def failure (text : String) : Outcome := ⟨1, "", text ++ "\n"⟩

end Outcome

/-- The line that explains the arguments. -/
def usage (program : String) : String :=
  "usage: " ++ program ++ " [--emit tokens|ast|js] <path|->"

/-- The outcome for a source. -/
def outcomeOfSource (stage : Stage) (source : String) : Outcome :=
  match stage.run source with
  | .ok text => .success text
  | .error error => .failure (error.report source)

/-- The outcome for the bytes that were read. -/
def outcomeOfBytes (program : String) (options : Options)
    (bytes : Except ReadError ByteArray) : Outcome :=
  match bytes >>= decode with
  | .ok source => outcomeOfSource options.stage source
  | .error error =>
      .failure (program ++ ": cannot read " ++ options.path ++ ": " ++ error.message)

/-- Runs the command under a program name. Nothing is read when the arguments
do not make sense. -/
def execute {m : Type → Type} [Monad m] (sources : Sources m) (program : String)
    (arguments : List String) : m Outcome :=
  match Options.ofArguments? arguments with
  | none => pure (.failure (usage program))
  | some options => do
      let bytes ← sources.read options.path
      return outcomeOfBytes program options bytes

end DefLang.Command
