import DefLang.Command
import DefLang.Command.Directory
import DefLang.Proofs.ScannerTurns

/-!
# The outcome of the command

The command succeeds for the output of a stage and fails in every other case,
where it leaves standard output empty. Its stages go through the same steps as
compilation and stop after some of them. A definition that was read can always be
printed, so the outline fails exactly where the program does. The tokens fail only
where no token starts, and then the other stages stop at the same place.
-/
namespace DefLang.Command

theorem decode_eq_ok_iff {bytes : ByteArray} {source : String} :
    decode bytes = .ok source ↔ bytes = source.toUTF8 := by
  rw [decode, String.fromUTF8?]
  constructor
  · intro decoded
    split at decoded
    case h_1 text encoded =>
      split at encoded
      case isTrue valid =>
        obtain rfl := Option.some.inj encoded
        obtain rfl := Except.ok.inj decoded
        rfl
      case isFalse => cases encoded
    case h_2 => cases decoded
  · rintro rfl
    have valid : source.toUTF8.IsValidUTF8 := source.isValidUTF8
    rw [dif_pos valid]
    rfl

namespace Stage

variable {source : String} {error : CompileError}

/-- The last stage goes through all the steps of compilation. -/
theorem run_script (source : String) : run source .script = compile source := by
  rw [run, compile, readDefinition]
  cases tokenize source with
  | error found => rfl
  | ok tokens =>
      cases parsed : parse source tokens <;> simp [parsed]

theorem run_outline_eq_error_iff :
    run source .outline = .error error ↔
      ∃ found, readDefinition source = .error found ∧ error = .diagnostic found := by
  rw [run, readDefinition]
  cases tokenize source with
  | error found => simp [eq_comm]
  | ok tokens =>
      cases parsed : parse source tokens <;> simp [parsed, eq_comm]

theorem run_tokens_eq_error_iff :
    run source .tokens = .error error ↔
      ∃ found, tokenize source = .error found ∧ error = .diagnostic found := by
  rw [run]
  cases tokenize source <;> simp [eq_comm]

/-- Whatever can be outlined can be printed. -/
theorem run_outline_eq_error_iff_script :
    run source .outline = .error error ↔ run source .script = .error error := by
  rw [run_outline_eq_error_iff, run_script, compile_eq_error_iff]

/-- A stage fails only for what is wrong with the source. -/
theorem exists_of_run_eq_error {stage : Stage} (stopped : stage.run source = .error error) :
    ∃ found, readDefinition source = .error found ∧ error = .diagnostic found := by
  cases stage with
  | tokens =>
      obtain ⟨found, unmatched, rfl⟩ := run_tokens_eq_error_iff.mp stopped
      exact ⟨found, readDefinition_eq_error_iff.mpr (Or.inl unmatched), rfl⟩
  | outline => exact run_outline_eq_error_iff.mp stopped
  | script =>
      rw [run_script] at stopped
      exact compile_eq_error_iff.mp stopped

/-- No stage gets past the place where no token starts. -/
theorem run_of_tokenize_error {found : Diagnostic} (unmatched : tokenize source = .error found)
    (stage : Stage) : stage.run source = .error (.diagnostic found) := by
  rw [run, unmatched]
  rfl

end Stage

section Source

variable {source : String} {stage : Stage} {error : CompileError}

theorem outcomeOfSource_of_ok {output : String} (succeeded : stage.run source = .ok output) :
    outcomeOfSource stage source = ⟨0, output ++ "\n", ""⟩ := by
  rw [outcomeOfSource, succeeded]
  rfl

/-- The place of an error can be shown, so its whole message is printed. -/
theorem exists_message?_of_run_eq_error (stopped : stage.run source = .error error) :
    ∃ message, error.message? source = some message := by
  obtain ⟨found, unread, rfl⟩ := Stage.exists_of_run_eq_error stopped
  have boundary := isBoundary_of_readDefinition_error unread
  exact (Diagnostic.canBeShown_of_isPlace (Or.inl boundary)).2

theorem outcomeOfSource_of_error {message : String} (stopped : stage.run source = .error error)
    (shown : error.message? source = some message) :
    outcomeOfSource stage source = ⟨1, "", message ++ "\n"⟩ := by
  have reported : error.report source = message := by
    cases error with
    | diagnostic found =>
        rw [CompileError.message?] at shown
        rw [CompileError.report, shown, Option.getD_some]
    | internal text => exact Option.some.inj shown
  rw [outcomeOfSource, stopped, ← reported]
  rfl

theorem code_outcomeOfSource_eq_one_iff :
    (outcomeOfSource stage source).code = 1 ↔ ∃ error, stage.run source = .error error := by
  cases ran : stage.run source with
  | ok output => simp [outcomeOfSource_of_ok ran]
  | error error =>
      obtain ⟨message, shown⟩ := exists_message?_of_run_eq_error ran
      simp [outcomeOfSource_of_error ran shown]

end Source

section Bytes

variable (program : String) (options : Options)

theorem outcomeOfBytes_toUTF8 (source : String) :
    outcomeOfBytes program options (.ok source.toUTF8) = outcomeOfSource options.stage source := by
  have decoded : (Except.ok source.toUTF8 >>= decode) = .ok source := decode_eq_ok_iff.mpr rfl
  rw [outcomeOfBytes, decoded]

theorem exists_outcomeOfBytes_eq {bytes : Except ReadError ByteArray}
    (noText : ∀ source : String, bytes ≠ .ok source.toUTF8) :
    ∃ text, outcomeOfBytes program options bytes = ⟨1, "", text ++ "\n"⟩ := by
  rw [outcomeOfBytes]
  cases decoded : bytes >>= decode with
  | error error => exact ⟨_, rfl⟩
  | ok source =>
      obtain ⟨content, rfl, encoded⟩ := exists_of_bind_eq_ok decoded
      rw [decode_eq_ok_iff] at encoded
      exact absurd (congrArg Except.ok encoded) (noText source)

end Bytes

/-- A text can be read at a path when standard input holds it in UTF-8 and the path is a
lone hyphen, or when the file at the path holds it and the path is any other. -/
inductive Sources.Reads (sources : Sources Id) : String → String → Prop where
  | standardInput {source : String} (given : sources.standardInput = .ok source.toUTF8) :
      Reads sources "-" source
  | file {path source : String} (named : path ≠ "-")
      (given : sources.file path = .ok source.toUTF8) : Reads sources path source

theorem Sources.reads_iff {sources : Sources Id} {path source : String} :
    sources.Reads path source ↔ sources.read path = .ok source.toUTF8 := by
  rw [Sources.read]
  constructor
  · intro reads
    cases reads with
    | standardInput given => rw [if_pos rfl, given]
    | file named given => rw [if_neg named, given]
  · intro given
    split at given
    case isTrue lone =>
      subst lone
      exact .standardInput given
    case isFalse named => exact .file named given

section Execute

variable {sources : Sources Id} {arguments : List String} {options : Options}
variable (program : String)

theorem execute_of_options (asked : Options.ofArguments? arguments = some options) :
    Id.run (execute sources program arguments) =
      outcomeOfBytes program options (sources.read options.path) := by
  rw [execute, asked]
  rfl

/-- Only the stage and the text at the path count. -/
theorem execute_of_reads {source : String}
    (asked : Options.ofArguments? arguments = some options)
    (reads : sources.Reads options.path source) :
    Id.run (execute sources program arguments) = outcomeOfSource options.stage source := by
  rw [execute_of_options program asked, Sources.reads_iff.mp reads, outcomeOfBytes_toUTF8]

theorem exists_execute_eq
    (unread : ∀ options source, Options.ofArguments? arguments = some options →
      ¬ sources.Reads options.path source) :
    ∃ text, Id.run (execute sources program arguments) = ⟨1, "", text ++ "\n"⟩ := by
  cases asked : Options.ofArguments? arguments with
  | none =>
      rw [execute, asked]
      exact ⟨usage program, rfl⟩
  | some options =>
      rw [execute_of_options program asked]
      refine exists_outcomeOfBytes_eq program options fun source given => ?_
      exact unread options source asked (Sources.reads_iff.mpr given)

end Execute

/-- The arguments ask for a stage, the text at their path can be read, and the stage
has this output for it. -/
def Succeeds (sources : Sources Id) (arguments : List String) (output : String) : Prop :=
  ∃ options source, Options.ofArguments? arguments = some options ∧
    sources.Reads options.path source ∧ options.stage.run source = .ok output

theorem Succeeds.execute_eq {sources : Sources Id} {arguments : List String} {output : String}
    (succeeds : Succeeds sources arguments output) (program : String) :
    Id.run (execute sources program arguments) = ⟨0, output ++ "\n", ""⟩ := by
  obtain ⟨options, source, asked, reads, ran⟩ := succeeds
  rw [execute_of_reads program asked reads, outcomeOfSource_of_ok ran]

/-- The command writes a line to standard output or a line to standard error. -/
theorem execute_cases (sources : Sources Id) (program : String) (arguments : List String) :
    (∃ output, Succeeds sources arguments output) ∨
      ∃ text, Id.run (execute sources program arguments) = ⟨1, "", text ++ "\n"⟩ := by
  by_cases readable : ∃ options source, Options.ofArguments? arguments = some options ∧
    sources.Reads options.path source
  · obtain ⟨options, source, asked, reads⟩ := readable
    cases ran : options.stage.run source with
    | ok output => exact Or.inl ⟨output, options, source, asked, reads, ran⟩
    | error error =>
        obtain ⟨message, shown⟩ := exists_message?_of_run_eq_error ran
        refine Or.inr ⟨message, ?_⟩
        rw [execute_of_reads program asked reads, outcomeOfSource_of_error ran shown]
  · refine Or.inr (exists_execute_eq program fun options source asked reads => ?_)
    exact readable ⟨options, source, asked, reads⟩

/-- How the outcomes of the stages for one source are related. -/
structure StagesAgree (source : String) (outcome : Stage → Outcome) : Prop where
  compiled : ∀ script, compile source = .ok script → outcome .script = ⟨0, script ++ "\n", ""⟩
  refused : ∀ error, compile source = .error error → ∃ message,
    error.message? source = some message ∧ outcome .script = ⟨1, "", message ++ "\n"⟩
  outlineFails : (outcome .outline).code = 1 ↔ (outcome .script).code = 1
  sameError : (outcome .outline).standardError = (outcome .script).standardError
  tokensFail : (outcome .tokens).code = 1 → ∃ offset rest message,
    tokenize source = .error ⟨offset, .unmatched rest⟩ ∧
      Diagnostic.message? source ⟨offset, .unmatched rest⟩ = some message ∧
        ∀ stage, outcome stage = ⟨1, "", message ++ "\n"⟩

theorem stagesAgree_outcomeOfSource (source : String) :
    StagesAgree source (outcomeOfSource · source) where
  compiled := by
    intro script compiled
    rw [← Stage.run_script] at compiled
    exact outcomeOfSource_of_ok compiled
  refused := by
    intro error refused
    rw [← Stage.run_script] at refused
    obtain ⟨message, shown⟩ := exists_message?_of_run_eq_error refused
    exact ⟨message, shown, outcomeOfSource_of_error refused shown⟩
  outlineFails := by
    simp only [code_outcomeOfSource_eq_one_iff, Stage.run_outline_eq_error_iff_script]
  sameError := by
    cases outlined : Stage.outline.run source with
    | error error =>
        have compiled := Stage.run_outline_eq_error_iff_script.mp outlined
        obtain ⟨message, shown⟩ := exists_message?_of_run_eq_error outlined
        rw [outcomeOfSource_of_error outlined shown, outcomeOfSource_of_error compiled shown]
    | ok outline =>
        cases compiled : Stage.script.run source with
        | error error =>
            rw [← Stage.run_outline_eq_error_iff_script, outlined] at compiled
            cases compiled
        | ok script => rw [outcomeOfSource_of_ok outlined, outcomeOfSource_of_ok compiled]
  tokensFail := by
    intro failed
    obtain ⟨error, stopped⟩ := code_outcomeOfSource_eq_one_iff.mp failed
    obtain ⟨message, shown⟩ := exists_message?_of_run_eq_error stopped
    obtain ⟨found, unmatched, rfl⟩ := Stage.run_tokens_eq_error_iff.mp stopped
    obtain ⟨before, character, later, -, -, rfl⟩ := exists_append_of_tokenize_error unmatched
    refine ⟨_, _, message, unmatched, shown, fun stage => ?_⟩
    exact outcomeOfSource_of_error (Stage.run_of_tokenize_error unmatched stage) shown

/-- The command succeeds exactly when its arguments make sense, the source is text that
can be read and the stage has an output, which is all that it prints. In every other
case it prints nothing but an error. For one source, the last stage prints what
compilation gives, and the stages fail together as they should. -/
theorem command_agrees_with_compile (sources : Sources Id) (program : String) :
    (∀ arguments output,
      Id.run (execute sources program arguments) = ⟨0, output ++ "\n", ""⟩ ↔
        Succeeds sources arguments output) ∧
    (∀ arguments, (∀ output, ¬ Succeeds sources arguments output) →
      ∃ text, text ≠ "" ∧ Id.run (execute sources program arguments) = ⟨1, "", text⟩) ∧
    ∀ source, ∀ argumentsOf : Stage → List String, (∀ stage, ∃ path,
        Options.ofArguments? (argumentsOf stage) = some ⟨stage, path⟩ ∧
          sources.Reads path source) →
      StagesAgree source fun stage => Id.run (execute sources program (argumentsOf stage)) := by
  refine ⟨?_, ?_, ?_⟩
  · intro arguments output
    refine ⟨fun outcome => ?_, fun succeeds => succeeds.execute_eq program⟩
    rcases execute_cases sources program arguments with ⟨other, succeeds⟩ | ⟨text, failed⟩
    · obtain ⟨-, same, -⟩ := Outcome.mk.inj (outcome.symm.trans (succeeds.execute_eq program))
      obtain rfl : output = other := (String.append_left_inj "\n").mp same
      exact succeeds
    · cases outcome.symm.trans failed
  · intro arguments fails
    rcases execute_cases sources program arguments with ⟨output, succeeds⟩ | ⟨text, failed⟩
    · exact absurd succeeds (fails output)
    · exact ⟨text ++ "\n", by simp, failed⟩
  · intro source argumentsOf readable
    have outcomes : (fun stage => Id.run (execute sources program (argumentsOf stage))) =
        (outcomeOfSource · source) := by
      funext stage
      obtain ⟨path, asked, reads⟩ := readable stage
      exact execute_of_reads program asked reads
    rw [outcomes]
    exact stagesAgree_outcomeOfSource source

/-- Two files, one of them in a subdirectory and the same as standard input. In that one
a word is neither a name nor a numeral. -/
def twoFiles : Sources Id :=
  let unmatched := "def f() 1a end".toUTF8
  Directory.sources (Directory.addFile
    (Directory.addFile [] "prog.def" "def f(x) x end".toUTF8) "src/bad.def" unmatched) unmatched

/-- The first file compiles, although standard input does not. A third one is missing. The
stages agree on the other source, wherever each of them reads it. -/
theorem command_agrees_on_two_files :
    Id.run (execute twoFiles "rdefc" ["prog.def"]) =
      ⟨0, Script.program "function f(x) \x7b return x \x7d;" ++ "\n", ""⟩ ∧
    (∃ text, text ≠ "" ∧
      Id.run (execute twoFiles "rdefc" ["--emit", "tokens", "missing.def"]) = ⟨1, "", text⟩) ∧
    StagesAgree "def f() 1a end" fun stage => Id.run (execute twoFiles "rdefc"
      (match stage with
        | .tokens => ["-", "--emit", "tokens"]
        | .outline => ["--emit", "ast", "src/bad.def"]
        | .script => ["./src/../src/bad.def"])) := by
  obtain ⟨succeeds, fails, agrees⟩ := command_agrees_with_compile twoFiles "rdefc"
  refine ⟨(succeeds _ _).mpr ?_, fails _ ?_, agrees _ _ ?_⟩
  · exact ⟨⟨.script, "prog.def"⟩, "def f(x) x end", by decide, .file (by decide) rfl,
      by decide +kernel⟩
  · rintro output ⟨options, source, asked, reads, -⟩
    obtain rfl : ⟨.tokens, "missing.def"⟩ = options := Option.some.inj asked
    have missing : Except.error ReadError.notFound = Except.ok source.toUTF8 :=
      Sources.reads_iff.mp reads
    cases missing
  · intro stage
    cases stage with
    | tokens => exact ⟨"-", by decide, .standardInput rfl⟩
    | outline => exact ⟨"src/bad.def", by decide, .file (by decide) rfl⟩
    | script => exact ⟨"./src/../src/bad.def", by decide, .file (by decide) rfl⟩

end DefLang.Command
