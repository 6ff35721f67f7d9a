import DefLang.Command
import Mathlib.Data.List.Basic

/-!
# The language of the arguments

The arguments are a path with requests for stages before and after it. A request
is a pair of arguments, and its second one looks like a path, so only what stands
before an argument tells what it is. Soundness follows the turns of the loop, each
of which takes a whole request or the path off the front. Completeness follows the
requests: a path among them changes nothing about the stage that holds at the end.
-/
namespace DefLang.Command

namespace Stage

/-- The name of a stage among the arguments. -/
def name : Stage → String
  | tokens => "tokens"
  | outline => "ast"
  | script => "js"

/-- The two arguments that ask for a stage. -/
def request (stage : Stage) : List String := ["--emit", stage.name]

/-- The arguments that ask for one stage after the other. -/
def requests (stages : List Stage) : List String := stages.flatMap request

section Requests

variable {text : String} {stage : Stage} {stages : List Stage}

theorem ofName?_eq_some_iff : ofName? text = some stage ↔ text = stage.name := by
  constructor
  · intro named
    unfold ofName? at named
    split_ifs at named with isTokens isOutline isScript
    all_goals cases named
    · exact isTokens
    · exact isOutline
    · exact isScript
  · rintro rfl
    cases stage <;> decide

theorem requests_cons : requests (stage :: stages) = "--emit" :: stage.name :: requests stages :=
  rfl

end Requests

end Stage

open Stage (requests requests_cons ofName?_eq_some_iff)

namespace Options

theorem isFlag_iff_isPrefix {argument : String} :
    IsFlag argument ↔ "--".toList <+: argument.toList := by
  rw [List.prefix_iff_eq_take, eq_comm]
  rfl

section Turns

variable {stage asked : Stage} {held : Option String} {path : String} {rest : List String}

/-- A request replaces the stage and leaves the path alone. -/
theorem extend?_request :
    extend? stage held ("--emit" :: asked.name :: rest) = extend? asked held rest := by
  rw [extend?.eq_def]
  simp only [if_pos, ofName?_eq_some_iff.mpr rfl]

theorem extend?_path (plain : ¬ IsFlag path) :
    extend? stage none (path :: rest) = extend? stage (some path) rest := by
  have notRequest : path ≠ "--emit" := by
    rintro rfl
    exact plain (by decide)
  rw [extend?.eq_def]
  simp only [if_neg notRequest, if_neg plain]

/-- After requests the last one holds, or the stage before them if there is none. -/
theorem extend?_requests (stages : List Stage) :
    extend? stage held (requests stages ++ rest) = extend? (stages.getLastD stage) held rest := by
  induction stages generalizing stage with
  | nil => rfl
  | cons asked stages inductionHypothesis =>
      rw [requests_cons, List.cons_append, List.cons_append, extend?_request,
        inductionHypothesis, List.getLastD_cons]

/-- No flag is taken for a path, not even the one that starts a request: what follows it
here is the start of the next request, which names no stage. -/
theorem extend?_of_isFlag (flag : IsFlag path) (stages : List Stage) :
    extend? stage held (path :: requests stages) = none := by
  rw [extend?.eq_def]
  by_cases emit : path = "--emit"
  · simp only [if_pos emit]
    cases stages <;> rfl
  · simp only [if_neg emit, if_pos flag]

theorem extend?_held_requests (stages : List Stage) :
    extend? stage (some path) (requests stages) = some ⟨stages.getLastD stage, path⟩ := by
  calc
    extend? stage (some path) (requests stages) =
        extend? stage (some path) (requests stages ++ []) := by rw [List.append_nil]
    _ = extend? (stages.getLastD stage) (some path) [] := extend?_requests stages
    _ = some ⟨stages.getLastD stage, path⟩ := rfl

/-- The requests on both sides of a path count as one list. -/
theorem extend?_around_path (plain : ¬ IsFlag path) (before after : List Stage) :
    extend? stage none (requests before ++ path :: requests after) =
      some ⟨(before ++ after).getLastD stage, path⟩ := by
  rw [extend?_requests, extend?_path plain, extend?_held_requests]
  simp [Option.getD_or]

end Turns

/-- The arguments that lead to the options from the stage and the path that hold so far:
requests only once there is a path, and a path among requests before that. -/
def Completes (options : Options) (stage : Stage) : Option String → List String → Prop
  | some path, arguments => ∃ after, arguments = requests after ∧
      options = ⟨after.getLastD stage, path⟩
  | none, arguments => ∃ before path after,
      arguments = requests before ++ path :: requests after ∧ ¬ IsFlag path ∧
        options = ⟨(before ++ after).getLastD stage, path⟩

section Completes

variable {options : Options} {stage asked : Stage} {held : Option String}
  {arguments : List String}

theorem Completes.request (completes : Completes options asked held arguments) :
    Completes options stage held ("--emit" :: asked.name :: arguments) := by
  cases held with
  | some path =>
      obtain ⟨after, rfl, rfl⟩ := completes
      exact ⟨asked :: after, requests_cons.symm, by rw [List.getLastD_cons]⟩
  | none =>
      obtain ⟨before, path, after, rfl, plain, rfl⟩ := completes
      refine ⟨asked :: before, path, after, rfl, plain, ?_⟩
      rw [List.cons_append, List.getLastD_cons]

theorem Completes.path {path : String}
    (completes : Completes options stage (some path) arguments) (plain : ¬ IsFlag path) :
    Completes options stage none (path :: arguments) := by
  obtain ⟨after, rfl, rfl⟩ := completes
  exact ⟨[], path, after, rfl, plain, rfl⟩

/-- Whatever the loop accepts completes the stage and the path it started from. Each turn
takes a request or the path off the front. -/
theorem completes_of_extend? (read : extend? stage held arguments = some options) :
    Completes options stage held arguments := by
  fun_induction extend? stage held arguments with
  | case1 stage held =>
      obtain ⟨path, rfl, rfl⟩ := Option.map_eq_some_iff.mp read
      exact ⟨[], rfl, rfl⟩
  | case2 => cases read
  | case3 stage held name rest asked named inductionHypothesis =>
      obtain rfl := ofName?_eq_some_iff.mp named
      exact (inductionHypothesis read).request
  | case4 => cases read
  | case5 => cases read
  | case6 => cases read
  | case7 stage path rest notRequest plain inductionHypothesis =>
      exact (inductionHypothesis read).path plain

theorem extend?_of_completes (completes : Completes options stage held arguments) :
    extend? stage held arguments = some options := by
  cases held with
  | some path =>
      obtain ⟨after, rfl, rfl⟩ := completes
      exact extend?_held_requests after
  | none =>
      obtain ⟨before, path, after, rfl, plain, rfl⟩ := completes
      exact extend?_around_path plain before after

theorem extend?_eq_some_iff :
    extend? stage held arguments = some options ↔ Completes options stage held arguments :=
  ⟨completes_of_extend?, extend?_of_completes⟩

end Completes

/-- The arguments give options exactly when they are requests around one argument that does
not start with two hyphens. That argument is the path, and the last request holds. The
requests alone decide what stage that is, and not where the path stands among them. -/
theorem ofArguments?_reads_requests_around_path (arguments : List String) :
    (∀ options : Options, ofArguments? arguments = some options ↔
      ∃ before after : List Stage,
        arguments = requests before ++ options.path :: requests after ∧
        ¬ "--".toList <+: options.path.toList ∧
        options.stage = (before ++ after).getLastD .script) ∧
    ∀ (path : String) (before after : List Stage),
      ofArguments? (requests before ++ path :: requests after) =
        ofArguments? (path :: requests (before ++ after)) := by
  refine ⟨fun options => ?_, fun path before after => ?_⟩
  · rw [ofArguments?, extend?_eq_some_iff]
    constructor
    · rintro ⟨before, path, after, around, plain, rfl⟩
      exact ⟨before, after, around, fun starts => plain (isFlag_iff_isPrefix.mpr starts), rfl⟩
    · rintro ⟨before, after, around, plain, last⟩
      refine ⟨before, options.path, after, around,
        fun flag => plain (isFlag_iff_isPrefix.mp flag), ?_⟩
      rw [← last]
  · rw [ofArguments?, ofArguments?]
    by_cases flag : IsFlag path
    · rw [extend?_requests, extend?_of_isFlag flag, extend?_of_isFlag flag]
    · rw [extend?_around_path flag, extend?_path flag, extend?_held_requests]

/-- A hyphen alone does not make a flag. -/
example : ∀ path ∈ ["", "-", "-x"],
    ofArguments? ["--emit", "ast", path] = some ⟨.outline, path⟩ := by decide

end Options

end DefLang.Command
