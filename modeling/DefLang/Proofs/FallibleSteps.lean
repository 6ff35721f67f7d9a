/-!
# One fallible step after another

The parser, the compiler and the command are made of steps that may fail, each
of which goes on from what the one before it gives. A sequence that succeeds has
succeeded step by step. Rewording a failure does not touch a success.
-/
namespace DefLang

section Sequence

variable {Failure Value Result : Type}

@[simp]
theorem pure_eq_ok (value : Value) : (pure value : Except Failure Value) = .ok value := rfl

@[simp]
theorem ok_bind (value : Value) (next : Value → Except Failure Result) :
    (Except.ok value >>= next) = next value := rfl

@[simp]
theorem error_bind (failure : Failure) (next : Value → Except Failure Result) :
    (Except.error failure >>= next) = .error failure := rfl

theorem exists_of_bind_eq_ok {first : Except Failure Value}
    {next : Value → Except Failure Result} {result : Result}
    (succeeds : first >>= next = .ok result) :
    ∃ value, first = .ok value ∧ next value = .ok result := by
  cases first with
  | error failure => cases succeeds
  | ok value => exact ⟨value, rfl, succeeds⟩

end Sequence

section Reword

variable {Failure Reworded Value : Type} {outcome : Except Failure Value}
  {reword : Failure → Reworded}

@[simp]
theorem mapError_ok (value : Value) : (Except.ok value).mapError reword = .ok value := rfl

@[simp]
theorem mapError_error (failure : Failure) :
    (Except.error failure : Except Failure Value).mapError reword = .error (reword failure) := rfl

theorem mapError_eq_ok_iff {value : Value} :
    outcome.mapError reword = .ok value ↔ outcome = .ok value := by
  constructor
  · intro reworded
    cases outcome with
    | error failure => cases reworded
    | ok found =>
        cases reworded
        rfl
  · rintro rfl
    rfl

theorem mapError_eq_error_iff {reworded : Reworded} :
    outcome.mapError reword = .error reworded ↔
      ∃ failure, outcome = .error failure ∧ reword failure = reworded := by
  constructor
  · intro failed
    cases outcome with
    | error failure => exact ⟨failure, rfl, Except.error.inj failed⟩
    | ok value => cases failed
  · rintro ⟨failure, rfl, rfl⟩
    rfl

end Reword

end DefLang
