import Dalvik.Decode.Basic

/-!
# Effects

What a step does from a state, whatever kind of step it is. What holds for two effects one after the
other holds for every kind of step.
-/

namespace Dalvik

variable {α β : Type}

/-- What a step does from a state: how it ends, and the state after it. -/
abbrev Effect (σ α : Type) := σ → Except Failure α × σ

namespace Effect

variable {σ : Type}

/-- What two steps do one after the other. -/
def andThen (first : Effect σ α) (next : α → Effect σ β) : Effect σ β := fun state =>
  match first state with
  | (.ok a, after) => next a after
  | (.error failure, after) => (.error failure, after)

variable {first : Effect σ α} {next : α → Effect σ β} {state after : σ} {failure : Failure}

theorem andThen_of_ok {a : α} (h : first state = (.ok a, after)) :
    first.andThen next state = next a after := by
  rw [andThen, h]

theorem andThen_of_error (h : first state = (.error failure, after)) :
    first.andThen next state = (.error failure, after) := by
  rw [andThen, h]

/-- Two steps succeed if the first does and then the second. -/
theorem ok_of_andThen {b : β} (h : first.andThen next state = (.ok b, after)) :
    ∃ a middle, first state = (.ok a, middle) ∧ next a middle = (.ok b, after) := by
  cases hfirst : first state with
  | mk result middle =>
      cases result with
      | ok a =>
          rw [andThen_of_ok hfirst] at h
          exact ⟨a, middle, rfl, h⟩
      | error refusal =>
          rw [andThen_of_error hfirst] at h
          cases h

/-- Two steps fail as the first does, or as the second does once the first has succeeded. -/
theorem error_of_andThen (h : first.andThen next state = (.error failure, after)) :
    first state = (.error failure, after) ∨
      ∃ a middle, first state = (.ok a, middle) ∧ next a middle = (.error failure, after) := by
  cases hfirst : first state with
  | mk result middle =>
      cases result with
      | ok a =>
          rw [andThen_of_ok hfirst] at h
          exact .inr ⟨a, middle, rfl, h⟩
      | error refusal =>
          rw [andThen_of_error hfirst] at h
          cases h
          exact .inl rfl

end Effect

theorem Reporting.run_bind_eq_andThen (step : Reporting α) (next : α → Reporting β) :
    run (step >>= next) = Effect.andThen (run step) fun a => run (next a) := by
  funext journal
  rw [run_bind, Effect.andThen]
  cases run step journal with
  | mk result after => cases result <;> rfl

theorem Decode.run_bind_eq_andThen (step : Decode α) (next : α → Decode β) (input : Bytes) :
    run (step >>= next) input = Effect.andThen (run step input) fun a => run (next a) input := by
  funext scan
  rw [run_bind, Effect.andThen]
  cases run step input scan with
  | mk result after => cases result <;> rfl

/-- What is known of two steps that succeed one after the other. -/
theorem Decode.ok_of_run_bind {step : Decode α} {next : α → Decode β} {input : Bytes}
    {scan after : Scan} {b : β} (h : run (step >>= next) input scan = (.ok b, after)) :
    ∃ a middle, run step input scan = (.ok a, middle) ∧
      run (next a) input middle = (.ok b, after) := by
  rw [run_bind_eq_andThen] at h
  exact Effect.ok_of_andThen h

end Dalvik
