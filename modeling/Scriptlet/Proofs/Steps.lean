/-
This file opens steps that carry a state and may fail. Runs and readers are both made
of such steps, one after the other, so what a sequence of two comes to is said here
once.
-/

namespace EStateM

variable {ε σ α β : Type}

theorem pure_apply (value : α) (state : σ) :
    (pure value : EStateM ε σ α) state = .ok value state := rfl

theorem get_apply (state : σ) : (get : EStateM ε σ σ) state = .ok state state := rfl

theorem bind_of_ok {step : EStateM ε σ α} {next : α → EStateM ε σ β} {state middle : σ} {value : α}
    (yields : step state = .ok value middle) : (step >>= next) state = next value middle := by
  show EStateM.bind step next state = _
  rw [EStateM.bind, yields]

theorem bind_of_error {step : EStateM ε σ α} {next : α → EStateM ε σ β} {state middle : σ}
    {stop : ε} (stops : step state = .error stop middle) :
    (step >>= next) state = .error stop middle := by
  show EStateM.bind step next state = _
  rw [EStateM.bind, stops]

/-- A sequence of two steps yields a value only if both do. The second step is left as a run, so
that a choice it starts with can be split. -/
theorem of_bind_ok {step : EStateM ε σ α} {next : α → EStateM ε σ β} {state last : σ} {result : β}
    (yields : (step >>= next) state = .ok result last) :
    ∃ value middle, step state = .ok value middle ∧
      (next value).run middle = .ok result last := by
  cases first : step state with
  | ok value middle =>
    rw [bind_of_ok first] at yields
    exact ⟨value, middle, rfl, yields⟩
  | error stop middle =>
    rw [bind_of_error first] at yields
    cases yields

theorem of_pure_ok {value result : α} {state last : σ}
    (yields : (pure value : EStateM ε σ α) state = .ok result last) :
    value = result ∧ state = last := by
  rw [pure_apply] at yields
  injection yields with sameValue sameState
  exact ⟨sameValue, sameState⟩

end EStateM
