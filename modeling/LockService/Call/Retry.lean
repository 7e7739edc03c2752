import LockService.Call.Basic

/-!
# Waiting once more

A wait that times out can be followed by clearing what was waited for and one last look. When the look finds nothing
new, the failure of the first wait is reported.
-/

namespace LockService.Attempt

variable {σ α β : Type}

/-- Waits; after a timeout clears, and then looks once more. -/
def retryCleared (wait : Attempt σ α) (clear : Attempt σ β) (look : Attempt σ α) : Attempt σ α := ExceptT.mk do
  match ← wait.outcome with
  | .ok value => return .ok value
  | .error failure =>
    if failure.isTimeout then
      match ← clear.outcome with
      | .error other => return .error other
      | .ok _ =>
        match ← look.outcome with
        | .ok value => return .ok value
        | .error again => return .error (if again.isLocked || again.isTimeout then failure else again)
    else return .error failure

/-! ### Runs -/

section Runs

variable {τ : Type} {respond : Responder τ} {wait look : Attempt σ α} {clear : Attempt σ β} {value : α} {cleared : β}
  {failure other : Failure} {scene scene₁ scene₂ scene₃ : Scene σ τ}

theorem run_retryCleared_of_ok (hwait : wait.outcome.run respond scene = (.ok value, scene₁)) :
    (wait.retryCleared clear look).outcome.run respond scene = (.ok value, scene₁) := by
  have hbind : (wait.retryCleared clear look).outcome = wait.outcome >>= _ := rfl
  rw [hbind, Call.run_bind, hwait]
  rfl

variable (hwait : wait.outcome.run respond scene = (.error failure, scene₁))

include hwait

/-- Only a timeout is followed by anything. -/
theorem run_retryCleared_of_error (hfailure : ¬ failure.isTimeout = true) :
    (wait.retryCleared clear look).outcome.run respond scene = (.error failure, scene₁) := by
  have hbind : (wait.retryCleared clear look).outcome = wait.outcome >>= _ := rfl
  rw [hbind, Call.run_bind, hwait]
  dsimp only
  rw [if_neg hfailure]
  rfl

theorem run_retryCleared_of_uncleared (hfailure : failure.isTimeout = true)
    (hclear : clear.outcome.run respond scene₁ = (.error other, scene₂)) :
    (wait.retryCleared clear look).outcome.run respond scene = (.error other, scene₂) := by
  have hbind : (wait.retryCleared clear look).outcome = wait.outcome >>= _ := rfl
  rw [hbind, Call.run_bind, hwait]
  dsimp only
  rw [if_pos hfailure, Call.run_bind, hclear]
  rfl

variable (hfailure : failure.isTimeout = true) (hclear : clear.outcome.run respond scene₁ = (.ok cleared, scene₂))

include hfailure hclear

theorem run_retryCleared_of_found (hlook : look.outcome.run respond scene₂ = (.ok value, scene₃)) :
    (wait.retryCleared clear look).outcome.run respond scene = (.ok value, scene₃) := by
  have hbind : (wait.retryCleared clear look).outcome = wait.outcome >>= _ := rfl
  rw [hbind, Call.run_bind, hwait]
  dsimp only
  rw [if_pos hfailure, Call.run_bind, hclear]
  dsimp only
  rw [Call.run_bind, hlook]
  rfl

/-- When the look finds nothing new, the failure of the wait stands. -/
theorem run_retryCleared_of_missed (hlook : look.outcome.run respond scene₂ = (.error other, scene₃)) :
    (wait.retryCleared clear look).outcome.run respond scene =
      (.error (if other.isLocked || other.isTimeout then failure else other), scene₃) := by
  have hbind : (wait.retryCleared clear look).outcome = wait.outcome >>= _ := rfl
  rw [hbind, Call.run_bind, hwait]
  dsimp only
  rw [if_pos hfailure, Call.run_bind, hclear]
  dsimp only
  rw [Call.run_bind, hlook]
  rfl

end Runs

end LockService.Attempt
