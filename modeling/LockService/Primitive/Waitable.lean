import LockService.Primitive.Event
import LockService.Primitive.GroupEvent

/-!
# Handles that can be waited for

Events and group events offer the same calls to those who wait: to wait, to clear, and to clear and look once more when
a wait has timed out.
-/

namespace LockService

/-- An event or a group event, by its state and by what a wait tells when it succeeds. -/
inductive Waitable : Type → Type → Type where
  | event (e : Event) : Waitable Unit Unit
  | group (e : GroupEvent) : Waitable GroupEvent.State LockReply

namespace Waitable

variable {σ α : Type}

def wait (timeout : TimeWord) : Waitable σ α → Attempt σ α
  | event e => e.wait timeout
  | group e => e.wait timeout

def clear : Waitable σ α → Attempt σ Unit
  | event e => e.clear
  | group e => e.clear

/-- Waits; after a timeout clears and looks once more. -/
def waitRetryClear (timeout : TimeWord) : Waitable σ α → Attempt σ α
  | event e => e.waitRetryClear timeout
  | group e => e.waitRetryClear timeout

theorem waitRetryClear_eq (timeout : TimeWord) (h : Waitable σ α) :
    h.waitRetryClear timeout = (h.wait timeout).retryCleared h.clear (h.wait (TimeWord.pack 0 0)) := by
  cases h <;> rfl

end Waitable

end LockService
