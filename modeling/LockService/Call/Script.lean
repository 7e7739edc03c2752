import LockService.Call.Basic

/-!
# Scripted answers

A script settles how the requests of a call are answered, one after the other and whatever they ask for.
-/

namespace LockService

/-- The other side gives the `n`-th request the `n`-th outcome of a script, and keeps the requests. -/
def scripted (script : Nat → Outcome Reply) : Responder (List LockRequest) := fun sent request =>
  (script sent.length, sent ++ [request])

end LockService
