import LockService.Primitive.FlowLimit

/-!
# Concurrency limits in use

A handle is called one call after the other, with and without callbacks. A call with a callback is run to the callback,
which gets the answer that the same request would get if it were awaited.
-/

namespace LockService.FlowLimit

/-- A call on a handle. -/
inductive FlowCall where
  | acquire
  | release
  /-- Takes the handle's slot with a callback. -/
  | postAcquire
  /-- Gives the handle's slot back with a callback. -/
  | postRelease
deriving DecidableEq

variable {τ : Type}

/-- What a call tells its caller or its callback, and what it leaves behind. -/
def perform (h : FlowLimit) (respond : Responder τ) : FlowCall → Scene State τ → Outcome LockReply × Scene State τ
  | .acquire, scene => h.acquire.outcome.run respond scene
  | .release, scene => h.release.outcome.run respond scene
  | .postAcquire, scene => Posting.run respond h.postAcquire scene
  | .postRelease, scene => Posting.run respond h.postRelease scene

/-- What calls leave behind one after the other. -/
def performAll (h : FlowLimit) (respond : Responder τ) (calls : List FlowCall) (scene : Scene State τ) :
    Scene State τ :=
  calls.foldl (fun scene call => (h.perform respond call scene).2) scene

@[simp] theorem performAll_nil (h : FlowLimit) (respond : Responder τ) (scene : Scene State τ) :
    h.performAll respond [] scene = scene := rfl

@[simp] theorem performAll_cons (h : FlowLimit) (respond : Responder τ) (call : FlowCall) (calls : List FlowCall)
    (scene : Scene State τ) : h.performAll respond (call :: calls) scene =
      h.performAll respond calls (h.perform respond call scene).2 := rfl

end LockService.FlowLimit
