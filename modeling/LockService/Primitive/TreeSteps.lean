import LockService.Call.Script
import LockService.Primitive.Tree

/-!
# The steps of a leaf's calls

A call on a leaf takes steps, each of which sends one request. A failure ends the call, unless it is of the kind that
does not matter for the step.
-/

namespace LockService

/-- A request of a call on a leaf, and the kind of failure of it that does not matter, if any. -/
structure TreeStep where
  lock : Lock
  kind : CommandKind
  flag : UInt8
  spared : Option LockFault
deriving DecidableEq

namespace TreeStep

def request (step : TreeStep) (id : Ident) : LockRequest := step.lock.requestWith step.kind step.flag id

/-- The requests of some steps, under the identifiers that come next. -/
def requests (steps : List TreeStep) (ids : IdSource) : List LockRequest :=
  steps.zipWith request (ids.take steps.length)

/-- A step goes well if its request is answered with success, or fails in the way that does not matter. -/
def Passes (step : TreeStep) (outcome : Outcome Reply) : Prop :=
  ∀ failure, outcome >>= lockOutcome = .error failure →
    ∃ fault, step.spared = some fault ∧ failure.lockFault? = some fault

/-- All steps go well when their requests are answered in turn. -/
def AllPass (steps : List TreeStep) (script : Nat → Outcome Reply) : Prop :=
  ∀ i (step : TreeStep), steps[i]? = some step → step.Passes (script i)

/-- The first steps, up to a place, go well. -/
def PassUpTo (n : Nat) (steps : List TreeStep) (script : Nat → Outcome Reply) : Prop :=
  ∀ i < n, ∀ step : TreeStep, steps[i]? = some step → step.Passes (script i)

end TreeStep

namespace TreeLeaf

/-- The marks that stand for the link of the leaf's node to its parent. -/
def marks (leaf : TreeLeaf) : List Lock :=
  match leaf.node.parent with
  | some parent => [leaf.node.childMark parent, leaf.node.parentMark parent]
  | none => []

/-- An acquire places the marks, which may be there already, and takes the node. -/
def acquireSteps (leaf : TreeLeaf) : List TreeStep :=
  leaf.marks.map (⟨·, .lock, LockFlag.treeMark, some .locked⟩) ++ [⟨leaf.lock, .lock, 0, none⟩]

/-- A release gives the node back and takes the marks back, which may be gone already. -/
def releaseSteps (leaf : TreeLeaf) : List TreeStep :=
  ⟨leaf.lock, .unlock, 0, none⟩ :: leaf.marks.map (⟨·, .unlock, UnlockFlag.treeMark, some .unlocked⟩)

end TreeLeaf

/-- What a request is about, but for its own identifier and for whether it takes or gives back. -/
def LockRequest.subject (r : LockRequest) : Lock :=
  { dbId := r.dbId, key := r.lockKey, id := r.lockId, timeout := r.timeout, expire := r.expire, count := r.count
    reentry := r.reentry }

end LockService
