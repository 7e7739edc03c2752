import LockService.Call.Interleaving
import LockService.Primitive.ReentrantLock

/-!
# Reentrant locks in concurrent use

Several callers share one handle. Each acquire and each release sends its request in one section and looks at the
answer in another, and sections of others come between. The books beside the handle record what the server has
granted and taken back.
-/

namespace LockService

namespace ReentrantLock

/-- What can happen on a shared handle. -/
inductive Use where
  | acquire
  | release
  /-- The `n`-th of the requests under way gets its outcome. -/
  | answer (n : Nat) (outcome : Outcome Reply)

/-- A shared handle with the books of its acquires and releases. -/
structure Shared where
  handle : Interleaving State (Outcome LockReply)
  /-- The identifiers under which acquires were granted, in order. -/
  granted : List Ident := []
  /-- The number of releases that succeeded. -/
  returned : Nat := 0

namespace Shared

/-- A new handle. -/
def fresh (ids : IdSource) : Shared := { handle := { state := {}, ids } }

/-- The identifiers of the acquires that no release has matched yet. -/
def outstanding (p : Shared) : List Ident := p.granted.drop p.returned

def record (p : Shared) (request : LockRequest) (outcome : Outcome Reply) : Shared :=
  if outcome.isGrant then
    if request.kind = .lock then { p with granted := p.granted ++ [request.lockId] }
    else { p with returned := p.returned + 1 }
  else p

/-- An answer grants an acquire under another identifier than that of the lock in use. -/
def GrantsStale (p : Shared) : Use → Prop
  | .answer n outcome => ∃ u ∈ p.handle.underWay[n]?, u.request.kind = .lock ∧ outcome.isGrant = true ∧
    p.handle.state.lock.map (·.id) ≠ some u.request.lockId
  | _ => False

instance (p : Shared) : DecidablePred p.GrantsStale
  | .acquire => inferInstanceAs (Decidable False)
  | .release => inferInstanceAs (Decidable False)
  | .answer n outcome => inferInstanceAs (Decidable (∃ u ∈ p.handle.underWay[n]?, u.request.kind = .lock ∧
      outcome.isGrant = true ∧ p.handle.state.lock.map (·.id) ≠ some u.request.lockId))

/-- An answer makes a release give up the lock in use while an acquire is on its way. -/
def Overtakes (p : Shared) : Use → Prop
  | .answer n outcome => ∃ u ∈ p.handle.underWay[n]?, u.request.kind = .unlock ∧ outcome.isGrant = true ∧
    p.handle.state.depth ≤ 1 ∧ ∃ v ∈ p.handle.underWay, v.request.kind = .lock
  | _ => False

/-- Lets something happen. -/
def step (h : ReentrantLock) (p : Shared) : Use → Shared
  | .acquire => { p with handle := p.handle.step (.start h.acquire.outcome) }
  | .release => { p with handle := p.handle.step (.start h.release.outcome) }
  | .answer n outcome =>
    match p.handle.underWay[n]? with
    | some u => { p.record u.request outcome with handle := p.handle.step (.settle n outcome) }
    | none => p

/-- Lets things happen one after the other. -/
def run (h : ReentrantLock) (p : Shared) (uses : List Use) : Shared := uses.foldl (step h) p

@[simp] theorem run_nil (h : ReentrantLock) (p : Shared) : p.run h [] = p := rfl

@[simp] theorem run_cons (h : ReentrantLock) (p : Shared) (use : Use) (uses : List Use) :
    p.run h (use :: uses) = (p.step h use).run h uses := rfl

theorem run_append (h : ReentrantLock) (p : Shared) (first second : List Use) :
    p.run h (first ++ second) = (p.run h first).run h second := List.foldl_append

end Shared

end ReentrantLock

end LockService
