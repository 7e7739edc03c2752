import LockService.Call.Solo
import LockService.Primitive.ReentrantLock

/-!
# Reentrant locks with a single caller

The calls that are over tell how deep the lock is held. They fall into spells: a spell begins with an acquire and ends
with the first release after it that succeeds and leaves the depth at zero.
-/

namespace LockService

namespace ReentrantLock

/-- A call on a handle. -/
inductive ReentrantCall where
  | acquire
  | release
deriving DecidableEq

def attempt (h : ReentrantLock) : ReentrantCall → Attempt State LockReply
  | .acquire => h.acquire
  | .release => h.release

/-- A new handle. -/
def alone (ids : IdSource) : Solo State ReentrantCall := { state := {}, ids }

/-- How deep the lock is held after a call, given how deep before: it counts for one more if an acquire succeeds and for
one less if a release does, but for no less than nothing. -/
def depthAfter (depth : Nat) (past : PastCall ReentrantCall) : Nat :=
  match past.call, past.returned with
  | .acquire, .ok _ => depth + 1
  | .release, .ok _ => depth - 1
  | _, .error _ => depth

def depthOf (past : List (PastCall ReentrantCall)) : Nat := past.foldl depthAfter 0

/-- A call, after others, is a release that succeeds and leaves the depth at zero. -/
structure EndsSpell (before : List (PastCall ReentrantCall)) (last : PastCall ReentrantCall) : Prop where
  release : last.call = .release
  success : last.returned.isOk = true
  depth : depthOf (before ++ [last]) = 0

instance (before : List (PastCall ReentrantCall)) (last : PastCall ReentrantCall) : Decidable (EndsSpell before last) :=
  decidable_of_iff (last.call = .release ∧ last.returned.isOk = true ∧ depthOf (before ++ [last]) = 0)
    ⟨fun h => ⟨h.1, h.2.1, h.2.2⟩, fun h => ⟨h.1, h.2, h.3⟩⟩

/-- Calls after others are a spell, over or not: they begin with an acquire, and none but the last ends it. -/
structure IsSpell (before spell : List (PastCall ReentrantCall)) : Prop where
  begins : spell.head?.map (·.call) = some .acquire
  goesOn : ∀ first m, first ++ [m] <+: spell → first.length + 1 < spell.length → ¬ EndsSpell (before ++ first) m

/-- No acquire has been made since the beginning or since the last spell ended. -/
def IsIdle (past : List (PastCall ReentrantCall)) : Prop :=
  ∃ first idle, past = first ++ idle ∧ (∀ m ∈ idle, m.call = .release) ∧
    (first = [] ∨ ∃ before last, first = before ++ [last] ∧ EndsSpell before last)

end ReentrantLock

end LockService
