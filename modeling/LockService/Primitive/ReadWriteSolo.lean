import LockService.Call.Solo
import LockService.Primitive.ReadUse

/-!
# Read/write locks with a single caller

The calls that are over tell which reads were granted and which of them are over, and with that what the queue of a
handle has to be.
-/

namespace LockService.ReadWriteLock

/-- A call on a handle. -/
inductive ReadWriteCall where
  | acquireRead
  | releaseRead
  | acquireWrite
  | releaseWrite
deriving DecidableEq

/-- Whether a call is one for writing. -/
def ReadWriteCall.isWrite : ReadWriteCall → Bool
  | acquireWrite | releaseWrite => true
  | acquireRead | releaseRead => false

def attempt (h : ReadWriteLock) : ReadWriteCall → Attempt State LockReply
  | .acquireRead => h.acquireRead
  | .releaseRead => h.releaseRead
  | .acquireWrite => h.acquireWrite
  | .releaseWrite => h.releaseWrite

/-- A new handle. -/
def alone (ids : IdSource) : Solo State ReadWriteCall := { state := {}, ids }

/-- How many reads the handle holds. -/
def State.readCount (s : State) : Nat := s.reads.length

/-- The reads that were granted, in order. -/
def granted (past : List (PastCall ReadWriteCall)) : List Ident :=
  past.flatMap fun m => if m.call = .acquireRead ∧ m.answer.isGrant then m.sent.map (·.lockId) else []

/-- The reads that were given back or that the server said were gone, in order. -/
def ended (past : List (PastCall ReadWriteCall)) : List Ident :=
  past.flatMap fun m => if m.call = .releaseRead ∧ m.answer.isOver then m.sent.map (·.lockId) else []

end LockService.ReadWriteLock
