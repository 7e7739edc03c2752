import LockService.Primitive.Lock

/-!
# Reentrant locks

A lock that its holder may take repeatedly. Nested acquires use one identifier, so that the server counts them; the
identifier is dropped when a release brings the depth to zero, and the next acquire draws a new one.
-/

namespace LockService

structure ReentrantLock where
  dbId : UInt8
  key : LockKey
  timeout : TimeWord
  expire : TimeWord

namespace ReentrantLock

/-- The lock in use, if any, and the number of acquires not yet matched by a release. An identifier is drawn for every
acquire, so that the depth never exceeds the number of identifiers drawn, and a word of 32 bits would hold it as long as
fewer than 2³² have been. -/
structure State where
  lock : Option Lock := none
  depth : Nat := 0

def lockAs (h : ReentrantLock) (id : Ident) : Lock :=
  { dbId := h.dbId, key := h.key, id, timeout := h.timeout, expire := h.expire, reentry := fullReentry }

/-- The lock in use, which is made if there is none. -/
def current (h : ReentrantLock) : Call State Lock := do
  match (← get).lock with
  | some lock => return lock
  | none =>
    let lock := h.lockAs (← Call.fresh)
    modify fun s => { s with lock := some lock }
    return lock

/-- Takes the lock once more. -/
def acquire (h : ReentrantLock) : Attempt State LockReply := do
  let lock ← h.current
  let reply ← lock.acquire
  modify fun s => { s with depth := s.depth + 1 }
  return reply

/-- Gives the lock back once; without a lock in use this fails at once. -/
def release (_ : ReentrantLock) : Attempt State LockReply := do
  match (← get).lock with
  | none => throw .notHeld
  | some lock =>
    let reply ← lock.release
    modify fun s => if s.depth - 1 = 0 then { lock := none, depth := 0 } else { s with depth := s.depth - 1 }
    return reply

end ReentrantLock

end LockService
