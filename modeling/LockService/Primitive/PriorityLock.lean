import LockService.Primitive.Lock

/-!
# Priority locks

An exclusive lock whose waiters are served highest priority first. The priority travels in the re-entry byte, which
the timeout word marks as such.
-/

namespace LockService

structure PriorityLock where
  lock : Lock
  priority : UInt8

namespace PriorityLock

variable {σ : Type}

def acquire (h : PriorityLock) : Attempt σ LockReply := h.lock.acquire

/-- Gives the lock back. -/
def release (h : PriorityLock) : Attempt σ LockReply := h.lock.release

def postAcquire (h : PriorityLock) : Call σ (Posting (Outcome LockReply)) := h.lock.postAcquire 0

def postRelease (h : PriorityLock) : Call σ (Posting (Outcome LockReply)) := h.lock.postRelease 0

end PriorityLock

def Database.priorityLock {σ : Type} (db : Database) (key : LockKey) (priority : UInt8) (timeout expire : TimeWord) :
    Call σ PriorityLock := do
  let lock ← db.lock key (timeout.withModifiers TimeoutFlag.reentryIsPriority) expire
  return { lock := { lock with reentry := priority }, priority }

end LockService
