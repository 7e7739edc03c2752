import LockService.Primitive.Event
import LockService.Primitive.PriorityLock
import LockService.Primitive.Semaphore

/-!
# Calls in two variants

Locks, semaphores, priority locks and events have calls in two variants. One waits for the answer and returns what it
comes to; the other hands the request over with a callback, which is told.
-/

namespace LockService

/-- A call in two variants, by the type of what they tell when all goes well. -/
inductive PairedCall : Type → Type where
  | acquire (lock : Lock) (flag : UInt8) : PairedCall LockReply
  | release (lock : Lock) (flag : UInt8) : PairedCall LockReply
  /-- Takes a slot of a semaphore. -/
  | takeSlot (s : Semaphore) : PairedCall LockReply
  /-- Frees the oldest slot of a semaphore. -/
  | freeSlot (s : Semaphore) : PairedCall LockReply
  | acquirePriority (h : PriorityLock) : PairedCall LockReply
  | releasePriority (h : PriorityLock) : PairedCall LockReply
  | setEvent (e : Event) : PairedCall Unit
  | clearEvent (e : Event) : PairedCall Unit
  | waitEvent (e : Event) (timeout : TimeWord) : PairedCall Unit

namespace PairedCall

variable {σ α : Type}

/-- The variant that waits. -/
def awaited : PairedCall α → Call σ (Outcome α)
  | acquire lock flag => (lock.acquireWith flag).outcome
  | release lock flag => (lock.releaseWith flag).outcome
  | takeSlot s => s.acquire.outcome
  | freeSlot s => s.release.outcome
  | acquirePriority h => h.acquire.outcome
  | releasePriority h => h.release.outcome
  | setEvent e => e.set.outcome
  | clearEvent e => e.clear.outcome
  | waitEvent e timeout => (e.wait timeout).outcome

/-- The variant with a callback. -/
def posted : PairedCall α → Call σ (Posting (Outcome α))
  | acquire lock flag => lock.postAcquire flag
  | release lock flag => lock.postRelease flag
  | takeSlot s => s.postAcquire
  | freeSlot s => s.postRelease
  | acquirePriority h => h.postAcquire
  | releasePriority h => h.postRelease
  | setEvent e => e.postSet
  | clearEvent e => e.postClear
  | waitEvent e timeout => e.postWait timeout

end PairedCall

end LockService
