import LockService.Primitive.Semaphore

/-!
# Concurrency limits

A limit on how many holders run at once on a key. Unlike a semaphore, a release hands back the handle's own
identifier, which is drawn once, so that each handle frees only what it took. A limit with a priority puts it into the
re-entry byte of its requests.
-/

namespace LockService

/-- A concurrency limit on a key. -/
structure FlowLimit where
  dbId : UInt8
  key : LockKey
  permits : UInt16
  timeout : TimeWord
  expire : TimeWord
  priority : Option UInt8 := none

namespace FlowLimit

/-- The handle's lock once it is made. -/
abbrev State := Option Lock

def lockAs (h : FlowLimit) (id : Ident) : Lock :=
  let lock : Lock :=
    { dbId := h.dbId, key := h.key, id, timeout := h.timeout, expire := h.expire, count := h.permits - 1 }
  match h.priority with
  | some priority =>
    { lock with timeout := h.timeout.withModifiers TimeoutFlag.reentryIsPriority, reentry := priority }
  | none => lock

/-- The handle's lock, which is made on first use. -/
def current (h : FlowLimit) : Call State Lock := do
  match ← Call.state with
  | some lock => return lock
  | none =>
    let lock := h.lockAs (← Call.fresh)
    set (some lock)
    return lock

/-- Takes the handle's slot. -/
def acquire (h : FlowLimit) : Attempt State LockReply := do
  let lock ← h.current
  lock.acquire

/-- Gives the handle's slot back; before the handle's lock is made this fails at once. -/
def release (_ : FlowLimit) : Attempt State LockReply := do
  match ← Attempt.ofCall Call.state with
  | none => throw .notHeld
  | some lock => lock.release

/-- Takes the handle's slot with a callback. -/
def postAcquire (h : FlowLimit) : Call State (Posting (Outcome LockReply)) := do
  let lock ← h.current
  lock.postAcquire 0

/-- Gives the handle's slot back with a callback; the handle's lock is made if there is none. -/
def postRelease (h : FlowLimit) : Call State (Posting (Outcome LockReply)) := do
  let lock ← h.current
  lock.postRelease 0

end FlowLimit

/-- A concurrency limit in a database; without permits it has one. -/
def Database.flowLimit (db : Database) (key : LockKey) (permits : UInt16) (timeout expire : TimeWord)
    (priority : Option UInt8) : FlowLimit :=
  { dbId := db.id, key, permits := atLeastOne permits, timeout, expire, priority }

end LockService
