import LockService.Primitive.Lock

/-!
# Read/write locks

Many readers or one writer on a key. Every read has an identifier of its own and the reads of a handle queue up, so
that a release gives back the oldest of them; the writer's identifier is drawn once and kept.
-/

namespace LockService

structure ReadWriteLock where
  dbId : UInt8
  key : LockKey
  timeout : TimeWord
  expire : TimeWord

namespace ReadWriteLock

/-- The writer's lock once it is made, and the locks of the reads held, oldest first. -/
structure State where
  write : Option Lock := none
  reads : List Lock := []

def readAs (h : ReadWriteLock) (id : Ident) : Lock :=
  { dbId := h.dbId, key := h.key, id, timeout := h.timeout, expire := h.expire, count := unboundedCount }

def writeAs (h : ReadWriteLock) (id : Ident) : Lock :=
  { dbId := h.dbId, key := h.key, id, timeout := h.timeout, expire := h.expire }

def acquireRead (h : ReadWriteLock) : Attempt State LockReply := do
  let lock := h.readAs (← Attempt.ofCall Call.fresh)
  let reply ← lock.acquire
  modify fun s => { s with reads := s.reads ++ [lock] }
  return reply

/-- Takes the oldest read out of the queue. -/
def popRead : Call State (Option Lock) := do
  match (← get).reads with
  | [] => return none
  | lock :: rest =>
    modify fun s => { s with reads := rest }
    return some lock

/-- Gives the oldest read back. It returns to the front of the queue when this fails, unless the server says that it
is gone already. -/
def releaseRead (_ : ReadWriteLock) : Attempt State LockReply := ExceptT.mk do
  match ← popRead with
  | none => return .error .notHeld
  | some lock =>
    match ← lock.release.outcome with
    | .ok reply => return .ok reply
    | .error failure =>
      if !failure.isUnlocked then
        modify fun s => { s with reads := lock :: s.reads }
      return .error failure

/-- The writer's lock, which is made on first use. -/
def writer (h : ReadWriteLock) : Call State Lock := do
  match (← get).write with
  | some lock => return lock
  | none =>
    let lock := h.writeAs (← Call.fresh)
    modify fun s => { s with write := some lock }
    return lock

/-- Takes the key for writing. -/
def acquireWrite (h : ReadWriteLock) : Attempt State LockReply := do
  let lock ← h.writer
  lock.acquire

/-- Gives the key back after writing; before the first write this fails at once. -/
def releaseWrite (_ : ReadWriteLock) : Attempt State LockReply := do
  match (← get).write with
  | none => throw .notHeld
  | some lock => lock.release

end ReadWriteLock

end LockService
