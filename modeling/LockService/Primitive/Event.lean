import LockService.Call.Retry
import LockService.Primitive.Lock

/-!
# Events

An event is a flag that waiters block on until it is set. It is a lock on the event's key, held under the key's own
bytes: an event that is set by default is clear while that lock is held, one that is clear by default is set while it
is held and is waited for in reverse. Both polarities behave alike to callers.
-/

namespace LockService

structure Event where
  dbId : UInt8
  key : LockKey
  timeout : TimeWord
  expire : TimeWord
  defaultSet : Bool

namespace Event

variable {σ : Type}

/-- The lock that, when held, turns the event away from its default. -/
def marker (e : Event) : Lock :=
  { dbId := e.dbId, key := e.key, id := e.key.asIdent, timeout := e.timeout, expire := e.expire }

def waitWord (e : Event) (timeout : TimeWord) : TimeWord :=
  if e.defaultSet then timeout else timeout.withModifiers TimeoutFlag.reverseWait

/-- The lock of a wait under a given identifier: it expires at once and succeeds when the event is set. -/
def peekAs (e : Event) (timeout : TimeWord) (id : Ident) : Lock :=
  { dbId := e.dbId, key := e.key, id, timeout := e.waitWord timeout, expire := TimeWord.pack 0 0 }

/-- The lock of a wait under a fresh identifier. -/
def peek (e : Event) (timeout : TimeWord) : Call σ Lock := return e.peekAs timeout (← Call.fresh)

def isSet (e : Event) : Attempt σ Bool := ExceptT.mk do
  let lock ← e.peek (TimeWord.pack 0 0)
  match ← lock.acquire.outcome with
  | .ok _ => return .ok true
  | .error failure => return if failure.isLocked || failure.isTimeout then .ok false else .error failure

/-- An outcome without its value, in which one kind of failure counts as success. -/
def settled (benign : Failure → Bool) : Outcome LockReply → Outcome Unit
  | .ok _ => .ok ()
  | .error failure => if benign failure then .ok () else .error failure

/-- Takes the marker; that it is held by others already does not matter. -/
def mark (e : Event) : Attempt σ Unit := ExceptT.mk (settled Failure.isLocked <$> e.marker.update.outcome)

/-- Gives the marker back; that it is not held does not matter. -/
def unmark (e : Event) : Attempt σ Unit := ExceptT.mk (settled Failure.isUnlocked <$> e.marker.release.outcome)

def set (e : Event) : Attempt σ Unit := if e.defaultSet then e.unmark else e.mark

def clear (e : Event) : Attempt σ Unit := if e.defaultSet then e.mark else e.unmark

def wait (e : Event) (timeout : TimeWord) : Attempt σ Unit := do
  let lock ← Attempt.ofCall (e.peek timeout)
  let _ ← lock.acquire

/-- Waits for the event to be set; after a timeout clears it and looks once more. -/
def waitRetryClear (e : Event) (timeout : TimeWord) : Attempt σ Unit :=
  (e.wait timeout).retryCleared e.clear (e.wait (TimeWord.pack 0 0))

def postMark (e : Event) : Call σ (Posting (Outcome Unit)) :=
  return (← e.marker.postAcquire LockFlag.update).map (settled Failure.isLocked)

/-- Gives the marker back with a callback. -/
def postUnmark (e : Event) : Call σ (Posting (Outcome Unit)) :=
  return (← e.marker.postRelease 0).map (settled Failure.isUnlocked)

def postSet (e : Event) : Call σ (Posting (Outcome Unit)) := if e.defaultSet then e.postUnmark else e.postMark

def postClear (e : Event) : Call σ (Posting (Outcome Unit)) := if e.defaultSet then e.postMark else e.postUnmark

def postWait (e : Event) (timeout : TimeWord) : Call σ (Posting (Outcome Unit)) := do
  let lock ← e.peek timeout
  return (← lock.postAcquire 0).map fun outcome => outcome.map fun _ => ()

end Event

def Database.event (db : Database) (key : LockKey) (timeout expire : TimeWord) (defaultSet : Bool) : Event :=
  { dbId := db.id, key, timeout, expire, defaultSet }

end LockService
