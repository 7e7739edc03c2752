import LockService.Call.Retry
import LockService.Primitive.Lock

/-!
# Group events

An event shared by a group of clients and stamped with a version. Its lock identifiers are a version and a client
number. The event is clear while a lock on its key is held; a wakeup raises the holder's version and so releases
every waiter at an older version. Waiters adopt the version that they observe.
-/

namespace LockService

/-- One client's handle on a group event. -/
structure GroupEvent where
  dbId : UInt8
  key : LockKey
  clientId : UInt64
  timeout : TimeWord
  expire : TimeWord

namespace GroupEvent

/-- The version that the handle observed or produced last. -/
abbrev State := UInt64

def lockAt (e : GroupEvent) (version clientId : UInt64) (timeout expire : TimeWord) : Lock :=
  { dbId := e.dbId, key := e.key, id := Ident.ofHalves version clientId, timeout, expire }

def versionOf (id : Ident) : UInt64 := id.firstHalf

/-- Raises the handle's version to another, if that is newer. -/
def raiseTo (version : UInt64) : Call State Unit := modify fun v => max v version

/-- The timeout word with which a newer holder counts as success. -/
def newerSucceeds (timeout : TimeWord) : TimeWord := timeout.withModifiers TimeoutFlag.newerVersionSucceeds

def isSet (e : GroupEvent) : Attempt State Bool := ExceptT.mk do
  let version ← Call.state
  match ← (e.lockAt version e.clientId (TimeWord.pack 0 0) (TimeWord.pack 0 0)).acquire.outcome with
  | .ok _ => return .ok true
  | .error failure => return if failure.isLocked || failure.isTimeout then .ok false else .error failure

/-- Sets the event, which wakes every waiter; that it is set already does not matter. -/
def set (e : GroupEvent) : Attempt State Unit := do
  let version ← Attempt.ofCall Call.state
  let _ ← (e.lockAt version e.clientId e.timeout e.expire).releaseHead.tolerating Failure.isUnlocked

/-- Clears the event at the handle's version; that it is clear already does not matter. -/
def clear (e : GroupEvent) : Attempt State Unit := do
  let version ← Attempt.ofCall Call.state
  let _ ← (e.lockAt version 0 (TimeWord.pack 0 0) e.expire).update.tolerating Failure.isLocked

/-- Updates the event's lock to a version, and the handle with it. -/
def raiseLock (e : GroupEvent) (version : UInt64) : Attempt State LockReply :=
  (e.lockAt version e.clientId (newerSucceeds (TimeWord.pack 0 0)) e.expire).update

/-- Raises the version and so releases the waiters at older ones. When another client holds a newer version, tries
once more just above it. -/
def wakeup (e : GroupEvent) : Attempt State LockReply := ExceptT.mk do
  let next := (← Call.state) + 1
  match ← (e.raiseLock next).outcome with
  | .ok reply =>
    raiseTo next
    return .ok reply
  | .error failure =>
    if failure.isLocked then
      let holder := (failure.reply?.map fun reply => versionOf reply.lockId).getD next
      let retry := max holder next + 1
      match ← (e.raiseLock retry).outcome with
      | .ok reply =>
        raiseTo retry
        return .ok reply
      | .error again => return .error again
    else return .error failure

/-- Waits for the event to be set or for a newer version, and adopts the version observed. -/
def wait (e : GroupEvent) (timeout : TimeWord) : Attempt State LockReply := do
  let version ← Attempt.ofCall Call.state
  let reply ← (e.lockAt version e.clientId (newerSucceeds timeout) (TimeWord.pack 0 0)).acquire
  Attempt.ofCall (raiseTo (versionOf reply.lockId))
  return reply

/-- Waits; after a timeout clears the event and looks once more. -/
def waitRetryClear (e : GroupEvent) (timeout : TimeWord) : Attempt State LockReply :=
  (e.wait timeout).retryCleared e.clear (e.wait (TimeWord.pack 0 0))

end GroupEvent

def Database.groupEvent (db : Database) (key : LockKey) (clientId : UInt64) (timeout expire : TimeWord) :
    GroupEvent :=
  { dbId := db.id, key, clientId, timeout, expire }

end LockService
