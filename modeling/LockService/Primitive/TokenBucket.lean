import LockService.Primitive.Semaphore
import LockService.Primitive.Window

/-!
# Token buckets

A token bucket admits a number of acquires per window. Its slots are never released: they expire when their window
closes. When the wait for a slot times out at the server, the bucket asks once more for a slot that lasts a whole
period.
-/

namespace LockService

structure TokenBucket where
  dbId : UInt8
  key : LockKey
  permits : UInt16
  timeout : TimeWord
  period : Float

namespace TokenBucket

variable {σ : Type}

/-- The window that an acquire at the instant `now` aims at. -/
def currentWindow (h : TokenBucket) (now : Nat) : Window := windowExpire h.period now

def slotAs (h : TokenBucket) (expire : TimeWord) (id : Ident) : Lock :=
  { dbId := h.dbId, key := h.key, id, timeout := h.timeout, expire, count := h.permits - 1 }

/-- Asks for a slot that lasts as long as `expire` says. -/
def takeSlot (h : TokenBucket) (expire : TimeWord) : Attempt σ LockReply := do
  let id ← Attempt.ofCall Call.fresh
  (h.slotAs expire id).acquire

/-- Takes a slot at the instant `now`, in milliseconds. -/
def acquire (h : TokenBucket) (now : Nat) : Attempt σ LockReply := ExceptT.mk do
  match ← (h.takeSlot (h.currentWindow now).expire).outcome with
  | .error failure =>
    if failure.lockFault? = some .timeout then (h.takeSlot (periodExpire h.period)).outcome
    else return .error failure
  | outcome => return outcome

end TokenBucket

/-- A token bucket in a database; its period is a positive number of seconds, and without permits it has one. -/
def Database.tokenBucket (db : Database) (key : LockKey) (permits : UInt16) (timeout : TimeWord) (period : Float) :
    Outcome TokenBucket :=
  if period.isFinite && period > 0 then
    .ok { dbId := db.id, key, permits := atLeastOne permits, timeout, period }
  else .error (.config (.badPeriod period))

end LockService
