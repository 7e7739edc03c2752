import LockService.Call.Basic

/-!
# Locks

A lock is a key together with the identifier, the times and the counts that its requests carry. Every other primitive
sends the requests of suitably chosen locks. An answer other than a successful lock answer is a failure
(`lockOutcome`).
-/

namespace LockService

/-- A database of the service, as a client refers to it: its number and the times, in seconds, of locks made without
any. -/
structure Database where
  id : UInt8
  defaultTimeout : UInt16 := 5
  defaultExpire : UInt16 := 5

def Database.describe (db : Database) : String := describeRecord "Database" [("db_id", toString db.id)]

/-- What the requests of a lock carry. `count` further holders are allowed beside this one, and one holder may enter
`reentry` further times. -/
@[ext] structure Lock where
  dbId : UInt8
  key : LockKey
  id : Ident
  timeout : TimeWord
  expire : TimeWord
  count : UInt16 := 0
  reentry : UInt8 := 0
deriving DecidableEq

/-- The `count` that puts no practical limit on the holders of a key. -/
def unboundedCount : UInt16 := 0xffff

/-- The `reentry` that lets one identifier enter a lock up to 255 further times. -/
def fullReentry : UInt8 := 0xff

/-- The lock answer in a reply, or the failure that the reply stands for. -/
def lockOutcome : Reply → Outcome LockReply
  | .lock reply => if reply.result = ResultCode.success then .ok reply else .error (.ofReply reply)
  | reply => .error (.unexpected (.notLock reply))

/-- Whether a request has been answered with success. -/
def Outcome.isGrant (outcome : Outcome Reply) : Bool := (outcome >>= lockOutcome).isOk

namespace Lock

variable {σ : Type}

def requestWith (lock : Lock) (kind : CommandKind) (flag : UInt8) (requestId : Ident) : LockRequest where
  kind
  requestId
  flag
  dbId := lock.dbId
  lockId := lock.id
  lockKey := lock.key
  timeout := lock.timeout
  expire := lock.expire
  count := lock.count
  reentry := lock.reentry

def request (lock : Lock) (kind : CommandKind) (flag : UInt8) : Call σ LockRequest :=
  return lock.requestWith kind flag (← Call.fresh)

/-- A request that releases the oldest holder of this lock's key, whoever it is. -/
def releaseHeadRequest (lock : Lock) : Call σ LockRequest := do
  let request ← lock.request .unlock UnlockFlag.oldestHolder
  return { request with lockId := Ident.zero }

/-- Sends a request and waits for its lock answer. -/
def execute (request : Call σ LockRequest) : Attempt σ LockReply := ExceptT.mk do
  let outcome ← Call.request (← request)
  return outcome >>= lockOutcome

/-- Hands over a request with a callback for its lock answer. -/
def post (request : LockRequest) : Posting (Outcome LockReply) := ⟨request, fun outcome => outcome >>= lockOutcome⟩

/-- Takes the lock, with a flag byte. -/
def acquireWith (lock : Lock) (flag : UInt8) : Attempt σ LockReply := execute (lock.request .lock flag)

def acquire (lock : Lock) : Attempt σ LockReply := lock.acquireWith 0

/-- Gives the lock back, with a flag byte. -/
def releaseWith (lock : Lock) (flag : UInt8) : Attempt σ LockReply := execute (lock.request .unlock flag)

/-- Gives the lock back. -/
def release (lock : Lock) : Attempt σ LockReply := lock.releaseWith 0

/-- Takes the lock, or refreshes its times if this identifier holds it already. -/
def update (lock : Lock) : Attempt σ LockReply := lock.acquireWith LockFlag.update

/-- Takes the lock; when it is held, the failure names the holder. -/
def showHolder (lock : Lock) : Attempt σ LockReply := lock.acquireWith LockFlag.showHolder

/-- Releases the oldest holder of the key. -/
def releaseHead (lock : Lock) : Attempt σ LockReply := execute lock.releaseHeadRequest

def postAcquire (lock : Lock) (flag : UInt8) : Call σ (Posting (Outcome LockReply)) :=
  return post (← lock.request .lock flag)

def postRelease (lock : Lock) (flag : UInt8) : Call σ (Posting (Outcome LockReply)) :=
  return post (← lock.request .unlock flag)

/-- A description of a lock, given the text for its identifier. -/
def describeAs (lock : Lock) (id : String) : String :=
  describeRecord "Lock" [
    ("db_id", toString lock.dbId), ("key", lock.key.describe), ("id", "Ident(" ++ id ++ ")"),
    ("timeout", "0x" ++ Hex.padded 8 lock.timeout.bits.toNat),
    ("expire", "0x" ++ Hex.padded 8 lock.expire.bits.toNat), ("count", toString lock.count),
    ("r_count", toString lock.reentry)]

def describe (lock : Lock) : String := lock.describeAs lock.id.text

end Lock

namespace Database

variable {σ : Type}

/-- A lock with a fresh identifier. -/
def lock (db : Database) (key : LockKey) (timeout expire : TimeWord) : Call σ Lock :=
  return { dbId := db.id, key, id := ← Call.fresh, timeout, expire }

/-- A lock with a fresh identifier and the database's own times. -/
def defaultLock (db : Database) (key : LockKey) : Call σ Lock :=
  db.lock key (TimeWord.seconds db.defaultTimeout) (TimeWord.seconds db.defaultExpire)

end Database

end LockService
