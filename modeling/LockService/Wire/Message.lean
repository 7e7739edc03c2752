import LockService.Wire.LockKey
import LockService.Wire.TimeWord

/-!
# Messages

A client sends requests and a server answers each with a reply of the same kind. `Request` and `Reply` gather the
three forms that each direction has: opening a session, checking that the server is there, and locking or unlocking.
-/

namespace LockService

/-- The kind of a message, written as one byte. -/
inductive CommandKind where
  | init
  | lock
  | unlock
  | ping
deriving DecidableEq, Inhabited

namespace CommandKind

def code : CommandKind → UInt8
  | init => 0
  | lock => 1
  | unlock => 2
  | ping => 5

def ofCode? (byte : UInt8) : Option CommandKind :=
  if byte = 0 then some init
  else if byte = 1 then some lock
  else if byte = 2 then some unlock
  else if byte = 5 then some ping
  else none

def name : CommandKind → String
  | init => "Init"
  | lock => "Lock"
  | unlock => "Unlock"
  | ping => "Ping"

@[simp] theorem ofCode?_code (kind : CommandKind) : ofCode? kind.code = some kind := by
  cases kind <;> rfl

theorem ofCode?_eq_some_iff {byte : UInt8} {kind : CommandKind} : ofCode? byte = some kind ↔ byte = kind.code := by
  constructor
  · unfold ofCode?
    intro h
    split at h
    · cases h; assumption
    · split at h
      · cases h; assumption
      · split at h
        · cases h; assumption
        · split at h
          · cases h; assumption
          · cases h
  · rintro rfl
    exact ofCode?_code kind

end CommandKind

/-! ### Result codes -/

namespace ResultCode

def success : UInt8 := 0
def unknownMagic : UInt8 := 1
def unknownVersion : UInt8 := 2
def unknownDatabase : UInt8 := 3
def unknownCommand : UInt8 := 4
def locked : UInt8 := 5
def unlocked : UInt8 := 6
def notOwner : UInt8 := 7
def timeout : UInt8 := 8
def expired : UInt8 := 9
def state : UInt8 := 10
def error : UInt8 := 11

/-- All result codes in order. -/
def all : List UInt8 :=
  [success, unknownMagic, unknownVersion, unknownDatabase, unknownCommand, locked, unlocked, notOwner, timeout,
    expired, state, error]

end ResultCode

/-! ### Flags of lock and unlock requests -/

namespace LockFlag

/-- When the key is held, the answer names the holder. -/
def showHolder : UInt8 := 0x01
/-- When this identifier holds the key already, its timeout and expiry are refreshed. -/
def update : UInt8 := 0x02
def fromLog : UInt8 := 0x04
def concurrentCheck : UInt8 := 0x08
/-- The request is a mark that links two tree nodes. -/
def treeMark : UInt8 := 0x10
def containsData : UInt8 := 0x20

/-- All lock flags, lowest first. -/
def all : List UInt8 := [showHolder, update, fromLog, concurrentCheck, treeMark, containsData]

end LockFlag

namespace UnlockFlag

/-- The oldest holder of the key is released, whoever it is. -/
def oldestHolder : UInt8 := 0x01
def cancelWait : UInt8 := 0x02
def fromLog : UInt8 := 0x04
def succeedToWait : UInt8 := 0x08
/-- The request takes back a mark that links two tree nodes. -/
def treeMark : UInt8 := 0x10
def containsData : UInt8 := 0x20

/-- All unlock flags, lowest first. -/
def all : List UInt8 := [oldestHolder, cancelWait, fromLog, succeedToWait, treeMark, containsData]

end UnlockFlag

/-- The request that opens a session. -/
structure InitRequest where
  requestId : Ident
  clientId : Ident
deriving DecidableEq, Inhabited

/-- The answer to the opening of a session; `initType` 0 is a fresh session, 1 a resumed one. -/
structure InitReply where
  requestId : Ident
  result : UInt8
  initType : UInt8
deriving DecidableEq, Inhabited

/-- The request that checks whether the server is there. -/
structure PingRequest where
  requestId : Ident
deriving DecidableEq, Inhabited

/-- The answer to a check. -/
structure PingReply where
  requestId : Ident
  result : UInt8
deriving DecidableEq, Inhabited

/-- A request to take or give back a lock: who asks (`lockId`), for which key of which database, how long to wait
and to hold, how many further holders are allowed beside this one (`count`) and how often one holder may enter
again (`reentry`). -/
structure LockRequest where
  kind : CommandKind
  requestId : Ident
  flag : UInt8
  dbId : UInt8
  lockId : Ident
  lockKey : LockKey
  timeout : TimeWord
  expire : TimeWord
  count : UInt16
  reentry : UInt8
deriving DecidableEq, Inhabited

/-- The answer to a lock or unlock request: its result code, the request's own values and the server's counts. -/
structure LockReply where
  kind : CommandKind
  requestId : Ident
  result : UInt8
  flag : UInt8
  dbId : UInt8
  lockId : Ident
  lockKey : LockKey
  localCount : UInt16
  count : UInt16
  localReentry : UInt8
  reentry : UInt8
deriving DecidableEq, Inhabited

inductive Request where
  | init (request : InitRequest)
  | ping (request : PingRequest)
  | lock (request : LockRequest)
deriving DecidableEq, Inhabited

inductive Reply where
  | init (reply : InitReply)
  | ping (reply : PingReply)
  | lock (reply : LockReply)
deriving DecidableEq, Inhabited

namespace Request

/-- The identifier by which the answer is recognised. -/
def requestId : Request → Ident
  | init request => request.requestId
  | ping request => request.requestId
  | lock request => request.requestId

/-- How long the server may hold the request back; requests other than locks are answered at once. -/
def waitSpan : Request → Span
  | lock request => request.timeout.waitSpan
  | _ => Span.zero

end Request

namespace Reply

def requestId : Reply → Ident
  | init reply => reply.requestId
  | ping reply => reply.requestId
  | lock reply => reply.requestId

def result : Reply → UInt8
  | init reply => reply.result
  | ping reply => reply.result
  | lock reply => reply.result

end Reply

/-! ### Descriptions -/

def Ident.describe (id : Ident) : String := "Ident(" ++ id.text ++ ")"

def LockKey.describe (key : LockKey) : String := "LockKey(" ++ key.asIdent.text ++ ")"

/-- A record in the description of a message: its name and its fields in order. -/
def describeRecord (name : String) (fields : List (String × String)) : String :=
  name ++ " \x7b " ++ String.intercalate ", " (fields.map fun (label, value) => label ++ ": " ++ value) ++ " \x7d"

def LockReply.describe (reply : LockReply) : String :=
  describeRecord "LockResultCommand" [
    ("command_type", reply.kind.name), ("request_id", reply.requestId.describe),
    ("result", toString reply.result), ("flag", toString reply.flag), ("db_id", toString reply.dbId),
    ("lock_id", reply.lockId.describe), ("lock_key", reply.lockKey.describe),
    ("local_count", toString reply.localCount), ("count", toString reply.count),
    ("local_r_count", toString reply.localReentry), ("r_count", toString reply.reentry)]

def Reply.describe : Reply → String
  | .init reply =>
    "Init(" ++ describeRecord "InitResultCommand" [
      ("request_id", reply.requestId.describe), ("result", toString reply.result),
      ("init_type", toString reply.initType)] ++ ")"
  | .ping reply =>
    "Ping(" ++ describeRecord "PingResultCommand" [
      ("request_id", reply.requestId.describe), ("result", toString reply.result)] ++ ")"
  | .lock reply => "Lock(" ++ reply.describe ++ ")"

end LockService
