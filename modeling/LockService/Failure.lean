import LockService.Text.Decimal
import LockService.Text.Quoted
import LockService.Wire.Frame

/-!
# Failures

What can go wrong between a caller and the lock service, as causes, and the wording of each cause. A lock failure is
the server's answer with a result code other than success; all other failures arise on the way.
-/

namespace LockService

/-- The kinds of failure that a server reports for a lock or unlock request. -/
inductive LockFault where
  /-- The key is held and the request could not join the holders. -/
  | locked
  /-- The lock that was to be released is not held. -/
  | unlocked
  /-- The identifier does not hold the lock that was to be released. -/
  | notOwner
  /-- The server gave up waiting for the lock. -/
  | timeout
  /-- The lock expired while the request waited. -/
  | expired
  /-- The server found its lock state inconsistent. -/
  | state
  /-- Any further result code. -/
  | other
deriving DecidableEq

namespace LockFault

/-- The kind of failure that a result code stands for; success is none. -/
def ofCode? (code : UInt8) : Option LockFault :=
  if code = ResultCode.success then none
  else if code = ResultCode.locked then some locked
  else if code = ResultCode.unlocked then some unlocked
  else if code = ResultCode.notOwner then some notOwner
  else if code = ResultCode.timeout then some timeout
  else if code = ResultCode.expired then some expired
  else if code = ResultCode.state then some state
  else some other

/-- A kind of failure in words. -/
def message : LockFault → String
  | locked => "already locked"
  | unlocked => "not locked"
  | notOwner => "caller does not own this lock"
  | timeout => "timed out waiting for the lock"
  | expired => "lock expired"
  | state => "lock state error"
  | other => "lock command failed"

end LockFault

/-- Why a session could not be opened although the server answered, or because it did not. -/
inductive HandshakeFault where
  /-- The answer belongs to another request. -/
  | otherRequest
  /-- The server answered with a result code other than success. -/
  | refused (code : UInt8)
  /-- The answer is not one to an opening request. -/
  | notInit (reply : Reply)
  /-- No answer came in time. -/
  | noAnswer
  | worded (text : String)
deriving DecidableEq

def HandshakeFault.message : HandshakeFault → String
  | otherRequest => "init result for another request"
  | refused code => "server refused session with code " ++ toString code
  | notInit reply => "expected init result, got " ++ reply.describe
  | noAnswer => "no init result before timeout"
  | worded text => text

/-- Why an answer does not fit the request. -/
inductive AnswerFault where
  /-- A lock request was answered by another kind of reply. -/
  | notLock (reply : Reply)
  /-- A check was answered with a result code other than success. -/
  | pingCode (code : UInt8)
  /-- A check was answered by another kind of reply. -/
  | notPing (reply : Reply)
  | worded (text : String)
deriving DecidableEq

def AnswerFault.message : AnswerFault → String
  | notLock reply => "expected lock result, got " ++ reply.describe
  | pingCode code => "ping answered with code " ++ toString code
  | notPing reply => "ping answered with " ++ reply.describe
  | worded text => text

/-- Why a configuration is refused. -/
inductive ConfigFault where
  /-- The list of hosts is empty. -/
  | noHosts
  /-- There is no worker to run callbacks. -/
  | noWorkers
  /-- Reconnects would follow each other at once. -/
  | noReconnectInterval
  /-- The only host is no `host[:port]` entry. -/
  | malformedHost (entry : String)
  /-- No entry of a replica set is a `host[:port]` entry. -/
  | noValidHosts
  /-- The period of a token bucket is not positive and finite. -/
  | badPeriod (period : Float)
  /-- The document cannot be read as a configuration. -/
  | unreadable
  | worded (text : String)
deriving DecidableEq

def ConfigFault.message : ConfigFault → String
  | noHosts => "no hosts configured"
  | noWorkers => "callback_workers must be at least 1"
  | noReconnectInterval => "reconnect_interval_ms must be positive"
  | malformedHost entry => "malformed host " ++ Text.quoted entry
  | noValidHosts => "replica set has no valid hosts"
  | badPeriod period =>
    "token bucket period must be a positive number of seconds, got " ++ Text.decimal period
  | unreadable => "unreadable document"
  | worded text => text

/-- Why a call did not succeed. -/
inductive Failure where
  /-- There is no live connection to send the request on. -/
  | unconnected
  /-- The connection went away while the request was pending. -/
  | connectionClosed
  /-- The request could not be written; the connection is given up. -/
  | write (text : String)
  /-- The connection could not be made or read. -/
  | io (text : String)
  /-- The session could not be opened. -/
  | handshake (fault : HandshakeFault)
  /-- No answer came within the local bound. -/
  | timeout (bound : Span)
  /-- The server's answer, or the local finding, that a lock was not taken or given back. -/
  | lock (fault : LockFault) (code : UInt8) (reply : Option LockReply)
  /-- The bytes received are no frame. -/
  | protocol (fault : FrameFault)
  /-- An answer of the wrong type came for the request. -/
  | unexpected (fault : AnswerFault)
  | config (fault : ConfigFault)
deriving DecidableEq

abbrev Outcome (α : Type) := Except Failure α

namespace Failure

def message : Failure → String
  | unconnected => "not connected to any lock server"
  | connectionClosed => "connection closed"
  | write text => "failed to write command: " ++ text
  | io text => "IO error: " ++ text
  | handshake fault => "handshake failed: " ++ fault.message
  | timeout bound => "no response within " ++ bound.text
  | lock fault code _ => fault.message ++ " (result code " ++ toString code ++ ")"
  | protocol fault => "protocol error: " ++ fault.message
  | unexpected fault => "unexpected response: " ++ fault.message
  | config fault => "invalid configuration: " ++ fault.message

/-- The wording of the failure underneath, where there is one. -/
def source? : Failure → Option String
  | write text | io text => some text
  | protocol fault => some fault.message
  | _ => none

/-- The failure that an unsuccessful lock answer stands for. -/
def ofReply (reply : LockReply) : Failure :=
  lock ((LockFault.ofCode? reply.result).getD .other) reply.result (some reply)

/-- The failure of releasing what was never taken, found without asking the server. -/
def notHeld : Failure := lock .unlocked ResultCode.unlocked none

def lockFault? : Failure → Option LockFault
  | lock fault _ _ => some fault
  | _ => none

def reply? : Failure → Option LockReply
  | lock _ _ reply => reply
  | _ => none

/-- Whether the key is held by others. -/
def isLocked (failure : Failure) : Bool := failure.lockFault? == some .locked

/-- Whether the lock is not held. -/
def isUnlocked (failure : Failure) : Bool := failure.lockFault? == some .unlocked

theorem isLocked_iff (failure : Failure) : failure.isLocked = true ↔ failure.lockFault? = some .locked := beq_iff_eq

theorem isUnlocked_iff (failure : Failure) : failure.isUnlocked = true ↔ failure.lockFault? = some .unlocked :=
  beq_iff_eq

/-- Whether the wait was too long, at the server or locally. -/
def isTimeout : Failure → Bool
  | timeout _ => true
  | failure => failure.lockFault? == some .timeout

/-- Whether the failure is one of the transport and not an answer of the server. -/
def isTransport : Failure → Bool
  | unconnected | connectionClosed | write _ | io _ => true
  | _ => false

end Failure

end LockService
