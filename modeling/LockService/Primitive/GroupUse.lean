import LockService.Call.Chronicle
import LockService.Primitive.GroupEvent

/-!
# Group events in concurrent use

Several callers use one handle on a group event. The version that a wakeup brings about depends on what it finds when
it starts and on the holder that the answer to its first request may report.
-/

namespace LockService.GroupEvent

/-- A call on a handle. -/
inductive GroupCall where
  | isSet
  | set
  | clear
  | wakeup
  | wait (timeout : TimeWord)
  | waitRetryClear (timeout : TimeWord)
deriving DecidableEq

/-- What a call tells its caller. -/
inductive Told where
  | flag (outcome : Outcome Bool)
  | done (outcome : Outcome Unit)
  | reply (outcome : Outcome LockReply)

def perform (e : GroupEvent) : GroupCall → Call State Told
  | .isSet => .flag <$> e.isSet.outcome
  | .set => .done <$> e.set.outcome
  | .clear => .done <$> e.clear.outcome
  | .wakeup => .reply <$> e.wakeup.outcome
  | .wait timeout => .reply <$> (e.wait timeout).outcome
  | .waitRetryClear timeout => .reply <$> (e.waitRetryClear timeout).outcome

/-- A new handle with the calls on it. -/
def shared (version : UInt64) (ids : IdSource) : Chronicle GroupCall State Told := { state := version, ids }

/-- Whether an answer says that the key is held. -/
def isHeld (outcome : Outcome Reply) : Bool :=
  match outcome >>= lockOutcome with
  | .ok _ => false
  | .error failure => failure.isLocked

/-- The version of the holder, if an answer says that the key is held and by whom. -/
def holder? (outcome : Outcome Reply) : Option UInt64 :=
  match outcome >>= lockOutcome with
  | .ok _ => none
  | .error failure => if failure.isLocked then failure.reply?.map fun reply => versionOf reply.lockId else none

/-- The versions of the requests that a wakeup has sent, given the version at its start and the answers so far: the
next one, and if that is held, one above it and its holder. -/
def wakeupVersions (found : UInt64) : List (Outcome Reply) → List UInt64
  | [] => [found + 1]
  | outcome :: _ =>
    if isHeld outcome then [found + 1, max ((holder? outcome).getD (found + 1)) (found + 1) + 1] else [found + 1]

/-- The holders' versions that were reported before the last request was sent. -/
def reported (entry : Chronicle.Entry GroupCall State Told) : List UInt64 :=
  (entry.heard.take (entry.sent.length - 1)).filterMap holder?

/-- The version of the last of some requests. -/
def lastVersion? (sent : List LockRequest) : Option UInt64 := sent.getLast?.map fun request => versionOf request.lockId

/-- The version to which a call raises the handle's when it ends, given what it has sent and what it tells. -/
def raisedBy (call : GroupCall) (sent : List LockRequest) : Told → Option UInt64
  | .reply (.ok reply) =>
    if call = .wakeup then lastVersion? sent else some (versionOf reply.lockId)
  | _ => none

/-- The version to which a call has raised the handle's, if it is over. -/
def raised? (entry : Chronicle.Entry GroupCall State Told) : Option UInt64 :=
  match entry.stage with
  | .finished told => raisedBy entry.call entry.sent told
  | .waiting _ _ => none

end LockService.GroupEvent
