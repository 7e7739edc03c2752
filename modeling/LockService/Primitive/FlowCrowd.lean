import LockService.Call.Chronicle
import LockService.Call.Interleaving
import LockService.Primitive.FlowUse
import Mathlib.Data.Set.Defs
import Mathlib.Logic.Function.Basic

/-!
# Concurrency limits side by side

Any number of handles are made in one database, on one key or on several, and any number of callers use each of them
at the same time, with and without callbacks. All draw their identifiers from the source of the database, and so does
whoever else uses it. Other callers may also come between the moment at which a call gets hold of its handle's lock and
the one at which it draws the identifier of its request (`CrowdCall.prepare`).
-/

namespace LockService

/-- A call on one of several states. -/
def Call.onComponent {ι σ α : Type} [DecidableEq ι] (i : ι) (call : Call σ α) : Call (ι → σ) α :=
  call.within (fun states => states i) fun s states => Function.update states i s

namespace FlowLimit

/-- What a handle is made with. -/
structure Settings where
  key : LockKey
  permits : UInt16
  timeout : TimeWord
  expire : TimeWord
  priority : Option UInt8

def Settings.make (s : Settings) (db : Database) : FlowLimit :=
  db.flowLimit s.key s.permits s.timeout s.expire s.priority

/-- A request with the key, the counts and the times of a handle that is made with `s` in `db`. With a priority the
re-entry byte is that priority, and the one modifier that says so is added to the timeout. -/
structure Settings.Fits (db : Database) (s : Settings) (r : LockRequest) : Prop where
  dbId : r.dbId = db.id
  key : r.lockKey = s.key
  flag : r.flag = 0
  count : r.count.toNat = max s.permits.toNat 1 - 1
  expire : r.expire = s.expire
  plain : s.priority = none → r.reentry = 0 ∧ r.timeout = s.timeout
  ranked : ∀ priority, s.priority = some priority →
    r.reentry = priority ∧ r.timeout.bits = s.timeout.bits ||| TimeoutFlag.reentryIsPriority.toUInt32 <<< 16

/-- The kind of the request that a call sends. -/
def FlowCall.kind : FlowCall → CommandKind
  | acquire | postAcquire => .lock
  | release | postRelease => .unlock

/-- A call on a handle, to its end or to the end of its callback. -/
def call (h : FlowLimit) : FlowCall → Call State (Outcome LockReply)
  | .acquire => h.acquire.outcome
  | .release => h.release.outcome
  | .postAcquire => Posting.followed h.postAcquire
  | .postRelease => Posting.followed h.postRelease

/-- What can be called. -/
inductive CrowdCall (ι : Type) where
  | on (handle : ι) (call : FlowCall)
  /-- A call on a handle gets hold of the lock, which is made if there is none, and is held up before its request. From
  there on it is a call on a handle that has a lock. -/
  | prepare (handle : ι)
  /-- Somebody else draws an identifier. -/
  | elsewhere

variable {ι : Type} [DecidableEq ι]

/-- A call on one of the handles, as one on the states of all. -/
def performIn (handles : ι → FlowLimit) : CrowdCall ι → Call (ι → State) (Option (Outcome LockReply))
  | .on i call => (some <$> (handles i).call call).onComponent i
  | .prepare i => ((fun _ => none) <$> (handles i).current).onComponent i
  | .elsewhere => do
    let _ ← Call.fresh
    return none

/-- Handles with the calls on them. -/
abbrev Crowd (ι : Type) := Chronicle (CrowdCall ι) (ι → State) (Option (Outcome LockReply))

namespace Crowd

/-- New handles, on which nothing has been called. -/
def fresh (ids : IdSource) : Crowd ι := { state := fun _ => none, ids }

/-- The requests that the calls on a handle have sent. -/
def sentBy (p : Crowd ι) (i : ι) : Set LockRequest :=
  {r | ∃ entry ∈ p.entries, ∃ call, entry.call = .on i call ∧ r ∈ entry.sent}

/-- The requests by which the calls on a handle have taken a slot. -/
def takenBy (p : Crowd ι) (i : ι) : Set LockRequest :=
  {r | ∃ entry ∈ p.entries, ∃ call, entry.call = .on i call ∧ r.kind = .lock ∧
    ∃ outcome, (r, outcome) ∈ entry.exchanges ∧ outcome.isGrant = true}

end Crowd

end FlowLimit

end LockService
