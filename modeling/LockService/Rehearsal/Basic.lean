import LockService.Primitive.Event
import LockService.Primitive.FlowLimit
import LockService.Primitive.GroupEvent
import LockService.Primitive.PriorityLock
import LockService.Primitive.ReadWriteLock
import LockService.Primitive.ReentrantLock
import LockService.Primitive.TokenBucket
import LockService.Primitive.Tree
import LockService.Rehearsal.Prompter

/-!
# Rehearsals

A rehearsal makes named objects in one database and calls their operations one after the other against a prompter. It
reports for each call the requests that were sent, the result and the object afterwards.
-/

namespace LockService

/-- An object made in a rehearsal, with its state. -/
inductive Handle where
  | lock (h : Lock)
  | reentrant (h : ReentrantLock) (s : ReentrantLock.State)
  | readWrite (h : ReadWriteLock) (s : ReadWriteLock.State)
  | semaphore (h : Semaphore)
  | flow (h : FlowLimit) (s : FlowLimit.State)
  | bucket (h : TokenBucket)
  | tree (h : TreeNode)
  | leaf (h : TreeLeaf)
  | event (h : Event)
  | group (h : GroupEvent) (s : GroupEvent.State)
  | priority (h : PriorityLock)

/-- Changes to a lock; what is absent stays. -/
structure LockChange where
  id : Option Ident := none
  count : Option UInt16 := none
  reentry : Option UInt8 := none
  timeout : Option TimeWord := none
  expire : Option TimeWord := none

def Lock.change (lock : Lock) (c : LockChange) : Lock :=
  { lock with
    id := c.id.getD lock.id
    count := c.count.getD lock.count
    reentry := c.reentry.getD lock.reentry
    timeout := c.timeout.getD lock.timeout
    expire := c.expire.getD lock.expire }

/-- How to make an object. -/
inductive Recipe where
  | lock (key : LockKey) (timeout expire : TimeWord)
  | defaultLock (key : LockKey)
  | rawLock (key : LockKey) (id : Ident) (timeout expire : TimeWord)
  | derivedLock (source : String) (change : LockChange)
  | reentrant (key : LockKey) (timeout expire : TimeWord)
  | readWrite (key : LockKey) (timeout expire : TimeWord)
  | semaphore (key : LockKey) (permits : UInt16) (timeout expire : TimeWord)
  | flow (key : LockKey) (permits : UInt16) (timeout expire : TimeWord) (priority : Option UInt8)
  | bucket (key : LockKey) (permits : UInt16) (timeout : TimeWord) (period : Float)
  | tree (key : LockKey) (timeout expire : TimeWord)
  | child (source : String) (key : LockKey)
  | leaf (source : String)
  | event (key : LockKey) (timeout expire : TimeWord) (defaultSet : Bool)
  | group (key : LockKey) (clientId version : UInt64) (timeout expire : TimeWord)
  | priority (key : LockKey) (priority : UInt8) (timeout expire : TimeWord)

inductive Operation where
  | describe
  | request (kind : CommandKind) (flag : UInt8)
  | acquire
  | release
  | update
  | showHolder
  | releaseHead
  | acquireWith (flag : UInt8)
  | releaseWith (flag : UInt8)
  | postAcquire (flag : UInt8)
  | postRelease (flag : UInt8)
  | acquireRead
  | releaseRead
  | acquireWrite
  | releaseWrite
  | releaseAll
  | isSet
  | set
  | clear
  | wakeup
  | wait (timeout : TimeWord)
  | waitRetryClear (timeout : TimeWord)
  | postSet
  | postClear
  | postWait (timeout : TimeWord)

inductive CallValue where
  | reply (reply : LockReply)
  | nothing
  | truth (b : Bool)
  | count (n : Nat)

inductive CallResult where
  | outcome (outcome : Outcome CallValue)
  /-- A description of the object was asked for. -/
  | description
  /-- A request was made and not sent. -/
  | request (request : LockRequest)

structure Rehearsal where
  db : Database
  ids : IdSource
  prompter : Prompter
  handles : List (String × Handle) := []

structure CallReport where
  sent : Array LockRequest
  result : CallResult
  handle : Handle
  /-- The expire word of the rate window at which the call's first request aims. -/
  window : Option TimeWord := none

namespace Handle

section Parts

variable {α : Type}

/-- A call on a reentrant lock's state, as one on the object. -/
def onReentrant (call : Call ReentrantLock.State α) : Call Handle α :=
  call.within (fun | reentrant _ s => s | _ => {}) fun s => fun | reentrant h _ => reentrant h s | other => other

/-- A call on a read/write lock's state, as one on the object. -/
def onReadWrite (call : Call ReadWriteLock.State α) : Call Handle α :=
  call.within (fun | readWrite _ s => s | _ => {}) fun s => fun | readWrite h _ => readWrite h s | other => other

/-- A call on a concurrency limit's state, as one on the object. -/
def onFlow (call : Call FlowLimit.State α) : Call Handle α :=
  call.within (fun | flow _ s => s | _ => none) fun s => fun | flow h _ => flow h s | other => other

/-- A call on a group event's state, as one on the object. -/
def onGroup (call : Call GroupEvent.State α) : Call Handle α :=
  call.within (fun | group _ s => s | _ => 0) fun s => fun | group h _ => group h s | other => other

end Parts

/-- A call that waits for an answer. -/
def attempt {σ α : Type} (value : α → CallValue) (a : Attempt σ α) : Call σ CallResult :=
  return .outcome ((← a.outcome).map value)

/-- Frees all slots and counts them. -/
def releaseAll {σ : Type} (h : Semaphore) (fuel : Nat) : Call σ CallResult := do
  match ← h.releaseAll fuel with
  | some outcome => return .outcome (outcome.map .count)
  | none => return .outcome (.error .unconnected)

/-- The awaited calls of an object, where it has them. `now` is the instant of the call and `fuel` bounds the number
of releases in one call. -/
def call? (now fuel : Nat) : Handle → Operation → Option (Call Handle CallResult)
  | lock h, op =>
    match op with
    | .acquire => some (attempt .reply h.acquire)
    | .release => some (attempt .reply h.release)
    | .update => some (attempt .reply h.update)
    | .showHolder => some (attempt .reply h.showHolder)
    | .releaseHead => some (attempt .reply h.releaseHead)
    | .acquireWith flag => some (attempt .reply (h.acquireWith flag))
    | .releaseWith flag => some (attempt .reply (h.releaseWith flag))
    | .request kind flag => some (.request <$> h.request kind flag)
    | _ => none
  | reentrant h _, op =>
    match op with
    | .acquire => some (onReentrant (attempt .reply h.acquire))
    | .release => some (onReentrant (attempt .reply h.release))
    | _ => none
  | readWrite h _, op =>
    match op with
    | .acquireRead => some (onReadWrite (attempt .reply h.acquireRead))
    | .releaseRead => some (onReadWrite (attempt .reply h.releaseRead))
    | .acquireWrite => some (onReadWrite (attempt .reply h.acquireWrite))
    | .releaseWrite => some (onReadWrite (attempt .reply h.releaseWrite))
    | _ => none
  | semaphore h, op =>
    match op with
    | .acquire => some (attempt .reply h.acquire)
    | .release => some (attempt .reply h.release)
    | .releaseAll => some (releaseAll h fuel)
    | _ => none
  | flow h _, op =>
    match op with
    | .acquire => some (onFlow (attempt .reply h.acquire))
    | .release => some (onFlow (attempt .reply h.release))
    | _ => none
  | bucket h, op =>
    match op with
    | .acquire => some (attempt .reply (h.acquire now))
    | _ => none
  | tree _, _ => none
  | leaf h, op =>
    match op with
    | .acquire => some (attempt .reply h.acquire)
    | .release => some (attempt .reply h.release)
    | _ => none
  | event h, op =>
    match op with
    | .isSet => some (attempt .truth h.isSet)
    | .set => some (attempt (fun _ => .nothing) h.set)
    | .clear => some (attempt (fun _ => .nothing) h.clear)
    | .wait timeout => some (attempt (fun _ => .nothing) (h.wait timeout))
    | .waitRetryClear timeout => some (attempt (fun _ => .nothing) (h.waitRetryClear timeout))
    | _ => none
  | group h _, op =>
    match op with
    | .isSet => some (onGroup (attempt .truth h.isSet))
    | .set => some (onGroup (attempt (fun _ => .nothing) h.set))
    | .clear => some (onGroup (attempt (fun _ => .nothing) h.clear))
    | .wakeup => some (onGroup (attempt .reply h.wakeup))
    | .wait timeout => some (onGroup (attempt .reply (h.wait timeout)))
    | .waitRetryClear timeout => some (onGroup (attempt .reply (h.waitRetryClear timeout)))
    | _ => none
  | priority h, op =>
    match op with
    | .acquire => some (attempt .reply h.acquire)
    | .release => some (attempt .reply h.release)
    | _ => none

def posted {σ α : Type} (value : α → CallValue) (call : Call σ (Posting (Outcome α))) :
    Call σ (Posting CallResult) :=
  return (← call).map fun outcome => .outcome (outcome.map value)

/-- The calls with a callback of an object, where it has them. -/
def posting? : Handle → Operation → Option (Call Handle (Posting CallResult))
  | lock h, op =>
    match op with
    | .postAcquire flag => some (posted .reply (h.postAcquire flag))
    | .postRelease flag => some (posted .reply (h.postRelease flag))
    | _ => none
  | semaphore h, op =>
    match op with
    | .postAcquire _ => some (posted .reply h.postAcquire)
    | .postRelease _ => some (posted .reply h.postRelease)
    | _ => none
  | flow h _, op =>
    match op with
    | .postAcquire _ => some (onFlow (posted .reply h.postAcquire))
    | .postRelease _ => some (onFlow (posted .reply h.postRelease))
    | _ => none
  | event h, op =>
    match op with
    | .postSet => some (posted (fun _ => .nothing) h.postSet)
    | .postClear => some (posted (fun _ => .nothing) h.postClear)
    | .postWait timeout => some (posted (fun _ => .nothing) (h.postWait timeout))
    | _ => none
  | priority h, op =>
    match op with
    | .postAcquire _ => some (posted .reply h.postAcquire)
    | .postRelease _ => some (posted .reply h.postRelease)
    | _ => none
  | _, _ => none

end Handle

/-- A call that makes the object of a recipe; `none` when it needs an object that is not there. -/
def Recipe.build? {σ : Type} (db : Database) (handle? : String → Option Handle) :
    Recipe → Option (Call σ (Outcome Handle))
  | lock key timeout expire => some (return .ok (.lock (← db.lock key timeout expire)))
  | defaultLock key => some (return .ok (.lock (← db.defaultLock key)))
  | rawLock key id timeout expire => some (return .ok (.lock { dbId := db.id, key, id, timeout, expire }))
  | derivedLock source change =>
    match handle? source with
    | some (.lock h) => some (return .ok (.lock (h.change change)))
    | _ => none
  | reentrant key timeout expire => some (return .ok (.reentrant ⟨db.id, key, timeout, expire⟩ {}))
  | readWrite key timeout expire => some (return .ok (.readWrite ⟨db.id, key, timeout, expire⟩ {}))
  | semaphore key permits timeout expire => some (return .ok (.semaphore (db.semaphore key permits timeout expire)))
  | flow key permits timeout expire rank =>
    some (return .ok (.flow (db.flowLimit key permits timeout expire rank) none))
  | bucket key permits timeout period => some (return (db.tokenBucket key permits timeout period).map .bucket)
  | tree key timeout expire => some (return .ok (.tree (db.tree key timeout expire)))
  | child source key =>
    match handle? source with
    | some (.tree h) => some (return .ok (.tree (h.child key)))
    | _ => none
  | leaf source =>
    match handle? source with
    | some (.tree h) => some (return .ok (.leaf (← h.leaf)))
    | _ => none
  | event key timeout expire defaultSet => some (return .ok (.event (db.event key timeout expire defaultSet)))
  | group key clientId version timeout expire =>
    some (return .ok (.group (db.groupEvent key clientId timeout expire) version))
  | priority key rank timeout expire =>
    some (return .ok (.priority (← db.priorityLock key rank timeout expire)))

namespace Rehearsal

def handle? (r : Rehearsal) (name : String) : Option Handle := r.handles.lookup name

/-- The rehearsal with an object under a name, in place of an older one. -/
def keep (r : Rehearsal) (name : String) (h : Handle) : Rehearsal :=
  { r with handles := (name, h) :: r.handles.filter (·.1 != name) }

/-- Runs a call that sends nothing. -/
def draw {α : Type} (r : Rehearsal) (call : Call Unit α) : α × Rehearsal :=
  let (value, scene) := call.run Prompter.respond ⟨(), r.ids, r.prompter⟩
  (value, { r with ids := scene.ids, prompter := scene.peer })

/-- The object that a recipe makes; `none` when it needs an object that is not there. -/
def prepare (r : Rehearsal) (recipe : Recipe) : Option (Outcome (Handle × Rehearsal)) :=
  (recipe.build? r.db r.handle?).map fun call =>
    let (outcome, r) := r.draw call
    outcome.map fun h => (h, r)

def shownLock? : Handle → Option Lock
  | .lock h => some h
  | .leaf h => some h.lock
  | .priority h => some h.lock
  | _ => none

/-- Makes an object and keeps it under a name; `none` when an object that it needs is not there. -/
def make (r : Rehearsal) (name : String) (recipe : Recipe) : Option (Outcome Handle) × Rehearsal :=
  match r.prepare recipe with
  | none => (none, r)
  | some (.error failure) => (some (.error failure), r)
  | some (.ok (h, r)) =>
    let r :=
      match shownLock? h with
      | some lock => { r with prompter := r.prompter.name lock.id }
      | none => r
    (some (.ok h), r.keep name h)

/-- The expire word at which the first request of a call aims, when the call is one on a token bucket. -/
def aimedWindow? (now : Nat) : Handle → Operation → Option TimeWord
  | .bucket h, .acquire => some (h.currentWindow now).expire
  | _, _ => none

/-- Calls an operation of an object; `none` when there is no such object or it has no such operation. A call that
frees all slots needs at most one release more than the prompter has answers left. -/
def perform (r : Rehearsal) (name : String) (op : Operation) : Option CallReport × Rehearsal :=
  match r.handle? name with
  | none => (none, r)
  | some h =>
    let prompter := { r.prompter with sent := #[] }
    match op, h.call? prompter.now (prompter.patience + 1) op, h.posting? op with
    | .describe, _, _ => (some { sent := #[], result := .description, handle := h }, r)
    | _, some call, _ =>
      let (result, scene) := call.run Prompter.respond ⟨h, r.ids, prompter⟩
      let report :=
        { sent := scene.peer.sent, result, handle := scene.state, window := aimedWindow? prompter.now h op }
      (some report, { r with ids := scene.ids, prompter := scene.peer }.keep name scene.state)
    | _, none, some call =>
      let (result, scene) := Posting.run Prompter.respond call ⟨h, r.ids, prompter⟩
      (some { sent := scene.peer.sent, result, handle := scene.state },
        { r with ids := scene.ids, prompter := scene.peer }.keep name scene.state)
    | _, none, none => (none, r)

end Rehearsal

end LockService
