import LockService.Failure
import LockService.Pending.Wheel

/-!
# The switchboard

A switchboard connects the answers of the service with those who wait for them. A request that is awaited has a
waiter, and one with a callback an entry that holds the callback until somebody takes it. Both are found through the
pending table of their session; an entry is also parked on the timeout wheel. Answer, timeout and the end of a session
race for the callback, and whoever takes it first runs it.

Taking a callback and delivering its outcome are three separate steps (`Task.step`), between which the steps of others
may fall; `settle` does the three in one go. Everything that reaches a caller is kept in the order of delivery.
-/

namespace LockService

/-- The number of an awaited request, counted over a whole run. -/
abbrev WaiterId := Nat

/-- The number of a pending table, counted over a whole run. -/
abbrev TableId := Nat

/-- Whoever waits for the answer to a request. -/
inductive Pending where
  | waiter (waiter : WaiterId)
  | entry (entry : EntryId)
deriving DecidableEq

/-- The requests pending on one session. A closed table takes no more of them. -/
structure PendingTable where
  entries : List (Ident × Pending) := []
  closed : Bool := false
  /-- Whether the table still exists, so that those who refer to it find it. -/
  alive : Bool := true

/-- A callback command. -/
structure Entry where
  requestId : Ident
  /-- The second at which the wheel fails the command. -/
  deadline : Nat
  wait : Span
  table : TableId
  /-- Whether the callback is still in its slot. -/
  armed : Bool := true

/-- What reaches a caller. -/
inductive Delivery where
  | callback (entry : EntryId) (outcome : Outcome Reply)
  /-- An awaited request gets its outcome. -/
  | waiter (waiter : WaiterId) (outcome : Outcome Reply)
  /-- An awaited request will get no outcome any more. -/
  | abandoned (waiter : WaiterId)

/-- All pending requests of a client. -/
structure Switchboard where
  entries : List Entry := []
  wheel : Wheel := []
  tables : List PendingTable := []
  waiters : Nat := 0
  delivered : List Delivery := []

/-- What is left to do for a callback command. -/
inductive Task where
  /-- Take the callback for an outcome. -/
  | complete (entry : EntryId) (outcome : Outcome Reply)
  /-- The callback is taken: take the command off the wheel. -/
  | unpark (entry : EntryId) (outcome : Outcome Reply)
  /-- Take the callback for a timeout. -/
  | expire (entry : EntryId)
  /-- The callback is taken: take the command out of its table. -/
  | withdraw (entry : EntryId) (outcome : Outcome Reply)
  /-- Hand the callback over with its outcome. -/
  | submit (entry : EntryId) (outcome : Outcome Reply)

namespace Switchboard

/-- The table of a number; one that does not exist is empty. -/
def table (b : Switchboard) (t : TableId) : PendingTable := b.tables.getD t {}

def setTable (b : Switchboard) (t : TableId) (table : PendingTable) : Switchboard :=
  { b with tables := b.tables.set t table }

def deliver (b : Switchboard) (d : Delivery) : Switchboard := { b with delivered := b.delivered ++ [d] }

def newTable (b : Switchboard) : TableId × Switchboard :=
  (b.tables.length, { b with tables := b.tables ++ [{}] })

/-- A new awaited request, not yet in a table. -/
def newWaiter (b : Switchboard) : WaiterId × Switchboard := (b.waiters, { b with waiters := b.waiters + 1 })

/-- Gives up whoever waits without an outcome. A callback stays with its entry. -/
def abandon (b : Switchboard) : Pending → Switchboard
  | .waiter w => b.deliver (.abandoned w)
  | .entry _ => b

/-- Parks a callback command that is deferred in second `now`. -/
def defer (b : Switchboard) (now : Nat) (id : Ident) (wait : Span) (t : TableId) : EntryId × Switchboard :=
  let deadline := Wheel.deadline now wait
  let entry := b.entries.length
  (entry, { b with
    entries := b.entries ++ [{ requestId := id, deadline, wait, table := t }]
    wheel := b.wheel.insert deadline id entry })

/-- Enters a pending request into a table, in place of another one with the same identifier; a closed table refuses
it. -/
def register (b : Switchboard) (t : TableId) (id : Ident) (p : Pending) : Bool × Switchboard :=
  let table := b.table t
  if table.closed then (false, b)
  else
    let b := b.setTable t { table with entries := Assoc.insert id p table.entries }
    match Assoc.get? id table.entries with
    | some old => (true, b.abandon old)
    | none => (true, b)

def take (b : Switchboard) (t : TableId) (id : Ident) : Option Pending × Switchboard :=
  let table := b.table t
  (Assoc.get? id table.entries, b.setTable t { table with entries := Assoc.erase id table.entries })

/-- Closes a table and takes everything out of it. -/
def drain (b : Switchboard) (t : TableId) : List Pending × Switchboard :=
  let table := b.table t
  (table.entries.map (·.2), b.setTable t { table with entries := [], closed := true })

/-- Takes the callback of a command out of its slot. -/
def takeCallback (b : Switchboard) (e : EntryId) : Option Entry × Switchboard :=
  match b.entries[e]? with
  | some entry =>
    if entry.armed then (some entry, { b with entries := b.entries.set e { entry with armed := false } })
    else (none, b)
  | none => (none, b)

/-- Takes a command out of its table when the table still exists. A waiter that is found there instead is given up. -/
def withdraw (b : Switchboard) (e : EntryId) : Switchboard :=
  match b.entries[e]? with
  | some entry =>
    if (b.table entry.table).alive then
      match b.take entry.table entry.requestId with
      | (some p, b) => b.abandon p
      | (none, b) => b
    else b
  | none => b

/-- Takes a command off the wheel, found by its deadline and identifier. -/
def unpark (b : Switchboard) (e : EntryId) : Switchboard :=
  match b.entries[e]? with
  | some entry => { b with wheel := b.wheel.remove entry.deadline entry.requestId }
  | none => b

end Switchboard

namespace Task

/-- Does the next thing that is left to do; whoever does not get the callback is done. -/
def step (b : Switchboard) : Task → Option Task × Switchboard
  | complete e outcome =>
    match b.takeCallback e with
    | (some _, b) => (some (unpark e outcome), b)
    | (none, b) => (none, b)
  | unpark e outcome => (some (submit e outcome), b.unpark e)
  | expire e =>
    match b.takeCallback e with
    | (some entry, b) => (some (withdraw e (.error (.timeout entry.wait))), b)
    | (none, b) => (none, b)
  | withdraw e outcome => (some (submit e outcome), b.withdraw e)
  | submit e outcome => (none, b.deliver (.callback e outcome))

/-- Does the next thing if there is one left. -/
def advance : Option Task × Switchboard → Option Task × Switchboard
  | (some t, b) => t.step b
  | (none, b) => (none, b)

end Task

namespace Switchboard

/-- Does everything that is left to do for a command, without a break. -/
def settle (b : Switchboard) (t : Task) : Switchboard :=
  (Task.advance (Task.advance (Task.advance (some t, b)))).2

def resolve (b : Switchboard) (outcome : Outcome Reply) : Pending → Switchboard
  | .waiter w => b.deliver (.waiter w outcome)
  | .entry e => b.settle (.complete e outcome)

/-- Handles a reply that arrives on the session of a table: it settles the request that it answers, and nothing when
none is pending under its identifier. -/
def receive (b : Switchboard) (t : TableId) (reply : Reply) : Bool × Switchboard :=
  match b.take t reply.requestId with
  | (some p, b) => (true, b.resolve (.ok reply) p)
  | (none, b) => (false, b)

/-- Fails every command of a list that is not finished; returns how many there were. -/
def expireAll (b : Switchboard) : List EntryId → Nat × Switchboard
  | [] => (0, b)
  | e :: rest =>
    let failed := if (b.entries[e]?.map (·.armed)).getD false then 1 else 0
    let (more, b) := (b.settle (.expire e)).expireAll rest
    (failed + more, b)

/-- Fails every unfinished command due at or before a second; returns how many there were. -/
def expireDue (b : Switchboard) (second : Nat) : Nat × Switchboard :=
  { b with wheel := b.wheel.later second }.expireAll (b.wheel.due second)

/-- Closes a table and gives everything in it one outcome, as a single operation. A `Race` takes it apart into the
closing of the table and the steps that each pending request then takes to its outcome. -/
def drainWith (b : Switchboard) (t : TableId) (outcome : Outcome Reply) : Nat × Switchboard :=
  let (pending, b) := b.drain t
  (pending.length, pending.foldl (fun b p => b.resolve outcome p) b)

/-- Defers a callback command and enters it into its table; when the table is closed the callback gets the news that
the connection is closed. -/
def deferRegistered (b : Switchboard) (now : Nat) (id : Ident) (wait : Span) (t : TableId) :
    EntryId × Bool × Switchboard :=
  let (e, b) := b.defer now id wait t
  match b.register t id (.entry e) with
  | (true, b) => (e, true, b)
  | (false, b) => (e, false, b.resolve (.error .connectionClosed) (.entry e))

/-- Gives up a table with everything in it. -/
def dropTable (b : Switchboard) (t : TableId) : Switchboard :=
  let (pending, b) := b.drain t
  let b := b.setTable t { b.table t with alive := false }
  pending.foldl (fun b p => b.abandon p) b

end Switchboard

end LockService
