import LockService.Call.Interleaving
import LockService.Rehearsal.Basic
import Mathlib.Data.Set.Basic

/-!
# Ensembles

An ensemble makes named objects in one database and calls their operations, with and without callbacks, while other
calls on the same or other objects are under way. Requests get their outcomes in whatever order.
-/

namespace LockService

/-! ### The identifiers of an object -/

/-- The identifiers of the locks that a reentrant lock may send requests for. -/
def ReentrantLock.State.lockIds (s : ReentrantLock.State) : Set Ident := {id | ∃ lock ∈ s.lock, lock.id = id}

/-- The identifiers of the locks that a read/write lock may send requests for. -/
def ReadWriteLock.State.lockIds (s : ReadWriteLock.State) : Set Ident :=
  {id | (∃ lock ∈ s.write, lock.id = id) ∨ ∃ lock ∈ s.reads, lock.id = id}

/-- The identifiers of the locks that a concurrency limit may send requests for. -/
def FlowLimit.lockIds (s : FlowLimit.State) : Set Ident := {id | ∃ lock ∈ s, lock.id = id}

/-- The keys whose bytes the leaves of a node use as identifiers. -/
def TreeNode.lockIds (node : TreeNode) : Set Ident :=
  {id | id = node.key.asIdent ∨ ∃ key ∈ node.parent, id = key.asIdent}

/-- The identifiers that an object has, or makes of what it was given, for its locks. Those that its calls draw are not
among them. -/
def Handle.lockIds : Handle → Set Ident
  | lock h => {h.id}
  | reentrant _ s => s.lockIds
  | readWrite _ s => s.lockIds
  | semaphore _ | bucket _ => ∅
  | flow _ s => FlowLimit.lockIds s
  | tree h => h.lockIds
  | leaf h => insert h.lock.id h.node.lockIds
  | event h => {h.key.asIdent}
  | group h _ => {id | ∃ version, id = Ident.ofHalves version h.clientId ∨ id = Ident.ofHalves version 0}
  | priority h => {h.lock.id}

/-- An identifier for locks that whoever makes an object gives it: a lock's own, the bytes of a key, or one of the
versions of a group event. -/
def Recipe.Gives (id : Ident) : Recipe → Prop
  | rawLock _ given _ _ => id = given
  | derivedLock _ change => id ∈ change.id
  | tree key _ _ | child _ key | event key _ _ _ => id = key.asIdent
  | group _ clientId _ _ _ => ∃ version, id = Ident.ofHalves version clientId ∨ id = Ident.ofHalves version 0
  | lock _ _ _ | defaultLock _ | reentrant _ _ _ | readWrite _ _ _ | semaphore _ _ _ _ | flow _ _ _ _ _
  | bucket _ _ _ _ | leaf _ | priority _ _ _ _ => False

/-! ### Objects and the calls on them -/

namespace Ensemble

/-- Objects by their names. -/
abbrev Objects := List (String × Handle)

/-- The identifiers that objects have, or make of what they were given, for their locks. -/
def lockIds (objects : Objects) : Set Ident := {id | ∃ object ∈ objects, id ∈ object.2.lockIds}

/-- The objects with one under a name, in place of an older one. -/
def keep (name : String) (h : Handle) (objects : Objects) : Objects := (name, h) :: objects.filter (·.1 != name)

/-- A call on the object with a name, as one on all objects. -/
def onObject {α : Type} (name : String) (h : Handle) (call : Call Handle α) : Call Objects α :=
  call.within (fun objects => (objects.lookup name).getD h) (keep name)

/-- Makes an object under a name that is not taken. -/
def make (db : Database) (name : String) (recipe : Recipe) : Call Objects (Option CallResult) := do
  let objects ← Call.state
  if (objects.lookup name).isSome then return none
  match recipe.build? db fun name => objects.lookup name with
  | none => return none
  | some build =>
    match ← build with
    | .ok h =>
      modify (keep name h)
      return none
    | .error failure => return some (.outcome (.error failure))

/-- Calls an operation of an object, if there is such an object and it has such an operation. -/
def perform (name : String) (op : Operation) (now fuel : Nat) : Call Objects (Option CallResult) := do
  match (← Call.state).lookup name with
  | none => return none
  | some h =>
    match h.call? now fuel op, h.posting? op with
    | some call, _ => return some (← onObject name h call)
    | none, some call => return some (← onObject name h (Posting.followed call))
    | none, none => return none

/-- What can happen. -/
inductive Event where
  | make (name : String) (recipe : Recipe)
  /-- An operation is called at the instant `now`. One that frees all slots does so with at most `fuel` releases. -/
  | call (name : String) (op : Operation) (now fuel : Nat)
  /-- The `n`-th of the requests under way gets its outcome. -/
  | answer (n : Nat) (outcome : Outcome Reply)

def Event.toInterleaving (db : Database) : Event → Interleaving.Event Objects (Option CallResult)
  | make name recipe => .start (Ensemble.make db name recipe)
  | call name op now fuel => .start (perform name op now fuel)
  | answer n outcome => .settle n outcome

/-- The objects made in a database with the calls on them, after whatever has happened. -/
def run (db : Database) (ids : IdSource) (events : List Event) : Interleaving Objects (Option CallResult) :=
  Interleaving.run { state := [], ids } (events.map (·.toInterleaving db))

end Ensemble

end LockService
