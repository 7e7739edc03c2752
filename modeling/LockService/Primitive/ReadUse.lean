import LockService.Call.Interleaving
import LockService.Primitive.ReadWriteLock

/-!
# Reads in concurrent use

Several callers read under one handle. Each acquire and each release of a read sends its request in one section and
looks at the answer in another, and sections of others come between. The books beside the handle record which reads
the server has granted and which of them are over.
-/

namespace LockService

/-- Whether the answer to a release means that the lock is not held any more. -/
def Outcome.isOver (outcome : Outcome Reply) : Bool :=
  match outcome >>= lockOutcome with
  | .ok _ => true
  | .error failure => failure.isUnlocked

/-- The locks that the requests of a kind are about, of those under way. -/
def UnderWay.lockIds {σ α : Type} (kind : CommandKind) (underWay : List (UnderWay σ α)) : List Ident :=
  (underWay.filter fun u => u.request.kind = kind).map fun u => u.request.lockId

namespace ReadWriteLock

/-- What can happen on a handle that is shared for reading. -/
inductive ReadUse where
  | acquire
  | release
  /-- The `n`-th of the requests under way gets its outcome. -/
  | answer (n : Nat) (outcome : Outcome Reply)

/-- A handle shared for reading with the books of its reads. -/
structure Readers where
  handle : Interleaving State (Outcome LockReply)
  /-- The reads that were granted, in order. -/
  granted : List Ident := []
  /-- The reads that were given back or that the server said were gone, in order. -/
  ended : List Ident := []

namespace Readers

/-- A new handle. -/
def fresh (ids : IdSource) : Readers := { handle := { state := {}, ids } }

/-- The reads in the queue of the handle. -/
def queue (p : Readers) : List Ident := p.handle.state.reads.map (·.id)

/-- The reads whose acquires are under way. -/
def acquiring (p : Readers) : List Ident := UnderWay.lockIds .lock p.handle.underWay

/-- The reads whose releases are under way. -/
def releasing (p : Readers) : List Ident := UnderWay.lockIds .unlock p.handle.underWay

/-- One read was granted before another. -/
def Precedes (p : Readers) (id id' : Ident) : Prop := p.granted.idxOf id < p.granted.idxOf id'

instance (p : Readers) (id id' : Ident) : Decidable (p.Precedes id id') :=
  inferInstanceAs (Decidable (p.granted.idxOf id < p.granted.idxOf id'))

def record (p : Readers) (request : LockRequest) (outcome : Outcome Reply) : Readers :=
  if request.kind = .lock then
    if outcome.isGrant then { p with granted := p.granted ++ [request.lockId] } else p
  else if outcome.isOver then { p with ended := p.ended ++ [request.lockId] }
  else p

/-- An answer puts a read back in front of another one that was granted before it. -/
def ReturnsOutOfTurn (p : Readers) : ReadUse → Prop
  | .answer n outcome => ∃ u ∈ p.handle.underWay[n]?, u.request.kind = .unlock ∧ outcome.isOver = false ∧
    ∃ id ∈ p.queue, p.Precedes id u.request.lockId
  | _ => False

instance (p : Readers) : DecidablePred p.ReturnsOutOfTurn
  | .acquire => inferInstanceAs (Decidable False)
  | .release => inferInstanceAs (Decidable False)
  | .answer n outcome => inferInstanceAs (Decidable (∃ u ∈ p.handle.underWay[n]?, u.request.kind = .unlock ∧
      outcome.isOver = false ∧ ∃ id ∈ p.queue, p.Precedes id u.request.lockId))

/-- Lets something happen. -/
def step (h : ReadWriteLock) (p : Readers) : ReadUse → Readers
  | .acquire => { p with handle := p.handle.step (.start h.acquireRead.outcome) }
  | .release => { p with handle := p.handle.step (.start h.releaseRead.outcome) }
  | .answer n outcome =>
    match p.handle.underWay[n]? with
    | some u => { p.record u.request outcome with handle := p.handle.step (.settle n outcome) }
    | none => p

/-- Lets things happen one after the other. -/
def run (h : ReadWriteLock) (p : Readers) (uses : List ReadUse) : Readers := uses.foldl (step h) p

@[simp] theorem run_nil (h : ReadWriteLock) (p : Readers) : p.run h [] = p := rfl

theorem run_concat (h : ReadWriteLock) (p : Readers) (uses : List ReadUse) (use : ReadUse) :
    p.run h (uses ++ [use]) = (p.run h uses).step h use := by
  simp only [run, List.foldl_append, List.foldl_cons, List.foldl_nil]

end Readers

end ReadWriteLock

end LockService
