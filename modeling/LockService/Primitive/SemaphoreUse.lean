import LockService.Call.Interleaving
import LockService.Primitive.Semaphore
import Mathlib.Logic.Function.Basic

/-!
# Semaphores in use

Any number of clients use handles of a semaphore, each client with a source of identifiers of its own. A call draws its
identifiers and sends its request; the service decides on the requests in whatever order, and a request that may wait
at whatever moment. With its decision a call is over.
-/

namespace LockService.Semaphore

/-- A call on a handle. -/
inductive SemaphoreCall where
  | acquire
  | release
  /-- Takes a slot with a callback. -/
  | postAcquire
  /-- Frees the oldest slot with a callback. -/
  | postRelease
deriving DecidableEq

/-- A call to its end, or to the end of its callback. -/
def perform (h : Semaphore) : SemaphoreCall → Call Unit (Outcome LockReply)
  | .acquire => h.acquire.outcome
  | .release => h.release.outcome
  | .postAcquire => Posting.followed h.postAcquire
  | .postRelease => Posting.followed h.postRelease

variable {clients : Nat}

/-- What can happen. -/
inductive Use (clients : Nat) where
  /-- A client makes a call on a handle. -/
  | start (client : Fin clients) (handle : Semaphore) (call : SemaphoreCall)
  /-- The service decides on the `n`-th of the requests under way. -/
  | decide (n : Nat)

/-- The handle that is used, if one is, is one of a semaphore; its times may be any. -/
def Use.Concerns (dbId : UInt8) (key : LockKey) (permits : UInt16) : Use clients → Prop
  | start _ handle _ =>
    ∃ (db : Database) (timeout expire : TimeWord), db.id = dbId ∧ handle = db.semaphore key permits timeout expire
  | decide _ => True

/-- The service and the calls under way. -/
structure Users (τ : Type) (clients : Nat) where
  sources : Fin clients → IdSource
  peer : τ
  /-- The requests on which the service has not decided, each with its client. -/
  underWay : List (Fin clients × UnderWay Unit (Outcome LockReply)) := []
  /-- What the calls that are over told, in order. -/
  finished : List (Outcome LockReply) := []

namespace Users

variable {τ : Type}

/-- Runs one section of a call of a client. -/
def runSection (p : Users τ clients) (client : Fin clients) (call : Call Unit (Outcome LockReply)) : Users τ clients :=
  match call.advance () (p.sources client) with
  | (.finished told, _, ids) =>
    { p with sources := Function.update p.sources client ids, finished := p.finished ++ [told] }
  | (.waiting request resume, _, ids) =>
    { p with
      sources := Function.update p.sources client ids
      underWay := p.underWay ++ [(client, ⟨request, resume⟩)] }

/-- Lets something happen. The service decides only on what is under way. -/
def step (respond : Responder τ) (p : Users τ clients) : Use clients → Users τ clients
  | .start client handle call => p.runSection client (handle.perform call)
  | .decide n =>
    match p.underWay[n]? with
    | some (client, u) =>
      let (outcome, peer) := respond p.peer u.request
      { p with peer, underWay := p.underWay.eraseIdx n }.runSection client (u.resume outcome)
    | none => p

/-- Lets things happen one after the other. -/
def run (respond : Responder τ) (p : Users τ clients) (uses : List (Use clients)) : Users τ clients :=
  uses.foldl (step respond) p

@[simp] theorem run_nil (respond : Responder τ) (p : Users τ clients) : p.run respond [] = p := rfl

theorem run_concat (respond : Responder τ) (p : Users τ clients) (uses : List (Use clients)) (use : Use clients) :
    p.run respond (uses ++ [use]) = (p.run respond uses).step respond use := by
  simp only [run, List.foldl_append, List.foldl_cons, List.foldl_nil]

/-- The identifiers that a client has drawn since its source was as given. -/
def drawn (p : Users τ clients) (sources : Fin clients → IdSource) (client : Fin clients) : List Ident :=
  (sources client).take ((p.sources client).drawn - (sources client).drawn)

/-- No client has drawn more than 2³¹ identifiers, and no two have drawn the same one. -/
structure KeepsApart (p : Users τ clients) (sources : Fin clients → IdSource) : Prop where
  enough : ∀ client, (p.drawn sources client).length ≤ 2147483648
  apart : ∀ client other, client ≠ other → ∀ id ∈ p.drawn sources client, id ∉ p.drawn sources other

end Users

end LockService.Semaphore
