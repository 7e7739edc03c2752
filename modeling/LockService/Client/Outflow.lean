import LockService.Client.Request

/-!
# Requests on their way to a stream

A caller that posts requests on a connection enters them into the table of the live session and leaves the writing of
each to a task of its own. The tasks take turns at the writer of the session. One that has the writer keeps it until
its frame is written, piece by piece as the stream takes the bytes. Which of the waiting tasks has the next turn is up
to the scheduler.
-/

namespace LockService

/-- A client and the stream of the live session of a connection. -/
structure Outflow where
  client : Client
  /-- The requests that were entered into the table of the session, in order. -/
  registered : List Request := []
  /-- What the task that has the writer has still to write. -/
  unsent : Option (List UInt8) := none
  /-- The bytes written so far. -/
  stream : List UInt8 := []

namespace Outflow

/-- What can happen next. -/
inductive Event where
  /-- The caller posts a request in second `now`. -/
  | post (now : Nat) (request : Request)
  /-- The `n`-th of the waiting tasks gets the writer. -/
  | serve (n : Nat)
  /-- The stream takes up to `count` bytes. -/
  | push (count : Nat)
  /-- A task that has written everything lets go of the writer. -/
  | letGo
deriving DecidableEq

def Event.request? : Event → Option Request
  | post _ request => some request
  | _ => none

/-- The requests whose tasks wait for the writer, in the order in which they were posted. -/
def outbox (i : Nat) (p : Outflow) : List Request := ((p.client.liveSession? i).map (·.2.outbox)).getD []

/-- The requests whose tasks have had the writer, in that order. -/
def written (i : Nat) (p : Outflow) : List Request := ((p.client.liveSession? i).map (·.2.written)).getD []

/-- Enters a request into the table of the live session; a closed table refuses it. -/
def post (i : Nat) (p : Outflow) (now : Nat) (request : Request) : Outflow :=
  match p.client.liveSession? i with
  | some (s, session) =>
    let registered := if (p.client.board.table session.table).closed then p.registered else p.registered ++ [request]
    { p with client := (p.client.postOn now i s session request).2, registered }
  | none => p

/-- Gives the writer to a waiting task when nobody has it. -/
def serve (i : Nat) (p : Outflow) (n : Nat) : Outflow :=
  match p.unsent, p.client.liveSession? i with
  | none, some (s, session) =>
    match session.outbox[n]? with
    | some request => { p with client := p.client.write i s n, unsent := some request.encode }
    | none => p
  | _, _ => p

/-- Lets an event happen; one that cannot is skipped. -/
def step (i : Nat) (p : Outflow) : Event → Outflow
  | .post now request => p.post i now request
  | .serve n => p.serve i n
  | .push count =>
    match p.unsent with
    | some bytes => { p with stream := p.stream ++ bytes.take count, unsent := some (bytes.drop count) }
    | none => p
  | .letGo => if p.unsent = some [] then { p with unsent := none } else p

/-- Lets events happen one after the other. -/
def run (i : Nat) (p : Outflow) (events : List Event) : Outflow := events.foldl (step i) p

@[simp] theorem run_nil (i : Nat) (p : Outflow) : p.run i [] = p := rfl

theorem run_concat (i : Nat) (p : Outflow) (events : List Event) (event : Event) :
    p.run i (events ++ [event]) = (p.run i events).step i event := by
  simp only [run, List.foldl_append, List.foldl_cons, List.foldl_nil]

/-- A task gets the writer before one whose request was posted earlier. -/
def Overtakes (i : Nat) (p : Outflow) : Event → Prop
  | .serve n => p.unsent = none ∧ 0 < n ∧ n < (p.outbox i).length
  | _ => False

instance (i : Nat) (p : Outflow) : DecidablePred (p.Overtakes i)
  | .post _ _ => inferInstanceAs (Decidable False)
  | .serve n => inferInstanceAs (Decidable (p.unsent = none ∧ 0 < n ∧ n < (p.outbox i).length))
  | .push _ => inferInstanceAs (Decidable False)
  | .letGo => inferInstanceAs (Decidable False)

end Outflow

end LockService
