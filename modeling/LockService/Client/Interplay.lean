import LockService.Client.Lifecycle

/-!
# Interplay of supervisors and owners

Going live, teardown and closing are not atomic: while a supervisor is in the middle of one of them, the owner of the
connection may be in the middle of another. Here such an operation is a list of moves, and each event of an interplay
carries out a single move of one of the operations under way.

Draining counts as one move: it closes the table of a session and gives everything in it its outcome. No connection
and no live set depends on how far a drain has come, and what may come between the outcomes that it gives is the matter
of a `Race`.
-/

namespace LockService

/-- A move of an operation on a connection. -/
inductive Move where
  | store (session : SessionId)
  | setPhase (phase : Phase)
  | joinLive (session : SessionId)
  | cancelShutdown
  /-- Takes the session in use away, in order to tear it down. -/
  | takeStored
  /-- Marks a session as torn down, and goes on with the teardown when it was not. -/
  | markTornDown (session : SessionId)
  | cancelSession (session : SessionId)
  | clearStored (session : SessionId)
  | drain (session : SessionId)
  | leaveLive
  /-- Ends an operation of the supervisor. -/
  | assign (supervisor : Supervisor)
deriving DecidableEq

namespace Move

def goingLive (s : SessionId) : List Move := [.store s, .setPhase .live, .joinLive s]

def teardown (s : SessionId) : List Move := [.markTornDown s]

def closing : List Move := [.cancelShutdown, .takeStored, .setPhase .closed]

/-- Makes a move on a connection; what it leads to comes before the rest of its operation. -/
def make (c : Client) (i : Nat) : Move → List Move × Client
  | .store s => ([], c.store i s)
  | .setPhase phase => ([], c.setPhase i phase)
  | .joinLive s => ([], c.joinLive i s)
  | .cancelShutdown => ([], c.cancelShutdown i)
  | .takeStored =>
    match c.takeStored i with
    | (some s, c) => (teardown s, c)
    | (none, c) => ([], c)
  | .markTornDown s =>
    match c.markTornDown i s with
    | (true, c) => ([.cancelSession s, .clearStored s, .setPhase .disconnected, .drain s, .leaveLive], c)
    | (false, c) => ([], c)
  | .cancelSession s => ([], c.cancelSession i s)
  | .clearStored s => ([], c.clearStored i s)
  | .drain s => ([], c.drain i s)
  | .leaveLive => ([], c.leaveLive i)
  | .assign supervisor => ([], c.assign i supervisor)

end Move

/-- A client with the operations under way: the connection of each and its moves still to be made. -/
structure Interplay where
  client : Client
  underway : List (Nat × List Move) := []

/-- What can happen in an interplay. -/
inductive Interplay.Event where
  /-- A supervisor takes a turn. Going live and teardown only begin with it. -/
  | turn (connection : Nat) (turn : Client.Turn)
  | close (connection : Nat)
  /-- The owner gives up the session in use. -/
  | disconnect (connection : Nat)
  /-- The next move of an operation under way is made. -/
  | move (operation : Nat)

namespace Interplay

def begin (p : Interplay) (i : Nat) (moves : List Move) : Interplay :=
  { p with underway := p.underway ++ [(i, moves)] }

/-- Lets an event happen; `none` when it cannot. -/
def step (p : Interplay) : Event → Option Interplay
  | .turn i t => do
    let k ← p.client.connections[i]?
    let busy := p.client.assign i .busy
    match t, k.supervisor with
    | .goLive, .engaged s =>
      some ({ p with client := busy }.begin i (Move.goingLive s ++ [Move.assign (.checking s)]))
    | .teardown, .leaving s false =>
      some ({ p with client := busy }.begin i (Move.teardown s ++ [Move.assign .waiting]))
    | .teardown, .leaving s true =>
      some ({ p with client := busy }.begin i (Move.teardown s ++ [Move.setPhase .closed, Move.assign .ended]))
    | _, _ => (p.client.turn i t).map fun client => { p with client }
  | .close i => if i < p.client.connections.length then some (p.begin i Move.closing) else none
  | .disconnect i => some { p with client := p.client.disconnect i }
  | .move n =>
    match p.underway[n]? with
    | some (i, m :: rest) =>
      let (more, client) := m.make p.client i
      some { client, underway := p.underway.set n (i, more ++ rest) }
    | _ => none

/-- Lets events happen one after the other; those that cannot are skipped. -/
def run (p : Interplay) (events : List Event) : Interplay :=
  events.foldl (fun p e => (p.step e).getD p) p

/-- Whether no operation is under way. -/
def isQuiet (p : Interplay) : Bool := p.underway.all fun (_, moves) => moves.isEmpty

end Interplay

end LockService
