import LockService.Client.Basic
import LockService.Client.Handshake

/-!
# The life of a connection

A supervisor takes turns (`Client.turn`): it attempts to connect, opens a session, makes it live, reads, and tears the
session down. The owner may come between any two turns, to close the connection or to give up its session. Going
live, teardown and closing consist of smaller moves, each of which is a function of its own here.

A teardown closes the session's table and fails everything in it, and only the first teardown of a session does
anything.
-/

namespace LockService.Client

/-! ### Moves -/

def store (c : Client) (i : Nat) (s : SessionId) : Client := c.change i fun k => { k with stored := some s }

def setPhase (c : Client) (i : Nat) (phase : Phase) : Client := c.change i (·.setPhase phase)

/-- Joins the live set with a session. Without a replica set there is none. -/
def joinLive (c : Client) (i : Nat) (s : SessionId) : Client :=
  match c.replicated, c.connections[i]?.bind (·.sessions[s]?) with
  | true, some session => { c with live := c.live.join i session.initType }
  | _, _ => c

def leaveLive (c : Client) (i : Nat) : Client := if c.replicated then { c with live := c.live.leave i } else c

/-- Tells the supervisor and the sessions that the connection is closed. -/
def cancelShutdown (c : Client) (i : Nat) : Client := c.change i fun k => { k with shutdown := true }

def takeStored (c : Client) (i : Nat) : Option SessionId × Client :=
  (c.connections[i]?.bind (·.stored), c.change i fun k => { k with stored := none })

/-- Marks a session as torn down, and tells whether it was not before. -/
def markTornDown (c : Client) (i : Nat) (s : SessionId) : Bool × Client :=
  match c.connections[i]? with
  | some k =>
    if k.isTornDown s then (false, c)
    else (true, c.change i fun k => k.changeSession s fun session => { session with tornDown := true })
  | none => (false, c)

/-- Tells the supervisor to stop reading on a session. -/
def cancelSession (c : Client) (i : Nat) (s : SessionId) : Client :=
  c.change i fun k => k.changeSession s fun session => { session with cancelled := true }

/-- Takes a session away if it is the one in use. -/
def clearStored (c : Client) (i : Nat) (s : SessionId) : Client :=
  c.change i fun k => if k.stored = some s then { k with stored := none } else k

/-- Closes the table of a session and fails everything in it, as a single move. -/
def drain (c : Client) (i : Nat) (s : SessionId) : Client :=
  match c.connections[i]?.bind (·.sessions[s]?) with
  | some session => { c with board := (c.board.drainWith session.table (.error .connectionClosed)).2 }
  | none => c

/-! ### Operations -/

def goLive (c : Client) (i : Nat) (s : SessionId) : Client := ((c.store i s).setPhase i .live).joinLive i s

/-- Tears a session down, unless that has been done. -/
def teardown (c : Client) (i : Nat) (s : SessionId) : Client :=
  match c.markTornDown i s with
  | (false, c) => c
  | (true, c) => ((((c.cancelSession i s).clearStored i s).setPhase i .disconnected).drain i s).leaveLive i

/-- A second teardown of a session changes nothing. -/
theorem teardown_of_isTornDown {c : Client} {i : Nat} {k : Connection} {s : SessionId}
    (hk : c.connections[i]? = some k) (hs : k.isTornDown s = true) : c.teardown i s = c := by
  simp [teardown, markTornDown, hk, hs]

/-- Closes a connection: it is not opened again, and everything pending fails. -/
def closeConnection (c : Client) (i : Nat) : Client :=
  match (c.cancelShutdown i).takeStored i with
  | (some s, c) => (c.teardown i s).setPhase i .closed
  | (none, c) => c.setPhase i .closed

/-- Closes every connection. -/
def close (c : Client) : Client := (List.range c.connections.length).foldl closeConnection c

/-- Gives up the session in use as if its stream had failed. -/
def disconnect (c : Client) (i : Nat) : Client :=
  match c.connections[i]?.bind (·.stored) with
  | some s => c.cancelSession i s
  | none => c

/-- Adds a session to a connection, with a table of its own. -/
def newSession (c : Client) (i : Nat) (initType : UInt8) (unread : List UInt8) : SessionId × Client :=
  let (table, board) := c.board.newTable
  let session : Session := { table, initType, unread }
  (((c.connections[i]?).map (·.sessions.length)).getD 0,
    { c with board }.change i fun k => { k with sessions := k.sessions ++ [session] })

/-! ### The supervisor -/

inductive Turn where
  /-- Begins to make a stream to the server. -/
  | attempt
  /-- Introduces itself on the new stream. -/
  | introduce
  /-- Takes what comes in on the new stream. -/
  | hear (arriving : Arriving)
  /-- Gives up the attempt. -/
  | fail
  /-- Makes the new session live. -/
  | goLive
  /-- Looks whether the connection was closed in the meantime. -/
  | check
  | stopReading
  /-- Tears the session down. -/
  | teardown
  /-- Ends because the connection is closed. -/
  | retire

/-- Puts a supervisor on something else. -/
def assign (c : Client) (i : Nat) (supervisor : Supervisor) : Client := c.change i fun k => { k with supervisor }

/-- Takes a turn of a supervisor; `none` when it is about something else. -/
def turn (c : Client) (i : Nat) (t : Turn) : Option Client := do
  let k ← c.connections[i]?
  match t, k.supervisor with
  | .attempt, .waiting => some ((c.setPhase i .connecting).assign i .connecting)
  | .introduce, .connecting =>
    let (id, c) := (c.setPhase i .handshaking).draw
    some (c.assign i (.handshaking id))
  | .hear arriving, .handshaking id =>
    match arriving.opening id with
    | .ok initType =>
      let (s, c) := c.newSession i initType arriving.rest
      some (c.assign i (.engaged s))
    | .error _ => some ((c.setPhase i .disconnected).assign i .waiting)
  | .fail, .connecting | .fail, .handshaking _ => some ((c.setPhase i .disconnected).assign i .waiting)
  | .goLive, .engaged s => some ((c.goLive i s).assign i (.checking s))
  | .check, .checking s => some (c.assign i (if k.shutdown then .leaving s true else .reading s))
  | .stopReading, .reading s => some (c.assign i (.leaving s false))
  | .teardown, .leaving s false => some ((c.teardown i s).assign i .waiting)
  | .teardown, .leaving s true => some (((c.teardown i s).setPhase i .closed).assign i .ended)
  | .retire, .waiting | .retire, .connecting | .retire, .handshaking _ =>
    if k.shutdown then some ((c.setPhase i .closed).assign i .ended) else none
  | _, _ => none

end LockService.Client
