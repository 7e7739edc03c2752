import LockService.Config.Address
import LockService.Pending.Switchboard

/-!
# Connections

A connection leads to one lock server. Its supervisor opens one session after another, reads what comes in on it, and
tears it down when the stream ends, until the owner closes the connection. The owner sees the phase of the connection
and the session it stores; a session that is torn down is no longer live, even while it is still stored.
-/

namespace LockService

/-- How far a connection has come, as its owner sees it. -/
inductive Phase where
  | disconnected
  | connecting
  | handshaking
  | live
  /-- Closed by its owner, for good. -/
  | closed
deriving DecidableEq

/-- The number of a session among those of its connection. -/
abbrev SessionId := Nat

/-- The use of one stream from its opening to its teardown. -/
structure Session where
  /-- The table of the requests pending on the session. -/
  table : TableId
  /-- The type that the server announced. -/
  initType : UInt8
  /-- Whether reading is to stop. -/
  cancelled : Bool := false
  tornDown : Bool := false
  /-- Bytes that have come in and are not yet a whole frame. -/
  unread : List UInt8 := []
  /-- Requests whose writing has been ordered and has not begun. -/
  outbox : List Request := []
  /-- Requests that have been written, in order. -/
  written : List Request := []

/-- What the supervisor of a connection is about. -/
inductive Supervisor where
  /-- It waits for its next attempt to connect. -/
  | waiting
  /-- It makes a stream to the server. -/
  | connecting
  /-- It has introduced itself with a request and awaits the answer. -/
  | handshaking (requestId : Ident)
  /-- A session is open and not yet stored. -/
  | engaged (session : SessionId)
  /-- A session is live; the supervisor has still to see whether the connection is closed already. -/
  | checking (session : SessionId)
  | reading (session : SessionId)
  /-- It has to tear a session down, and after it to end when `last`. -/
  | leaving (session : SessionId) (last : Bool)
  /-- It is in the middle of an operation that is carried out move by move. -/
  | busy
  | ended
deriving DecidableEq

/-- A connection to one lock server. -/
structure Connection where
  address : Address
  phase : Phase := .disconnected
  stored : Option SessionId := none
  /-- Whether the owner has closed the connection. -/
  shutdown : Bool := false
  supervisor : Supervisor := .waiting
  /-- All sessions so far, by number. -/
  sessions : List Session := []

namespace Connection

/-- Enters a phase. A closed connection stays closed. -/
def setPhase (phase : Phase) (c : Connection) : Connection :=
  if c.phase = .closed then c else { c with phase }

theorem setPhase_of_closed {c : Connection} (h : c.phase = .closed) (phase : Phase) : c.setPhase phase = c := by
  simp [setPhase, h]

def changeSession (s : SessionId) (change : Session → Session) (c : Connection) : Connection :=
  { c with sessions := c.sessions.modify s change }

/-- Whether a session was torn down; one that does not exist counts as torn down. -/
def isTornDown (s : SessionId) (c : Connection) : Bool := (c.sessions[s]?.map (·.tornDown)).getD true

/-- The session in use, unless it is torn down. -/
def liveSession? (c : Connection) : Option (SessionId × Session) := do
  let s ← c.stored
  let session ← c.sessions[s]?
  if session.tornDown then none else some (s, session)

def isLive (c : Connection) : Bool := c.liveSession?.isSome

/-- The type that the server of the live session announced. -/
def initType? (c : Connection) : Option UInt8 := c.liveSession?.map (·.2.initType)

end Connection

end LockService
