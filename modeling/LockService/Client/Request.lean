import LockService.Client.Basic
import LockService.Pending.Awaited
import LockService.Pending.Inbound

/-!
# Requests of a client

A request is entered into the table of a live session and then written to its stream. Writing is ordered when the
request is entered and carried out later, one whole frame at a time. Answers are read on the session and settle the
requests in its table, however the stream is cut into pieces.

A caller awaits the answer (`Client.send`) or leaves a callback for it (`Client.post`). Either way the answer has to
come within the request's own wait and the grace of the configuration.
-/

namespace LockService.Client

/-- How long the answer to a request may take. -/
def bound (c : Client) (request : Request) : Span := request.waitSpan + c.config.responseGrace

def orderWrite (c : Client) (i : Nat) (s : SessionId) (request : Request) : Client :=
  c.change i fun k => k.changeSession s fun session => { session with outbox := session.outbox ++ [request] }

/-- Enters a request that a caller awaits into the table of a session, and orders it to be written. -/
def sendOn (c : Client) (i : Nat) (s : SessionId) (session : Session) (request : Request) :
    Outcome Awaited × Client :=
  match c.board.await session.table request.requestId (c.bound request) with
  | (.ok awaited, board) => (.ok awaited, { c with board }.orderWrite i s request)
  | (.error failure, board) => (.error failure, { c with board })

/-- Enters a request with a callback into the table of a session in second `now`, and orders it to be written. When
the table is closed the callback learns that the connection is closed. -/
def postOn (c : Client) (now : Nat) (i : Nat) (s : SessionId) (session : Session) (request : Request) :
    EntryId × Client :=
  match c.board.deferRegistered now request.requestId (c.bound request) session.table with
  | (entry, true, board) => (entry, { c with board }.orderWrite i s request)
  | (entry, false, board) => (entry, { c with board })

/-- The connection that requests go to, with its live session. -/
def route? (c : Client) : Option (Nat × SessionId × Session) := do
  let i ← c.primary?
  let (s, session) ← c.liveSession? i
  some (i, s, session)

def send (c : Client) (request : Request) : Outcome Awaited × Client :=
  match c.route? with
  | some (i, s, session) => c.sendOn i s session request
  | none => (.error .unconnected, c)

/-- Sends a request with a callback in second `now`; without a live session the callback runs on the failure at
once. -/
def post (c : Client) (now : Nat) (request : Request) : Outcome EntryId × Client :=
  match c.route? with
  | some (i, s, session) =>
    let (entry, c) := c.postOn now i s session request
    (.ok entry, c)
  | none => (.error .unconnected, c)

/-- Writes the `n`-th of the requests whose writing is ordered on a session. -/
def write (c : Client) (i : Nat) (s : SessionId) (n : Nat) : Client :=
  c.change i fun k => k.changeSession s fun session =>
    match session.outbox[n]? with
    | some request => { session with outbox := session.outbox.eraseIdx n, written := session.written ++ [request] }
    | none => session

/-- Fails to write the `n`-th of the requests whose writing is ordered on a session: the session is given up and the
request fails. -/
def failWrite (c : Client) (i : Nat) (s : SessionId) (n : Nat) (reason : String) : Client :=
  match c.connections[i]?.bind (·.sessions[s]?) with
  | none => c
  | some session =>
    match session.outbox[n]? with
    | none => c
    | some request =>
      let c := c.change i fun k => k.changeSession s fun session =>
        { session with outbox := session.outbox.eraseIdx n, cancelled := true }
      match c.board.take session.table request.requestId with
      | (some pending, board) => { c with board := board.resolve (.error (.write reason)) pending }
      | (none, board) => { c with board }

/-- Reads bytes that come in on the session that a connection's supervisor reads. -/
def receive (c : Client) (i : Nat) (bytes : List UInt8) : Client :=
  match c.connections[i]? with
  | none => c
  | some k =>
    match k.supervisor with
    | .reading s =>
      match k.sessions[s]? with
      | none => c
      | some session =>
        let (frames, unread) := splitFrames (session.unread ++ bytes)
        { c with board := c.board.receiveFrames session.table frames }.change i fun k =>
          k.changeSession s fun session => { session with unread }
    | _ => c

/-- A request that checks whether the server is there. -/
def pingRequest (c : Client) : Request × Client :=
  let (id, c) := c.draw
  (.ping ⟨id⟩, c)

/-- What the answer to a check means. -/
def pingOutcome : Reply → Outcome Unit
  | .ping reply => if reply.result = ResultCode.success then .ok () else .error (.unexpected (.pingCode reply.result))
  | reply => .error (.unexpected (.notPing reply))

end LockService.Client
