import LockService.Client.Interplay
import LockService.Client.Request

/-!
# Requests in an interplay

While supervisors and owners go about their operations, callers issue requests on connections. A request looks for a
live session when it is issued, and fails without one. It is entered into the table of that session in a step of its
own; by then the session may have been torn down, or another one may be in use. From then on the request waits for its
answer, for the end of its wait, or for the end of the session.
-/

namespace LockService

/-- How the caller of a request learns its outcome. -/
inductive Manner where
  | awaited
  | callback
deriving DecidableEq

/-- How far a request has come. -/
inductive Progress where
  /-- It has found a live session and has still to be entered into its table. -/
  | underway
  /-- It has failed before anybody waited for its answer. -/
  | failed (failure : Failure)
  | awaited (awaited : Awaited)
  | posted (entry : EntryId)

/-- A request that was issued on a connection. -/
structure Sent where
  connection : Nat
  request : Request
  manner : Manner
  /-- The session that was live at that moment. -/
  session : Option SessionId
  progress : Progress

namespace Progress

def isUnderway : Progress → Bool
  | underway => true
  | _ => false

/-- Whoever waits for the answer. -/
def pending? : Progress → Option Pending
  | awaited a => some (.waiter a.waiter)
  | posted e => some (.entry e)
  | _ => none

/-- The outcomes that have reached the caller, in order. -/
def outcomes (b : Switchboard) : Progress → List (Outcome Reply)
  | underway => []
  | failed failure => [.error failure]
  | awaited a => b.outcomes (.waiter a.waiter)
  | posted e => b.outcomes (.entry e)

end Progress

namespace Client

def session? (c : Client) (i : Nat) (s : SessionId) : Option Session := c.connections[i]?.bind (·.sessions[s]?)

/-- Enters a request into the table of a session in second `now`. -/
def enter (c : Client) (now : Nat) (i : Nat) (s : SessionId) (session : Session) (request : Request) :
    Manner → Progress × Client
  | .awaited =>
    match c.sendOn i s session request with
    | (.ok a, c) => (.awaited a, c)
    | (.error failure, c) => (.failed failure, c)
  | .callback =>
    let (e, c) := c.postOn now i s session request
    (.posted e, c)

end Client

/-- An interplay with the requests issued in it, in order. -/
structure Exchange where
  play : Interplay
  sent : List Sent := []

namespace Exchange

/-- What can happen in an exchange. -/
inductive Event where
  | play (event : Interplay.Event)
  /-- A request is issued on a connection. -/
  | send (connection : Nat) (request : Request) (manner : Manner)
  /-- The `n`-th request reaches the table of its session in second `now`. -/
  | enter (n : Nat) (now : Nat)
  /-- Bytes come in on the session that a supervisor reads. -/
  | receive (connection : Nat) (bytes : List UInt8)
  /-- The wait of the `n`-th request is over. -/
  | timeOut (n : Nat)
  /-- The wheel fails what is due at or before a second. -/
  | expireDue (second : Nat)
  /-- A request is written to the stream of a session. -/
  | write (connection : Nat) (session : SessionId) (n : Nat)
  | failWrite (connection : Nat) (session : SessionId) (n : Nat) (reason : String)

/-- The identifier of a request that is issued. -/
def Event.requestId? : Event → Option Ident
  | send _ request _ => some request.requestId
  | _ => none

/-- An exchange in which nothing has happened. -/
def fresh (c : Client) : Exchange := { play := { client := c } }

def client (x : Exchange) : Client := x.play.client

def board (x : Exchange) : Switchboard := x.client.board

def withClient (x : Exchange) (c : Client) : Exchange := { x with play := { x.play with client := c } }

def withBoard (x : Exchange) (board : Switchboard) : Exchange := x.withClient { x.client with board }

/-- Issues a request on a connection. -/
def send (x : Exchange) (i : Nat) (request : Request) (manner : Manner) : Exchange :=
  match x.client.liveSession? i with
  | some (s, _) => { x with sent := x.sent ++ [⟨i, request, manner, some s, .underway⟩] }
  | none => { x with sent := x.sent ++ [⟨i, request, manner, none, .failed .unconnected⟩] }

/-- The `n`-th request with its session, when it has still to be entered. -/
def underway? (x : Exchange) (n : Nat) : Option (Sent × SessionId × Session) := do
  let r ← x.sent[n]?
  let s ← r.session
  let session ← x.client.session? r.connection s
  if r.progress.isUnderway then some (r, s, session) else none

def enter (x : Exchange) (n now : Nat) : Exchange :=
  match x.underway? n with
  | some (r, s, session) =>
    let (progress, c) := x.client.enter now r.connection s session r.request r.manner
    { x.withClient c with sent := x.sent.set n { r with progress } }
  | none => x

/-- Ends the wait of an awaited request that has no outcome yet. -/
def timeOut (x : Exchange) (n : Nat) : Exchange :=
  match x.sent[n]?.map (·.progress) with
  | some (Progress.awaited a) =>
    if (x.board.outcomes (.waiter a.waiter)).isEmpty then x.withBoard (x.board.timeOut a) else x
  | _ => x

/-- Lets an event happen; one that cannot is skipped. -/
def step (x : Exchange) : Event → Exchange
  | .play e => { x with play := (x.play.step e).getD x.play }
  | .send i request manner => x.send i request manner
  | .enter n now => x.enter n now
  | .receive i bytes => x.withClient (x.client.receive i bytes)
  | .timeOut n => x.timeOut n
  | .expireDue second => x.withBoard (x.board.expireDue second).2
  | .write i s n => x.withClient (x.client.write i s n)
  | .failWrite i s n reason => x.withClient (x.client.failWrite i s n reason)

/-- Lets events happen one after the other. -/
def run (x : Exchange) (events : List Event) : Exchange := events.foldl step x

@[simp] theorem run_nil (x : Exchange) : x.run [] = x := rfl

@[simp] theorem run_cons (x : Exchange) (e : Event) (events : List Event) :
    x.run (e :: events) = (x.step e).run events := rfl

theorem run_append (x : Exchange) (first second : List Event) : x.run (first ++ second) = (x.run first).run second :=
  List.foldl_append

/-- The outcomes of the `n`-th request, in order. -/
def outcomes (x : Exchange) (n : Nat) : List (Outcome Reply) :=
  ((x.sent[n]?).map (·.progress.outcomes x.board)).getD []

end Exchange

end LockService
