import LockService.Client.Lifecycle
import LockService.Client.Request

/-!
# Rehearsals of a client

A client is rehearsed with scripted servers. What the servers do to a new connection comes from a script; what they
answer later is put into their mouths step by step. After each step the rehearsal knows which requests reached a
server and which named requests were settled.

The surroundings decide whether servers can be reached at all. No time passes except where a step waits for something;
then every connection that waits for its next attempt makes it, and the addresses that servers have given up are free
again. A rehearsal cannot go on when a server is to listen at an address that is still taken.
-/

namespace LockService

/-- What a server does with a new connection: the bytes that it sends to an opening request of a given identifier,
and whether it ends the stream after them. -/
structure Greeting where
  bytes : Ident → List UInt8
  ended : Bool := false

namespace Greeting

/-- The greeting that opens a session. -/
def standard : Greeting where
  bytes id := (Reply.init ⟨id, ResultCode.success, 0⟩).encode

end Greeting

structure ScriptedServer where
  listening : Bool := true
  /-- Whether its address is taken. A server that has stopped listening gives it up only as time passes. -/
  addressTaken : Bool := listening
  /-- What it does with its next connections; later ones get the standard greeting. -/
  greetings : List Greeting := []
  openings : List InitRequest := []

/-- What a request is about. -/
inductive Question where
  /-- A given request, awaited. -/
  | send (request : Request)
  | post (request : Request)
  /-- A check whether the server is there. -/
  | ping
  /-- Taking a new lock on a key, in a given database or in the default one. -/
  | lock (database : Option UInt8) (key : LockKey)

/-- The value of a settled request. -/
inductive Settled where
  | reply (reply : Reply)
  | nothing
  /-- A lock was taken; whether the answer names it. -/
  | taken (echoed : Bool)

/-- A named request. -/
structure Asked where
  name : String
  requestId : Ident
  meaning : Reply → Outcome Settled
  carrier : Option (Nat × SessionId) := none
  /-- The wait for the answer, while it lasts. -/
  awaited : Option Awaited := none
  entry : Option EntryId := none

/-- A piece of what a server writes: bytes that may depend on the identifier of a named request. -/
structure Utterance where
  subject : Option String
  bytes : Ident → List UInt8

inductive NetworkStep where
  | ask (name : String) (question : Question)
  /-- A server writes on the connection that carried the last request it speaks of, or else on its newest one. -/
  | reply (server : Nat) (utterances : List Utterance)
  /-- The bound of a named request's wait passes. -/
  | await (name : String)
  /-- A server closes its connections. -/
  | kill (server : Nat)
  /-- A server closes its connections and stops listening. -/
  | stop (server : Nat)
  | restart (server : Nat)
  | disconnect (connection : Nat)
  | close
  | waitForLive (millis : Nat)
  /-- Waits until exactly `count` connections are live and the others are disconnected. -/
  | awaitLive (count : Nat)
  /-- Fails the callback commands due at or before a second. -/
  | expire (second : Nat)
  | look

/-- What a step reports; what does not apply is absent. -/
structure NetworkNote where
  reached : Option Bool := none
  live : Option (Outcome Unit) := none
  expired : Option Nat := none

/-- A rehearsal of a client under way. -/
structure Network where
  /-- Whether servers can be reached. -/
  reachable : Bool
  servers : List ScriptedServer
  client : Client
  /-- The connections that were accepted, latest first: server, connection and session. -/
  accepted : List (Nat × Nat × SessionId) := []
  asked : List Asked := []
  /-- The requests that reached a server in the current step. -/
  received : List (Nat × Request) := []
  /-- The named requests that were settled in the current step. -/
  settled : List (String × Outcome Settled) := []

namespace Network

def serverAddress (v : Nat) : Address := ⟨"127.0.0.1".toList, 20000 + v⟩

/-- A host entry of a rehearsal with so many servers: `@i` stands for the address of the server of index `i`. -/
def hostEntry (servers : Nat) (entry : String) : String :=
  match Text.trim entry.toList with
  | '@' :: digits =>
    match (String.ofList digits).toNat? with
    | some v => if v < servers then (serverAddress v).text else entry
    | none => entry
  | _ => entry

/-- The configuration of a rehearsal unless it says otherwise: no second attempt to connect within a minute. -/
def config (hosts : List String) : Config := { hosts, reconnectMillis := 60000, callbackWorkers := 2 }

/-- The server to which a connection leads. -/
def serverOf? (n : Network) (i : Nat) : Option Nat :=
  (n.client.connections[i]?).bind fun k => (List.range n.servers.length).find? fun v => serverAddress v = k.address

/-- The connections that lead to a server. -/
def connectionsTo (n : Network) (v : Nat) : List Nat :=
  (List.range n.client.connections.length).filter fun i => n.serverOf? i = some v

/-- What the supervisor of a connection is about. -/
def supervisor (n : Network) (i : Nat) : Supervisor := ((n.client.connections[i]?).map (·.supervisor)).getD .ended

/-- Takes a turn of a supervisor if it can be taken. -/
def turn (n : Network) (i : Nat) (t : Client.Turn) : Network :=
  match n.client.turn i t with
  | some client => { n with client }
  | none => n

/-- Ends the session that a supervisor reads, or its attempt to open one. -/
def hangUp (n : Network) (i : Nat) : Network := ((n.turn i .fail).turn i .stopReading).turn i .teardown

/-- A supervisor takes what comes in on a new stream and, if that opens a session, begins to read on it. -/
def welcome (n : Network) (v i : Nat) (arriving : Arriving) : Network :=
  let n := (n.turn i (.hear arriving)).turn i .goLive
  match n.supervisor i with
  | .checking s =>
    let n := n.turn i .check
    let n := { n with client := n.client.receive i [], accepted := (v, i, s) :: n.accepted }
    if arriving.ended then n.hangUp i else n
  | _ => n

/-- A supervisor attempts to open a session. The attempt is still under way when the server says nothing. -/
def attempt (n : Network) (i : Nat) : Outcome Unit × Network :=
  let n := n.turn i .attempt
  let server := (n.serverOf? i).bind fun v => (n.servers[v]?).map (v, ·)
  match n.reachable, server with
  | true, some (v, server) =>
    if server.listening then
      let n := n.turn i .introduce
      match n.supervisor i with
      | .handshaking id =>
        let greeting := server.greetings.headD Greeting.standard
        let server := { server with
          greetings := server.greetings.drop 1, openings := server.openings ++ [⟨id, n.client.clientId⟩] }
        let n := { n with servers := n.servers.set v server }
        let arriving : Arriving := ⟨greeting.bytes id, greeting.ended⟩
        let outcome := (arriving.opening id).map fun _ => ()
        if arriving.bytes.length < frameSize && !arriving.ended then (outcome, n)
        else (outcome, n.welcome v i arriving)
      | _ => (.error .unconnected, n)
    else (.error (.io "connection refused"), n.turn i .fail)
  | _, _ => (.error (.io "connection refused"), n.turn i .fail)

/-- Frees the addresses of the servers that do not listen. -/
def freeAddresses (n : Network) : Network :=
  { n with servers := n.servers.map fun server => { server with addressTaken := server.listening } }

/-- Lets time pass, at most `patience` milliseconds: attempts without an answer fail, and connections that wait for
their next attempt make it. -/
def pass (n : Network) (patience : Nat) : Network :=
  (List.range n.client.connections.length).foldl (fun n i =>
    match n.supervisor i with
    | .handshaking _ => if n.client.config.handshakeMillis.toNat ≤ patience then n.turn i .fail else n
    | .waiting => if n.client.config.reconnectMillis.toNat ≤ patience then (n.attempt i).2 else n
    | _ => n) n.freeAddresses

/-- Lets time pass until something holds, at most `fuel` times. -/
def passUntil (done : Network → Bool) (patience : Nat) : Nat → Network → Network
  | 0, n => n
  | fuel + 1, n => if done n then n else passUntil done patience fuel (n.pass patience)

/-- The milliseconds for which a rehearsal waits. -/
def patience : Nat := 10000

/-- A client connects. A single connection is there, or has failed, when this is over; those of a replica set have
made their first attempt. -/
def start (reachable : Bool) (servers : List ScriptedServer) (config : Config) (replicated : Bool) (ids : IdSource) :
    Except (Failure × List ScriptedServer) Network :=
  match Client.start config replicated ids with
  | .error failure => .error (failure, servers)
  | .ok client =>
    let n : Network := { reachable, servers, client }
    if client.replicated then
      .ok ((List.range client.connections.length).foldl (fun n i => (n.attempt i).2) n)
    else
      match n.attempt 0 with
      | (.ok (), n) => .ok n
      | (.error failure, n) => .error (failure, n.servers)

/-- The number of connections with a live session. -/
def liveCount (n : Network) : Nat := (n.client.connections.filter (·.isLive)).length

/-- Whether exactly `count` connections are live and the others are disconnected. -/
def isSettledAt (count : Nat) (n : Network) : Bool :=
  n.liveCount == count && n.client.connections.all fun k => k.isLive || k.phase == .disconnected

def write (n : Network) (request : Request) (i : Nat) (s : SessionId) : Network :=
  { n with
    client := n.client.write i s 0
    received := n.received ++ ((n.serverOf? i).map (·, request)).toList }

def settle (n : Network) (name : String) (outcome : Outcome Settled) : Network :=
  { n with settled := Assoc.insert name outcome n.settled }

def send (n : Network) (name : String) (request : Request) (meaning : Reply → Outcome Settled) : Network :=
  let route := n.client.route?.map fun (i, s, _) => (i, s)
  let asked : Asked := { name, requestId := request.requestId, meaning, carrier := route }
  match n.client.send request, route with
  | (.ok awaited, client), some (i, s) =>
    { n with client, asked := { asked with awaited := some awaited } :: n.asked }.write request i s
  | (.ok _, client), none => { n with client, asked := asked :: n.asked }
  | (.error failure, client), _ => { n with client, asked := asked :: n.asked }.settle name (.error failure)

def post (n : Network) (name : String) (request : Request) : Network :=
  let route := n.client.route?.map fun (i, s, _) => (i, s)
  let asked : Asked := {
    name, requestId := request.requestId, meaning := fun reply => .ok (.reply reply), carrier := route }
  match n.client.post 0 request, route with
  | (.ok entry, client), some (i, s) =>
    { n with client, asked := { asked with entry := some entry } :: n.asked }.write request i s
  | (.ok _, client), none => { n with client, asked := asked :: n.asked }
  | (.error failure, client), _ => { n with client, asked := asked :: n.asked }.settle name (.error failure)

def draw {α : Type} (n : Network) (call : Call Unit α) : α × Network :=
  let (value, scene) := call.run (fun _ _ => (.error .unconnected, ())) ⟨(), n.client.ids, ()⟩
  (value, { n with client := { n.client with ids := scene.ids } })

def ask (n : Network) (name : String) : Question → Network
  | .send request => n.send name request fun reply => .ok (.reply reply)
  | .post request => n.post name request
  | .ping =>
    let (request, client) := n.client.pingRequest
    { n with client }.send name request fun reply => (Client.pingOutcome reply).map fun _ => .nothing
  | .lock database key =>
    let db := (database.map n.client.database).getD n.client.defaultDatabase
    let (request, n) := n.draw (db.defaultLock key >>= fun lock => lock.request .lock 0)
    n.send name (.lock request) fun reply =>
      (lockOutcome reply).map fun answer => .taken (answer.lockId == request.lockId)

/-- The connection on which a server writes: the one that carried the last request it speaks of, or else its newest
one. -/
def target? (n : Network) (v : Nat) (utterances : List Utterance) : Option (Nat × SessionId) :=
  match (utterances.filterMap (·.subject)).getLast? with
  | some name => (n.asked.find? (·.name == name)).bind (·.carrier)
  | none =>
    (n.accepted.find? fun (w, i, s) => w == v && n.supervisor i == .reading s).map (·.2)

/-- The bytes of a piece of what a server writes. -/
def bytesOf (n : Network) (u : Utterance) : List UInt8 :=
  u.bytes (((u.subject.bind fun name => n.asked.find? (·.name == name)).map (·.requestId)).getD Ident.zero)

/-- Stops a server. It waits for the connections that it closes, and while it does its address becomes free. -/
def stop (n : Network) (v : Nat) : Network :=
  let connections := n.connectionsTo v
  let waits := connections.any fun i => n.supervisor i matches .reading _
  let n := connections.foldl hangUp n
  { n with servers := n.servers.modify v fun server =>
      { server with listening := false, addressTaken := server.addressTaken && !waits } }

/-- Takes a step, before what reached the callers is collected. -/
def act (n : Network) : NetworkStep → NetworkNote × Network
  | .ask name question => ({}, (n.ask name question).freeAddresses)
  | .reply v utterances =>
    match n.target? v utterances with
    | some (i, s) =>
      if n.supervisor i = .reading s then
        ({}, { n with client := n.client.receive i (utterances.flatMap n.bytesOf) })
      else ({}, n)
    | none => ({}, n)
  | .await name =>
    match (n.asked.find? (·.name == name)).bind (·.awaited) with
    | some awaited =>
      ({}, { n with client := { n.client with board := n.client.board.timeOut awaited } }.freeAddresses)
    | none => ({}, n)
  | .kill v => ({}, (n.connectionsTo v).foldl hangUp n)
  | .stop v => ({}, n.stop v)
  | .restart v =>
    ({}, { n with servers := n.servers.modify v fun server =>
      { server with listening := true, addressTaken := true } })
  | .disconnect i => ({}, { n with client := n.client.disconnect i }.hangUp i)
  | .close =>
    let n := { n with client := n.client.close }
    ({}, (List.range n.client.connections.length).foldl (fun n i => (n.hangUp i).turn i .retire) n)
  | .waitForLive millis =>
    let attempts := min 64 (millis / n.client.config.reconnectMillis.toNat)
    let n := (passUntil (fun n => n.client.isConnected) millis attempts n).freeAddresses
    ({ live := some (if n.client.isConnected then .ok () else .error .unconnected) }, n)
  | .awaitLive count =>
    let n := passUntil (isSettledAt count) patience 64 n
    ({ reached := some (n.isSettledAt count) }, n)
  | .expire second =>
    let (expired, board) := n.client.board.expireDue second
    ({ expired := some expired }, { n with client := { n.client with board } })
  | .look => ({}, n)

/-- The named request that a delivery is for. -/
def subject? (n : Network) : Delivery → Option Asked
  | .callback e _ => n.asked.find? fun a => a.entry == some e
  | .waiter w _ | .abandoned w => n.asked.find? fun a => (a.awaited.map (·.waiter)) == some w

/-- Settles the named requests whose outcomes have been delivered. -/
def collect (n : Network) : Network :=
  let settle (n : Network) (d : Delivery) : Network :=
    match n.subject? d with
    | some a => n.settle a.name (d.outcome >>= a.meaning)
    | none => n
  let isOver (a : Asked) : Bool := n.client.board.delivered.any fun
    | .waiter w _ | .abandoned w => (a.awaited.map (·.waiter)) == some w
    | .callback _ _ => false
  let n' := n.client.board.delivered.foldl settle n
  { n' with
    client := { n'.client with board := { n'.client.board with delivered := [] } }
    asked := n'.asked.map fun a => if isOver a then { a with awaited := none } else a }

/-- Whether a step can be taken: no server begins to listen at an address that is taken. -/
def permits (n : Network) : NetworkStep → Bool
  | .restart v => !((n.servers[v]?).map (·.addressTaken)).getD false
  | _ => true

/-- Takes a step if it can be taken. -/
def step? (n : Network) (s : NetworkStep) : Option (NetworkNote × Network) :=
  if n.permits s then
    let (note, n) := { n with received := [], settled := [] }.act s
    some (note, n.collect)
  else none

def openings (n : Network) : List InitRequest := n.servers.flatMap (·.openings)

/-- Whether all opening requests carried the client's identity. -/
def sameClient (n : Network) : Bool := n.openings.all fun request => request.clientId == n.client.clientId

/-- Whether all opening requests carried identifiers of their own, drawn around the instant `now`. -/
def freshOpenings (n : Network) (now : Nat) : Bool :=
  let ids := n.openings.map (·.requestId)
  ids.all (·.isRecent now) && decide ids.Nodup

end Network

end LockService
