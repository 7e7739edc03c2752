import LockService.Client.Connection
import LockService.Client.LiveSet
import LockService.Config.Basic
import LockService.Pending.Switchboard
import LockService.Primitive.Lock

/-!
# Clients

A client uses one connection, or routes its requests through a replica set: to the first replica that is live. Its
connections share the switchboard, the source of identifiers and the identity that they present to the servers. Which
host entries become connections is decided when the client starts (`Client.start`).
-/

namespace LockService

/-- A client of the lock service. -/
structure Client where
  config : Config
  /-- The identity presented to every server. -/
  clientId : Ident
  /-- Whether requests are routed through a replica set. -/
  replicated : Bool
  connections : List Connection
  live : LiveSet := []
  board : Switchboard := {}
  ids : IdSource

namespace Client

/-- A client of a valid configuration. One host makes a single connection unless a replica set is asked for; of the
hosts of a replica set the malformed ones are skipped. -/
def start (config : Config) (replicated : Bool) (ids : IdSource) : Outcome Client :=
  let client (replicated : Bool) (addresses : List Address) : Client := {
    config, replicated, clientId := ids.upcoming, ids := ids.advance
    connections := addresses.map fun address => { address } }
  match config.fault? with
  | some fault => .error (.config fault)
  | none =>
    match replicated, config.hosts with
    | false, [host] =>
      match Address.parse? host with
      | some address => .ok (client false [address])
      | none => .error (.config (.malformedHost host))
    | _, hosts =>
      match hosts.filterMap Address.parse? with
      | [] => .error (.config .noValidHosts)
      | addresses => .ok (client true addresses)

/-- The connection that requests go to. -/
def primary? (c : Client) : Option Nat := if c.replicated then c.live.first? else some 0

def liveSession? (c : Client) (i : Nat) : Option (SessionId × Session) :=
  c.connections[i]?.bind Connection.liveSession?

/-- Whether requests find a live session. -/
def isConnected (c : Client) : Bool := (c.primary?.bind c.liveSession?).isSome

/-- The number of requests pending on the live session of a connection. -/
def pendingCount (c : Client) (i : Nat) : Nat :=
  match c.liveSession? i with
  | some (_, session) => (c.board.table session.table).entries.length
  | none => 0

def change (c : Client) (i : Nat) (f : Connection → Connection) : Client :=
  { c with connections := c.connections.modify i f }

def draw (c : Client) : Ident × Client := (c.ids.upcoming, { c with ids := c.ids.advance })

def database (c : Client) (id : UInt8) : Database :=
  { id, defaultTimeout := c.config.defaultTimeout, defaultExpire := c.config.defaultExpire }

/-- The database in use when none is named. -/
def defaultDatabase (c : Client) : Database := c.database c.config.database

end Client

end LockService
