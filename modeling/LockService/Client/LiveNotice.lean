import LockService.Client.Interplay

/-!
# Notices to the live set

A connection of a replica set gives notice when it has gone live, with the type that its server announced, and when its
session has been torn down. The notices may come in any order and more than once; the live set is what they have made
of it so far.
-/

namespace LockService

/-- What a connection tells its replica set. -/
inductive Notice where
  | live (index : Nat) (initType : UInt8)
  | closed (index : Nat)
deriving DecidableEq

namespace Notice

/-- The connection that a notice is about. -/
def index : Notice → Nat
  | live i _ => i
  | closed i => i

/-- The last of the notices about a connection. -/
def last? (notices : List Notice) (i : Nat) : Option Notice := (notices.filter (·.index = i)).getLast?

/-- Whether a connection counts as live: the last notice says that it went live. -/
def isLive (notices : List Notice) (i : Nat) : Bool :=
  match last? notices i with
  | some (live _ _) => true
  | _ => false

end Notice

namespace LiveSet

def heed (live : LiveSet) : Notice → LiveSet
  | .live i initType => live.join i initType
  | .closed i => live.leave i

end LiveSet

namespace Client

def heed (c : Client) (notice : Notice) : Client := { c with live := c.live.heed notice }

/-- Takes notices into account one after the other. -/
def heedAll (c : Client) (notices : List Notice) : Client := notices.foldl heed c

def liveCount (c : Client) : Nat := c.live.length

/-- The number of well-formed hosts before a position of a host list. -/
def replicasBefore (hosts : List String) (position : Nat) : Nat :=
  ((hosts.take position).filterMap Address.parse?).length

/-- The number of the connection to the host at a position, when that host is well formed: malformed hosts take no
number. -/
def replicaAt? (hosts : List String) (position : Nat) : Option Nat :=
  (hosts[position]?.bind Address.parse?).map fun _ => replicasBefore hosts position

end Client

/-- The notice that a move of an operation on a connection gives. -/
def Move.notice? (c : Client) (i : Nat) : Move → Option Notice
  | .joinLive s => (c.connections[i]?.bind (·.sessions[s]?)).map fun session => .live i session.initType
  | .leaveLive => some (.closed i)
  | _ => none

namespace Interplay

/-- The notice that an event gives. -/
def notice? (p : Interplay) : Event → Option Notice
  | .move n =>
    match p.underway[n]? with
    | some (i, m :: _) => m.notice? p.client i
    | _ => none
  | _ => none

/-- The notices that the events of an interplay give, in order. -/
def notices (p : Interplay) : List Event → List Notice
  | [] => []
  | e :: events => (p.notice? e).toList ++ notices ((p.step e).getD p) events

end Interplay

end LockService
