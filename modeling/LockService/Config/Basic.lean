import LockService.Failure
import LockService.Toml.Parser

/-!
# Configuration of a client

A configuration lists the lock servers and says how long a client waits for what. Every setting has a default, so
that the empty document describes a client of a server on the same machine. A document is read in TOML; settings it
does not know are skipped, and one of the wrong type or out of range makes it unreadable. `Config.fault?` checks a
configuration that was read or built.
-/

namespace LockService

structure Config where
  /-- The lock servers; more than one make a replica set. -/
  hosts : List String := ["127.0.0.1:5658"]
  /-- The database in use when none is named. -/
  database : UInt8 := 0
  /-- How many milliseconds making a connection may take. -/
  connectMillis : UInt64 := 5000
  /-- How many milliseconds opening a session may take. -/
  handshakeMillis : UInt64 := 5000
  /-- How many milliseconds pass between two attempts to connect. -/
  reconnectMillis : UInt64 := 2000
  /-- How many milliseconds an answer may take beyond the request's own wait. -/
  graceMillis : UInt64 := 5000
  callbackWorkers : UInt64
  /-- The wait in seconds of a lock that names none. -/
  defaultTimeout : UInt16 := 5
  /-- The seconds after which a lock that names no other span expires. -/
  defaultExpire : UInt16 := 5
deriving DecidableEq

namespace Config

/-- The defaults on a machine with `processors` processors: one worker for each, but at least two. -/
def standard (processors : Nat) : Config := { callbackWorkers := UInt64.ofNat (max processors 2) }

/-- The defaults with one lock server. -/
def single (processors : Nat) (host : String) : Config := { standard processors with hosts := [host] }

/-- The defaults with the lock servers of a replica set. -/
def replicaSet (processors : Nat) (hosts : List String) : Config := { standard processors with hosts }

/-- What makes a configuration invalid, the first of several faults. -/
def fault? (c : Config) : Option ConfigFault :=
  if c.hosts.isEmpty then some .noHosts
  else if c.callbackWorkers = 0 then some .noWorkers
  else if c.reconnectMillis = 0 then some .noReconnectInterval
  else none

/-- How long making a connection may take. -/
def connectTimeout (c : Config) : Span := Span.ofMillis c.connectMillis.toNat

/-- How long opening a session may take. -/
def handshakeTimeout (c : Config) : Span := Span.ofMillis c.handshakeMillis.toNat

/-- How long a client waits between two attempts to connect. -/
def reconnectInterval (c : Config) : Span := Span.ofMillis c.reconnectMillis.toNat

/-- How long an answer may take beyond the request's own wait. -/
def responseGrace (c : Config) : Span := Span.ofMillis c.graceMillis.toNat

/-- A whole number below a limit under a name, or the default when the name is absent. -/
def number? (limit : Nat) (default : Nat) (name : String) (entries : Toml.Entries) : Option Nat :=
  match Assoc.get? name entries with
  | none => some default
  | some (.integer n) => if 0 ≤ n ∧ n < limit then some n.toNat else none
  | some _ => none

def number64? (default : UInt64) (name : String) (entries : Toml.Entries) : Option UInt64 :=
  (number? UInt64.size default.toNat name entries).map UInt64.ofNat

def number16? (default : UInt16) (name : String) (entries : Toml.Entries) : Option UInt16 :=
  (number? UInt16.size default.toNat name entries).map UInt16.ofNat

def text? : Toml.Value → Option String
  | .text s => some s
  | _ => none

def texts? (default : List String) (name : String) (entries : Toml.Entries) : Option (List String) :=
  match Assoc.get? name entries with
  | none => some default
  | some (.array items) => items.mapM text?
  | some _ => none

/-- The configuration that a document's entries describe over the given defaults. -/
def ofEntries? (d : Config) (entries : Toml.Entries) : Option Config := do
  some {
    hosts := ← texts? d.hosts "hosts" entries
    database := UInt8.ofNat (← number? UInt8.size d.database.toNat "database" entries)
    connectMillis := ← number64? d.connectMillis "connect_timeout_ms" entries
    handshakeMillis := ← number64? d.handshakeMillis "handshake_timeout_ms" entries
    reconnectMillis := ← number64? d.reconnectMillis "reconnect_interval_ms" entries
    graceMillis := ← number64? d.graceMillis "response_grace_ms" entries
    callbackWorkers := ← number64? d.callbackWorkers "callback_workers" entries
    defaultTimeout := ← number16? d.defaultTimeout "default_timeout" entries
    defaultExpire := ← number16? d.defaultExpire "default_expire" entries }

/-- The configuration in a document, if it is valid. -/
def parse (processors : Nat) (source : String) : Except ConfigFault Config :=
  match (Toml.document? source).bind (ofEntries? (standard processors)) with
  | none => .error .unreadable
  | some c =>
    match c.fault? with
    | some fault => .error fault
    | none => .ok c

/-- The configuration in the bytes of a file, which has to exist and to be valid UTF-8. -/
def load (processors : Nat) (content : Option ByteArray) : Except ConfigFault Config :=
  match content.bind String.fromUTF8? with
  | some source => parse processors source
  | none => .error .unreadable

end Config

end LockService
