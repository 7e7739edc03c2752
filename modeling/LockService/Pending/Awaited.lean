import LockService.Pending.Switchboard

/-!
# Awaited requests

A caller that awaits the answer to a request waits for a bounded time. When the bound is over, the request leaves its
table and the caller gets a timeout; an answer that comes later finds nobody. A caller whose place in the table was
taken by another request with the same identifier learns that the connection is closed.
-/

namespace LockService

/-- A request whose answer a caller awaits, and how long. -/
structure Awaited where
  waiter : WaiterId
  table : TableId
  requestId : Ident
  bound : Span
deriving DecidableEq

namespace Switchboard

/-- Enters an awaited request into a table; a closed table means that the connection is closed. -/
def await (b : Switchboard) (t : TableId) (id : Ident) (bound : Span) : Outcome Awaited × Switchboard :=
  let (w, b) := b.newWaiter
  match b.register t id (.waiter w) with
  | (true, b) => (.ok ⟨w, t, id, bound⟩, b)
  | (false, b) => (.error .connectionClosed, b)

/-- Ends the wait for a request whose bound is over. Another request that has taken its place in the table is given
up with it. -/
def timeOut (b : Switchboard) (a : Awaited) : Switchboard :=
  let b :=
    match b.take a.table a.requestId with
    | (some p, b) => if p = Pending.waiter a.waiter then b else b.abandon p
    | (none, b) => b
  b.deliver (.waiter a.waiter (.error (.timeout a.bound)))

end Switchboard

namespace Delivery

/-- The outcome that reaches a caller. One who will get none learns that the connection is closed. -/
def outcome : Delivery → Outcome Reply
  | callback _ outcome => outcome
  | waiter _ outcome => outcome
  | abandoned _ => .error .connectionClosed

/-- The caller whom a delivery reaches. -/
def recipient : Delivery → Pending
  | callback e _ => .entry e
  | waiter w _ | abandoned w => .waiter w

end Delivery

/-- The outcomes that have reached a caller, in order. -/
def Switchboard.outcomes (b : Switchboard) (p : Pending) : List (Outcome Reply) :=
  (b.delivered.filter (·.recipient = p)).map (·.outcome)

end LockService
