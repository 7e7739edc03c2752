import LockService.Pending.Awaited

/-!
# Traffic on a switchboard

A client opens sessions, posts callback commands and awaits requests on them; results come in, waits run out, the
wheel turns and sessions are torn down. Here each of these is done in one go, in whatever order they come.
-/

namespace LockService

/-- A switchboard with the awaited requests that were entered into a table and whose bounds are not over. -/
structure Traffic where
  board : Switchboard := {}
  awaited : List Awaited := []

namespace Traffic

/-- What a client does with its switchboard. -/
inductive Operation where
  /-- A session begins, with a table of its own. -/
  | openTable
  /-- A callback command is sent in second `now` on the session of a table. -/
  | post (now : Nat) (id : Ident) (wait : Span) (table : TableId)
  /-- A request is sent on the session of a table and its answer awaited. -/
  | await (id : Ident) (bound : Span) (table : TableId)
  /-- A result comes in on the session of a table. -/
  | receive (table : TableId) (reply : Reply)
  /-- The bound of the `n`-th awaited request is over. An answer may have come at that very moment. -/
  | timeOut (n : Nat)
  /-- The wheel fails what is due at or before a second. -/
  | expireDue (second : Nat)
  /-- The session of a table ends, and everything in it fails. -/
  | teardown (table : TableId)

def Operation.requestId? : Operation → Option Ident
  | post _ id _ _ => some id
  | await id _ _ => some id
  | _ => none

/-- Does an operation. Nothing is sent on a session that does not exist. -/
def step (p : Traffic) : Operation → Traffic
  | .openTable => { p with board := p.board.newTable.2 }
  | .post now id wait t =>
    if t < p.board.tables.length then { p with board := (p.board.deferRegistered now id wait t).2.2 } else p
  | .await id bound t =>
    if t < p.board.tables.length then
      match p.board.await t id bound with
      | (.ok a, board) => { board, awaited := p.awaited ++ [a] }
      | (.error _, board) => { p with board }
    else p
  | .receive t reply => { p with board := (p.board.receive t reply).2 }
  | .timeOut n =>
    match p.awaited[n]? with
    | some a => { board := p.board.timeOut a, awaited := p.awaited.eraseIdx n }
    | none => p
  | .expireDue second => { p with board := (p.board.expireDue second).2 }
  | .teardown t => { p with board := (p.board.drainWith t (.error .connectionClosed)).2 }

/-- Does operations one after the other. -/
def run (p : Traffic) (ops : List Operation) : Traffic := ops.foldl step p

@[simp] theorem run_nil (p : Traffic) : p.run [] = p := rfl

@[simp] theorem run_cons (p : Traffic) (op : Operation) (ops : List Operation) :
    p.run (op :: ops) = (p.step op).run ops := rfl

theorem run_append (p : Traffic) (first second : List Operation) :
    p.run (first ++ second) = (p.run first).run second := List.foldl_append

end Traffic

end LockService
