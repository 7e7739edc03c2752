import LockService.Pending.Switchboard

/-!
# Races for callbacks

The answer to a callback command, the timeout wheel, the end of its session and a refused registration may all reach
for its callback at the same time. In a race each event is a single atomic step of one of them: an operation begins,
or one that is under way does its next thing, whatever the others have done in between.
-/

namespace LockService

/-- An operation under way, by what it has to do next. -/
inductive Errand where
  /-- Enter a parked command into its table. -/
  | enrol (entry : EntryId)
  /-- Wake a caller who awaits an outcome. -/
  | wake (waiter : WaiterId) (outcome : Outcome Reply)
  /-- Go on with the callback of a command. -/
  | task (task : Task)

namespace Errand

/-- Gives a pending request its outcome, step by step. -/
def resolving (outcome : Outcome Reply) : Pending → Errand
  | .waiter w => wake w outcome
  | .entry e => task (.complete e outcome)

/-- Does the next thing. A registration that is refused goes on with the news that the connection is closed. -/
def step (b : Switchboard) : Errand → Option Errand × Switchboard
  | enrol e =>
    match b.entries[e]? with
    | some entry =>
      match b.register entry.table entry.requestId (.entry e) with
      | (true, b) => (none, b)
      | (false, b) => (some (resolving (.error .connectionClosed) (.entry e)), b)
    | none => (none, b)
  | wake w outcome => (none, b.deliver (.waiter w outcome))
  | task t => ((t.step b).1.map task, (t.step b).2)

end Errand

/-- A switchboard with the operations under way on it. -/
structure Race where
  board : Switchboard := {}
  underway : List Errand := []

namespace Race

/-- What can happen in a race. -/
inductive Event where
  /-- A session begins, with a table of its own. -/
  | openTable
  /-- A callback command is parked in second `now`; it has still to be entered into its table. -/
  | defer (now : Nat) (id : Ident) (wait : Span) (table : TableId)
  /-- A reply comes in on the session of a table and takes what it answers out of it. -/
  | receive (table : TableId) (reply : Reply)
  /-- Everything due at or before a second comes off the wheel. -/
  | popDue (second : Nat)
  /-- The table of a session is closed and emptied. -/
  | drain (table : TableId)
  /-- The `n`-th operation under way does its next thing. -/
  | advance (n : Nat)

def Event.requestId? : Event → Option Ident
  | defer _ id _ _ => some id
  | _ => none

/-- Lets an event happen. A command for a table that does not exist is not parked. -/
def step (p : Race) : Event → Race
  | .openTable => { p with board := p.board.newTable.2 }
  | .defer now id wait t =>
    if t < p.board.tables.length then
      let (e, board) := p.board.defer now id wait t
      { board, underway := p.underway ++ [.enrol e] }
    else p
  | .receive t reply =>
    let (pending, board) := p.board.take t reply.requestId
    { board, underway := p.underway ++ (pending.map (Errand.resolving (.ok reply))).toList }
  | .popDue second =>
    { board := { p.board with wheel := p.board.wheel.later second }
      underway := p.underway ++ (p.board.wheel.due second).map fun e => .task (.expire e) }
  | .drain t =>
    let (pending, board) := p.board.drain t
    { board, underway := p.underway ++ pending.map (Errand.resolving (.error .connectionClosed)) }
  | .advance n =>
    match p.underway[n]? with
    | some errand =>
      let (next, board) := errand.step p.board
      { board, underway := p.underway.eraseIdx n ++ next.toList }
    | none => p

/-- Lets events happen one after the other. -/
def run (p : Race) (events : List Event) : Race := events.foldl step p

@[simp] theorem run_nil (p : Race) : p.run [] = p := rfl

@[simp] theorem run_cons (p : Race) (e : Event) (events : List Event) :
    p.run (e :: events) = (p.step e).run events := rfl

theorem run_append (p : Race) (first second : List Event) :
    p.run (first ++ second) = (p.run first).run second := List.foldl_append

end Race

end LockService
