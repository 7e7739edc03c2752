import LockService.Pending.Switchboard

/-!
# Rehearsals of the switchboard

A desk gives names to callbacks and awaited requests and carries out single steps on one switchboard at second zero,
with one table in use at a time. After each step it reports what has reached the callers by name.
-/

namespace LockService

/-- What reached a caller of a given name. -/
inductive Arrival where
  | outcome (outcome : Outcome Reply)
  /-- An awaited request will get no outcome any more. -/
  | dropped

/-- A switchboard with names. -/
structure Desk where
  board : Switchboard
  table : TableId
  /-- The names under which callbacks report, by their entries. -/
  reporters : List (EntryId × String) := []
  /-- The callback command that each name stands for. -/
  entries : List (String × EntryId) := []
  /-- The awaited request that each name stands for. -/
  waiters : List (String × WaiterId) := []

inductive DeskStep where
  /-- Defers a callback command, and enters it into the table unless told otherwise. -/
  | defer (name : String) (id : Ident) (wait : Span) (register : Bool)
  /-- Enters an awaited request into the table. -/
  | await (name : String) (id : Ident)
  /-- Takes a request out of the table and gives it an outcome. -/
  | resolve (id : Ident) (outcome : Outcome Reply)
  /-- Takes a request out of the table and gives it up. -/
  | take (id : Ident)
  /-- Gives a callback command an outcome directly. -/
  | complete (name : String) (outcome : Outcome Reply)
  /-- Fails the commands due at or before a second. -/
  | expire (second : Nat)
  | deadlineFor (wait : Span)
  /-- Closes the table and gives everything in it one outcome. -/
  | drain (outcome : Outcome Reply)
  /-- Runs a callback on an outcome without deferring it. -/
  | dispatch (name : String) (outcome : Outcome Reply)
  /-- Stops waiting for an awaited request. -/
  | forget (name : String)
  /-- Gives up the table and starts a new one. -/
  | newTable

/-- What a step reports beside the arrivals; what does not apply is absent. -/
structure DeskNote where
  deadline : Option Nat := none
  requestId : Option Ident := none
  registered : Option Bool := none
  found : Option Bool := none
  expired : Option Nat := none
  drained : Option Nat := none
  forgot : Option Bool := none
  /-- Callbacks that ran without having been deferred. -/
  direct : List (String × Arrival) := []

namespace Desk

/-- A desk with an empty switchboard and one table. -/
def start : Desk :=
  let (table, board) := ({} : Switchboard).newTable
  { board, table }

/-- The number of requests in the table in use. -/
def tableSize (d : Desk) : Nat := (d.board.table d.table).entries.length

/-- Carries out a step at second zero. -/
def step (d : Desk) : DeskStep → DeskNote × Desk
  | .defer name id wait register =>
    let (e, registered, board) :=
      if register then
        let (e, registered, board) := d.board.deferRegistered 0 id wait d.table
        (e, some registered, board)
      else
        let (e, board) := d.board.defer 0 id wait d.table
        (e, none, board)
    ({ deadline := some (Wheel.deadline 0 wait), requestId := some id, registered },
      { d with
        board
        reporters := d.reporters ++ [(e, name)]
        entries := Assoc.insert name e d.entries })
  | .await name id =>
    let (w, board) := d.board.newWaiter
    let (registered, board) := board.register d.table id (.waiter w)
    let board := if registered then board else board.abandon (.waiter w)
    ({ registered := some registered }, { d with board, waiters := Assoc.insert name w d.waiters })
  | .resolve id outcome =>
    match d.board.take d.table id with
    | (some p, board) => ({ found := some true }, { d with board := board.resolve outcome p })
    | (none, board) => ({ found := some false }, { d with board })
  | .take id =>
    match d.board.take d.table id with
    | (some p, board) => ({ found := some true }, { d with board := board.abandon p })
    | (none, board) => ({ found := some false }, { d with board })
  | .complete name outcome =>
    match Assoc.get? name d.entries with
    | some e => ({}, { d with board := d.board.settle (.complete e outcome) })
    | none => ({}, d)
  | .expire second =>
    let (expired, board) := d.board.expireDue second
    ({ expired := some expired }, { d with board })
  | .deadlineFor wait => ({ deadline := some (Wheel.deadline 0 wait) }, d)
  | .drain outcome =>
    let (drained, board) := d.board.drainWith d.table outcome
    ({ drained := some drained }, { d with board })
  | .dispatch name outcome => ({ direct := [(name, .outcome outcome)] }, d)
  | .forget name =>
    ({ forgot := some (Assoc.get? name d.waiters).isSome }, { d with waiters := Assoc.erase name d.waiters })
  | .newTable =>
    let (table, board) := (d.board.dropTable d.table).newTable
    ({}, { d with board, table })

/-- The name that stands for an awaited request, while somebody still waits for it. -/
def waiterName? (d : Desk) (w : WaiterId) : Option String :=
  (d.waiters.find? fun entry => entry.2 = w).map (·.1)

/-- What a delivery means by name; an awaited request that nobody waits for any more means nothing. -/
def arrival? (d : Desk) : Delivery → Option (String × Arrival)
  | .callback e outcome => (Assoc.get? e d.reporters).map (·, .outcome outcome)
  | .waiter w outcome => (d.waiterName? w).map (·, .outcome outcome)
  | .abandoned w => (d.waiterName? w).map (·, .dropped)

/-- Collects what has reached the callers since the last time. Whoever got an outcome stops waiting. -/
def collect (d : Desk) : List (String × Arrival) × Desk :=
  let settled (w : WaiterId) : Bool := d.board.delivered.any fun
    | .waiter w' _ | .abandoned w' => w' = w
    | .callback _ _ => false
  (d.board.delivered.filterMap d.arrival?,
    { d with
      board := { d.board with delivered := [] }
      waiters := d.waiters.filter fun entry => !settled entry.2 })

/-- The names of the callback commands whose callback has been taken. -/
def finished (d : Desk) : List String :=
  (d.entries.filter fun (_, e) => (d.board.entries[e]?.map (!·.armed)).getD false).map (·.1)

end Desk

end LockService
