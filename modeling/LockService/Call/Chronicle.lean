import LockService.Call.Basic

/-!
# Interleaved calls with their books

Several callers use one handle at the same time, and sections of their calls interleave. Every call has an entry, which
tells what the call found when it started, which requests of it have been answered and how, and where it stands.
-/

namespace LockService

/-- The request that a call waits for, if it does. -/
def Stage.pending {σ α : Type} : Stage σ α → List LockRequest
  | .finished _ => []
  | .waiting request _ => [request]

namespace Chronicle

/-- A call with what has become of it. -/
structure Entry (κ σ α : Type) where
  call : κ
  /-- The handle's state when the call was started. -/
  found : σ
  /-- The requests that have been answered, with the answers. -/
  exchanges : List (LockRequest × Outcome Reply)
  stage : Stage σ α

namespace Entry

variable {κ σ α : Type}

/-- All requests of the call, in order. -/
def sent (entry : Entry κ σ α) : List LockRequest := entry.exchanges.map (·.1) ++ entry.stage.pending

/-- The answers to the requests of the call, in order. -/
def heard (entry : Entry κ σ α) : List (Outcome Reply) := entry.exchanges.map (·.2)

end Entry

/-- A section of a call that is about to run: the place of the call among all, and its entry up to here. -/
structure Turn (κ σ α : Type) where
  place : Nat
  call : κ
  found : σ
  exchanges : List (LockRequest × Outcome Reply)
  rest : Call σ α

/-- The entry of the call after the section. -/
def Turn.entry {κ σ α : Type} (turn : Turn κ σ α) (s : σ) (ids : IdSource) : Entry κ σ α where
  call := turn.call
  found := turn.found
  exchanges := turn.exchanges
  stage := (turn.rest.advance s ids).1

end Chronicle

/-- A handle with the entries of the calls on it, in the order in which they were started. -/
structure Chronicle (κ σ α : Type) where
  state : σ
  ids : IdSource
  entries : List (Chronicle.Entry κ σ α) := []

namespace Chronicle

variable {κ σ α : Type} {perform : κ → Call σ α}

/-- What can happen next. -/
inductive Event (κ : Type) where
  | start (call : κ)
  /-- The request that the `n`-th call waits for is answered. -/
  | answer (n : Nat) (outcome : Outcome Reply)

/-- The section that an event runs; an answer for a call that does not wait is for nobody. -/
def turn? (perform : κ → Call σ α) (p : Chronicle κ σ α) : Event κ → Option (Turn κ σ α)
  | .start call => some ⟨p.entries.length, call, p.state, [], perform call⟩
  | .answer n outcome =>
    match p.entries[n]? with
    | some ⟨call, found, exchanges, .waiting request resume⟩ =>
      some ⟨n, call, found, exchanges ++ [(request, outcome)], resume outcome⟩
    | _ => none

/-- The entry of the call that goes on with an event, after it. -/
def played? (perform : κ → Call σ α) (p : Chronicle κ σ α) (event : Event κ) : Option (Entry κ σ α) :=
  (p.turn? perform event).map (·.entry p.state p.ids)

def play (p : Chronicle κ σ α) (turn : Turn κ σ α) : Chronicle κ σ α :=
  let (_, state, ids) := turn.rest.advance p.state p.ids
  { state, ids, entries := p.entries.take turn.place ++ turn.entry p.state p.ids :: p.entries.drop (turn.place + 1) }

/-- Lets an event happen. -/
def step (perform : κ → Call σ α) (p : Chronicle κ σ α) (event : Event κ) : Chronicle κ σ α :=
  match p.turn? perform event with
  | some turn => p.play turn
  | none => p

/-- Lets events happen one after the other. -/
def run (perform : κ → Call σ α) (p : Chronicle κ σ α) (events : List (Event κ)) : Chronicle κ σ α :=
  events.foldl (step perform) p

@[simp] theorem run_nil (p : Chronicle κ σ α) : p.run perform [] = p := rfl

@[simp] theorem run_cons (p : Chronicle κ σ α) (event : Event κ) (events : List (Event κ)) :
    p.run perform (event :: events) = (p.step perform event).run perform events := rfl

theorem run_concat (p : Chronicle κ σ α) (events : List (Event κ)) (event : Event κ) :
    p.run perform (events ++ [event]) = (p.run perform events).step perform event := by
  simp only [run, List.foldl_append, List.foldl_cons, List.foldl_nil]

end Chronicle

end LockService
