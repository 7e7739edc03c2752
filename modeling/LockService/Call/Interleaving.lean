import LockService.Call.Basic

/-!
# Interleaved calls

Several callers may use one handle at the same time. A call that has sent its request waits for the outcome while
others look at and change the handle's state, so that what a call finds after its request may differ from what it left
before. An interleaving is a sequence of events, each of which runs one section of one call: the first one when the
call starts, a further one when a request gets its outcome.
-/

namespace LockService

/-- A request under way and how its call goes on. -/
structure UnderWay (σ α : Type) where
  request : LockRequest
  resume : Outcome Reply → Call σ α

/-- A handle with the calls on it. -/
structure Interleaving (σ α : Type) where
  state : σ
  ids : IdSource
  /-- The requests without an outcome, in the order in which they were sent. -/
  underWay : List (UnderWay σ α) := []
  /-- All requests, in order. -/
  sent : List LockRequest := []
  /-- The values of the calls that are over, in order. -/
  finished : List α := []

namespace Interleaving

variable {σ α : Type}

/-- What can happen next. -/
inductive Event (σ α : Type) where
  | start (call : Call σ α)
  /-- The `n`-th of the requests under way gets its outcome. -/
  | settle (n : Nat) (outcome : Outcome Reply)

def runSection (p : Interleaving σ α) (call : Call σ α) : Interleaving σ α :=
  match call.advance p.state p.ids with
  | (.finished value, state, ids) => { p with state, ids, finished := p.finished ++ [value] }
  | (.waiting request resume, state, ids) =>
    { p with state, ids, underWay := p.underWay ++ [⟨request, resume⟩], sent := p.sent ++ [request] }

/-- Lets an event happen; an outcome for a request that is not under way is for nobody. -/
def step (p : Interleaving σ α) : Event σ α → Interleaving σ α
  | .start call => p.runSection call
  | .settle n outcome =>
    match p.underWay[n]? with
    | some u => { p with underWay := p.underWay.eraseIdx n }.runSection (u.resume outcome)
    | none => p

/-- Lets events happen one after the other. -/
def run (p : Interleaving σ α) (events : List (Event σ α)) : Interleaving σ α := events.foldl step p

@[simp] theorem run_nil (p : Interleaving σ α) : p.run [] = p := rfl

@[simp] theorem run_cons (p : Interleaving σ α) (e : Event σ α) (events : List (Event σ α)) :
    p.run (e :: events) = (p.step e).run events := rfl

theorem run_append (p : Interleaving σ α) (first second : List (Event σ α)) :
    p.run (first ++ second) = (p.run first).run second := List.foldl_append

end Interleaving

namespace Posting

variable {σ τ α : Type}

/-- A call that posts a request, with the callback on its outcome as a further section. -/
def followed (call : Call σ (Posting α)) : Call σ α := do
  let posting ← call
  return posting.deliver (← Call.request posting.request)

end Posting

/-- What holds of all things that happen can be checked one position after the other. -/
theorem forall_of_positions {α : Type} {P : List α → α → Prop} {events : List α}
    (hP : ∀ k (hk : k < events.length), P (events.take k) events[k]) :
    ∀ before event, before ++ [event] <+: events → P before event := by
  rintro before event ⟨after, rfl⟩
  have := hP before.length (by simp)
  simpa using this

end LockService
