import LockService.Client.Interplay

/-!
# Watching the live set

A connection joins the live set when it goes live and leaves it at the end of a teardown. Both may be overtaken: a
session may have been torn down by the time at which the connection joins with it, and another one may be in use when
the teardown of an older one makes the connection leave. A watch over a connection remembers whether its last move on
the live set was out of place in this sense.
-/

namespace LockService

namespace Move

/-- Whether a supervisor ends its operation with this move. -/
def isAssign : Move → Bool
  | assign _ => true
  | _ => false

end Move

namespace Interplay

/-- The moves that the `n`-th operation has still to make on a connection. -/
def movesOn (p : Interplay) (i n : Nat) : List Move :=
  match p.underway[n]? with
  | some (j, moves) => if j = i then moves else []
  | none => []

/-- Whether an operation under way is going to make a connection leave the live set. -/
def isLeaving (p : Interplay) (i : Nat) : Bool :=
  p.underway.any fun (j, moves) => j = i && moves.contains .leaveLive

/-- Whether a connection is neither going live nor being torn down or closed. -/
def isCalm (p : Interplay) (i : Nat) : Bool := p.underway.all fun (j, moves) => j ≠ i || moves.all (·.isAssign)

/-- Whether joining the live set with a session is out of place: the session was torn down, and nothing is going to
take the connection off the live set again. -/
def joinsLate (p : Interplay) (i : Nat) (s : SessionId) : Bool :=
  ((p.client.connections[i]?.map (·.isTornDown s)).getD true) && !p.isLeaving i

/-- Whether leaving the live set is out of place: a live session is in use. -/
def leavesHastily (p : Interplay) (i : Nat) : Bool := (p.client.liveSession? i).isSome

structure Watch where
  play : Interplay
  /-- Whether the last move of the connection on the live set was out of place. -/
  amiss : Bool := false

namespace Watch

/-- What an event makes of the watch over a connection. -/
def judge (w : Watch) (i : Nat) : Event → Bool
  | .move n =>
    match w.play.movesOn i n with
    | .joinLive s :: _ => w.play.joinsLate i s
    | .leaveLive :: _ => w.play.leavesHastily i
    | _ => w.amiss
  | _ => w.amiss

/-- Lets an event happen under watch; one that cannot is skipped. -/
def step (i : Nat) (w : Watch) (e : Event) : Watch :=
  match w.play.step e with
  | some p => { play := p, amiss := w.judge i e }
  | none => w

/-- Lets events happen one after the other. -/
def run (i : Nat) (w : Watch) (events : List Event) : Watch := events.foldl (step i) w

@[simp] theorem run_nil (i : Nat) (w : Watch) : w.run i [] = w := rfl

@[simp] theorem run_cons (i : Nat) (w : Watch) (e : Event) (events : List Event) :
    w.run i (e :: events) = (w.step i e).run i events := rfl

/-- A watch does not change the interplay. -/
theorem play_run (i : Nat) (w : Watch) (events : List Event) : (w.run i events).play = w.play.run events := by
  induction events generalizing w with
  | nil => rfl
  | cons e events ih =>
    rw [run_cons, ih]
    show (w.step i e).play.run events = ((w.play.step e).getD w.play).run events
    unfold step
    cases w.play.step e <;> rfl

end Watch

/-- Whether the last move of a connection on the live set was out of place, when these events have happened to a
client on which nothing was under way. -/
def isAmiss (c : Client) (events : List Event) (i : Nat) : Bool := (Watch.run i { play := ⟨c, []⟩ } events).amiss

end Interplay

end LockService
