import LockService.Wire.Ident

/-!
# Drawing from several sides

Several threads draw identifiers from one counter at the same time. A thread reads the clock, then gets a random word,
then takes the counter. Each of these is a step of its own, after any time and with any steps of other threads before
it; taking the counter reads it and counts it up at once, and fixes the identifier.
-/

namespace LockService

/-- The random word in a drawn identifier, modulo 2⁴⁸. -/
def Ident.random (id : Ident) : Nat := ofBigEndian ((id.toList.drop 6).take 6)

/-- How far a draw under way has come. -/
inductive Draw where
  | begun
  /-- It has read the clock. -/
  | timed (millis : UInt64)
  /-- It has read the clock and has a random word. -/
  | ready (moment : Moment)

/-- A draw that is over: what it read, and the identifier that came of it. -/
structure Drawn where
  moment : Moment
  id : Ident

/-- A counter with the draws from it. -/
structure SharedSource where
  counter : UInt32
  underWay : List Draw := []
  /-- The draws that are over, in the order in which they took the counter. -/
  drawn : List Drawn := []

namespace SharedSource

/-- What can happen. -/
inductive Event where
  | begin
  /-- The `n`-th of the draws under way reads the clock. -/
  | readClock (n : Nat) (millis : UInt64)
  | getRandom (n : Nat) (random : UInt64)
  | takeCounter (n : Nat)

/-- Lets an event happen; one that cannot is skipped. The counter wraps at 2³². -/
def step (s : SharedSource) : Event → SharedSource
  | .begin => { s with underWay := s.underWay ++ [.begun] }
  | .readClock n millis =>
    match s.underWay[n]? with
    | some .begun => { s with underWay := s.underWay.set n (.timed millis) }
    | _ => s
  | .getRandom n random =>
    match s.underWay[n]? with
    | some (.timed millis) => { s with underWay := s.underWay.set n (.ready ⟨millis, random⟩) }
    | _ => s
  | .takeCounter n =>
    match s.underWay[n]? with
    | some (.ready moment) =>
      { counter := s.counter + 1, underWay := s.underWay.eraseIdx n
        drawn := s.drawn ++ [⟨moment, moment.ident s.counter⟩] }
    | _ => s

/-- Lets events happen one after the other. -/
def run (s : SharedSource) (events : List Event) : SharedSource := events.foldl step s

/-- A counter from which nothing has been drawn yet. -/
def fresh (seed : UInt32) : SharedSource := { counter := seed }

/-- What the draws that are over have read, in the order in which they took the counter. -/
def moments (s : SharedSource) (n : Nat) : Moment := ((s.drawn[n]?).map (·.moment)).getD default

end SharedSource

end LockService
