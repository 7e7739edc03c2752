import LockService.Pending.Assoc
import LockService.Time.Span
import LockService.Wire.Ident

/-!
# The timeout wheel

Callback commands wait in buckets, one for each second at which some of them are due. Within a bucket a command is
found by its request identifier. Buckets stand in order of their seconds, and one that runs empty is removed.

Seconds are natural numbers. Those that occur are below 2⁶⁴ - 1, so that a word of 64 bits holds each of them and the
next: that is so of every deadline of a wait that begins in the first 2⁶³ seconds, and it is asked of the seconds at
which the wheel is looked at (`due`, `later`).
-/

namespace LockService

/-- The number of a callback command, counted over a whole run. -/
abbrev EntryId := Nat

/-- The commands due at one second. -/
abbrev Bucket := List (Ident × EntryId)

/-- The buckets in order of their seconds. -/
abbrev Wheel := List (Nat × Bucket)

namespace Wheel

/-- The second at which a wait that starts in second `now` is over for certain: one full second past the wait rounded
up, so that it is never cut short. -/
def deadline (now : Nat) (wait : Span) : Nat := now + wait.ceilSeconds + 1

/-- The bucket of a second; it is empty when there is none. -/
def bucket (second : Nat) (wheel : Wheel) : Bucket := (Assoc.get? second wheel).getD []

/-- Parks a command at its deadline, in place of another one with the same identifier there. -/
def insert (second : Nat) (id : Ident) (entry : EntryId) : Wheel → Wheel
  | [] => [(second, [(id, entry)])]
  | (s, b) :: rest =>
    if second < s then (second, [(id, entry)]) :: (s, b) :: rest
    else if s = second then (s, Assoc.insert id entry b) :: rest
    else (s, b) :: insert second id entry rest

/-- Takes the command with an identifier out of a bucket. -/
def remove (second : Nat) (id : Ident) : Wheel → Wheel
  | [] => []
  | (s, b) :: rest =>
    if s = second then
      let b' := Assoc.erase id b
      if b'.isEmpty then rest else (s, b') :: rest
    else (s, b) :: remove second id rest

/-- The commands due at or before a second below 2⁶⁴ - 1, in order of their deadlines. -/
def due (second : Nat) (wheel : Wheel) : List EntryId :=
  (wheel.takeWhile fun (s, _) => s ≤ second).flatMap fun (_, b) => b.map (·.2)

/-- The wheel without the commands due at or before a second below 2⁶⁴ - 1. What it keeps begins with the second after
that one. -/
def later (second : Nat) (wheel : Wheel) : Wheel := wheel.dropWhile fun (s, _) => s ≤ second

/-- The number of parked commands. -/
def size (wheel : Wheel) : Nat := (wheel.flatMap fun (_, b) => b).length

end Wheel

end LockService
