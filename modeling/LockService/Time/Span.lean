/-!
# Spans of time

A span is a whole number of nanoseconds. Its text names the largest unit of s, ms, µs and ns that is not zero, and
shows the rest as a decimal fraction without trailing zeros: `1.5µs`, `250ms`, `1.000000001s`.
-/

namespace LockService

/-- A span of time in nanoseconds. -/
@[ext] structure Span where
  nanos : Nat
deriving DecidableEq, Inhabited

namespace Span

def zero : Span := ⟨0⟩

def ofParts (seconds nanos : Nat) : Span := ⟨seconds * 1000000000 + nanos⟩

def ofSeconds (seconds : Nat) : Span := ofParts seconds 0

def ofMillis (millis : Nat) : Span := ⟨millis * 1000000⟩

instance : Add Span := ⟨fun a b => ⟨a.nanos + b.nanos⟩⟩

@[simp] theorem nanos_add (a b : Span) : (a + b).nanos = a.nanos + b.nanos := rfl

/-- The whole seconds that have passed when the span is over. -/
def floorSeconds (s : Span) : Nat := s.nanos / 1000000000

/-- The fewest whole seconds that cover the span. -/
def ceilSeconds (s : Span) : Nat := (s.nanos + 999999999) / 1000000000

/-- The part of a unit as decimal digits: `width` places, trailing zeros dropped, no point for nothing. -/
def fraction (width part : Nat) : String :=
  if part = 0 then ""
  else
    let digits := Nat.toDigits 10 part
    let places := List.replicate (width - digits.length) '0' ++ digits
    "." ++ String.ofList (places.reverse.dropWhile (· == '0')).reverse

/-- A span in the largest unit that is not zero. -/
def text (s : Span) : String :=
  if 1000000000 ≤ s.nanos then
    toString (s.nanos / 1000000000) ++ fraction 9 (s.nanos % 1000000000) ++ "s"
  else if 1000000 ≤ s.nanos then toString (s.nanos / 1000000) ++ fraction 6 (s.nanos % 1000000) ++ "ms"
  else if 1000 ≤ s.nanos then toString (s.nanos / 1000) ++ fraction 3 (s.nanos % 1000) ++ "µs"
  else toString s.nanos ++ "ns"

theorem nanos_le_ceilSeconds (s : Span) : s.nanos ≤ s.ceilSeconds * 1000000000 := by
  unfold ceilSeconds
  omega

theorem ceilSeconds_lt (s : Span) : s.ceilSeconds * 1000000000 < s.nanos + 1000000000 := by
  unfold ceilSeconds
  omega

end Span

end LockService
