import LockService.Wire.TimeWord

/-!
# Rate windows

Time is cut into windows of a period, and the slots of a rate limiter expire when their window closes. Windows of a
second or more end at multiples of their length; shorter ones start anew with every second, and the last one in a
second is cut off there. A window's length is between one millisecond and 65535 minutes, which is what an expire word
can carry.
-/

namespace LockService

/-- The longest window in milliseconds. -/
def longestWindow : Nat := 65535 * 60000

/-- The natural number nearest to a number, and the greater one if two are; 0 for a number below. -/
def roundToNat (x : Float) : Nat :=
  if 0.5 ≤ x - x.toUInt64.toFloat then x.toUInt64.toNat + 1 else x.toUInt64.toNat

/-- The length in milliseconds of the windows of a period in seconds. -/
def windowLength (period : Float) : Nat := max 1 (min longestWindow (roundToNat (period * 1000.0)))

/-- The end of a window and the expire word that counts down to it. -/
structure Window where
  boundary : Nat
  expire : TimeWord

/-- The fewest units of `unit` that cover `n`. -/
def ceilDiv (n unit : Nat) : Nat := (n + unit - 1) / unit

theorem le_ceilDiv_mul (n : Nat) {unit : Nat} (h : 0 < unit) : n ≤ ceilDiv n unit * unit := by
  have := Nat.lt_mul_div_succ (n + unit - 1) h
  rw [Nat.mul_comm, Nat.add_mul] at this
  unfold ceilDiv
  omega

theorem ceilDiv_mul_lt (n : Nat) {unit : Nat} (h : 0 < unit) : ceilDiv n unit * unit < n + unit := by
  have := Nat.div_mul_le_self (n + unit - 1) unit
  unfold ceilDiv
  omega

/-- An expire word of seconds, or of minutes when the seconds do not fit. -/
def secondsExpire (seconds : Nat) : TimeWord :=
  if seconds ≤ 65535 then TimeWord.pack (UInt16.ofNat seconds) 0
  else TimeWord.pack (UInt16.ofNat (min 65535 (ceilDiv seconds 60))) ExpireFlag.minutes

namespace Window

/-- The end of the window of length `length` in which the instant `now` lies. -/
def boundaryAt (length now : Nat) : Nat :=
  if length < 1000 then
    let second := now - now % 1000
    min (second + (now % 1000 / length + 1) * length) (second + 1000)
  else (now / length + 1) * length

/-- The window of length `length` in which the instant `now` lies. -/
def containing (length now : Nat) : Window :=
  let boundary := boundaryAt length now
  let expire :=
    if length < 1000 then TimeWord.pack (UInt16.ofNat (boundary - now)) ExpireFlag.millis
    else secondsExpire (ceilDiv (boundary - now) 1000)
  { boundary, expire }

def wholeExpire (length : Nat) : TimeWord :=
  if length < 1000 then TimeWord.pack (UInt16.ofNat length) ExpireFlag.millis
  else secondsExpire (ceilDiv length 1000)

end Window

def windowExpire (period : Float) (now : Nat) : Window := Window.containing (windowLength period) now

/-- The expire word that lasts a whole period. -/
def periodExpire (period : Float) : TimeWord := Window.wholeExpire (windowLength period)

theorem one_le_windowLength (period : Float) : 1 ≤ windowLength period := Nat.le_max_left _ _

theorem windowLength_le (period : Float) : windowLength period ≤ longestWindow := by
  unfold windowLength longestWindow
  omega

end LockService
