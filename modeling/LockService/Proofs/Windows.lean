import LockService.Primitive.Window
import Mathlib.Order.Bounds.Basic

/-!
# Rate windows cut time

A window ends at the first instant after now at which a window of its length can end (`Window.isLeast_boundaryAt`).
All else about the ends of windows follows from that: instants of one window share its end, a new window begins where
one ends, and ends never go back (`Window.boundaries_cut_time`).
-/

namespace LockService.Window

variable {length now : Nat}

/-- Windows of a length can end at an instant: a whole number of windows after time began or, if they are shorter than a
second, after the second began. -/
def IsEnd (length instant : Nat) : Prop :=
  if length < 1000 then length ∣ instant % 1000 else length ∣ instant

/-- Short windows are counted within the second. -/
private theorem isEnd_of_short (h : length < 1000) (instant : Nat) :
    IsEnd length instant ↔ length ∣ instant % 1000 := by
  rw [IsEnd, if_pos h]

private theorem isEnd_of_long (h : 1000 ≤ length) (instant : Nat) : IsEnd length instant ↔ length ∣ instant := by
  rw [IsEnd, if_neg (Nat.not_lt.mpr h)]

/-! ### The end of a window is the first one to come -/

/-- A window ends after each instant that it contains. -/
theorem lt_boundaryAt (hl : 1 ≤ length) (now : Nat) : now < boundaryAt length now := by
  unfold boundaryAt
  split
  · have hless := Nat.lt_mul_div_succ (now % 1000) hl
    rw [Nat.mul_comm] at hless
    have hmod := Nat.mod_lt now (show 0 < 1000 by omega)
    have hle := Nat.mod_le now 1000
    dsimp only
    omega
  · have hless := Nat.lt_mul_div_succ now hl
    rw [Nat.mul_comm] at hless
    exact hless

/-- A window that contains an instant ends within one length of it. -/
theorem boundaryAt_le (length now : Nat) : boundaryAt length now ≤ now + length := by
  unfold boundaryAt
  split
  · have hdiv := Nat.div_mul_le_self (now % 1000) length
    have hle := Nat.mod_le now 1000
    rw [Nat.add_mul]
    dsimp only
    omega
  · have hdiv := Nat.div_mul_le_self now length
    rw [Nat.add_mul]
    omega

/-- The multiples of a number that come after another are at least the one that comes next. -/
theorem next_multiple_le {n m : Nat} (hn : n < m) (hm : length ∣ m) : (n / length + 1) * length ≤ m := by
  obtain ⟨k, rfl⟩ := hm
  rw [Nat.mul_comm length k] at hn ⊢
  exact Nat.mul_le_mul_right length (Nat.div_lt_of_lt_mul (by rwa [Nat.mul_comm]))

private theorem isEnd_boundaryAt (length now : Nat) : IsEnd length (boundaryAt length now) := by
  unfold IsEnd boundaryAt
  split
  · dsimp only
    rcases Nat.lt_or_ge ((now % 1000 / length + 1) * length) 1000 with hinside | hcut
    · rw [Nat.min_eq_left (by omega)]
      have hmod : (now - now % 1000 + (now % 1000 / length + 1) * length) % 1000 =
          (now % 1000 / length + 1) * length := by omega
      rw [hmod]
      exact Nat.dvd_mul_left ..
    · rw [Nat.min_eq_right (by omega)]
      have hmod : (now - now % 1000 + 1000) % 1000 = 0 := by omega
      rw [hmod]
      exact Nat.dvd_zero _
  · exact Nat.dvd_mul_left ..

/-- The window in which an instant lies ends at the first instant after it at which one can end. -/
theorem isLeast_boundaryAt (hl : 1 ≤ length) (now : Nat) :
    IsLeast {instant | now < instant ∧ IsEnd length instant} (boundaryAt length now) := by
  refine ⟨⟨lt_boundaryAt hl now, isEnd_boundaryAt length now⟩, ?_⟩
  rintro instant ⟨hnow, hend⟩
  rcases Nat.lt_or_ge length 1000 with hshort | hlong
  · rw [isEnd_of_short hshort] at hend
    rw [boundaryAt, if_pos hshort]
    -- An end in a later second comes after the cut at the end of this one.
    rcases Nat.lt_or_ge instant (now - now % 1000 + 1000) with hsame | hlater
    · have hnext := next_multiple_le (show now % 1000 < instant % 1000 by omega) hend
      dsimp only
      omega
    · exact Nat.le_trans (Nat.min_le_right ..) hlater
  · rw [isEnd_of_long hlong] at hend
    rw [boundaryAt, if_neg (Nat.not_lt.mpr hlong)]
    exact next_multiple_le hnow hend

/-! ### What follows for all ends -/

private theorem boundaryAt_eq (hl : 1 ≤ length) {instant : Nat} (hnow : now ≤ instant)
    (hinside : instant < boundaryAt length now) : boundaryAt length instant = boundaryAt length now := by
  have hleast := isLeast_boundaryAt hl now
  refine (isLeast_boundaryAt hl instant).unique ⟨⟨hinside, hleast.1.2⟩, ?_⟩
  rintro later ⟨hlater, hend⟩
  exact hleast.2 ⟨Nat.lt_of_le_of_lt hnow hlater, hend⟩

private theorem monotone_boundaryAt (hl : 1 ≤ length) : Monotone (boundaryAt length) := by
  intro now later hle
  have hlater := (isLeast_boundaryAt hl later).1
  exact (isLeast_boundaryAt hl now).2 ⟨Nat.lt_of_le_of_lt hle hlater.1, hlater.2⟩

/-- Windows shorter than a second end with it at the latest. -/
theorem boundaryAt_le_second (hl : 1 ≤ length) (hshort : length < 1000) (now : Nat) :
    boundaryAt length now ≤ (now / 1000 + 1) * 1000 := by
  refine (isLeast_boundaryAt hl now).2 ⟨by omega, ?_⟩
  rw [isEnd_of_short hshort, Nat.mul_mod_left]
  exact Nat.dvd_zero _

private theorem boundaryAt_eq_second_or (hl : 1 ≤ length) (hshort : length < 1000) (now : Nat) :
    boundaryAt length now = (now / 1000 + 1) * 1000 ∨
      ∃ count, boundaryAt length now = now / 1000 * 1000 + count * length := by
  have hle := boundaryAt_le_second hl hshort now
  have hlt := lt_boundaryAt hl now
  have hend := isEnd_boundaryAt length now
  rw [isEnd_of_short hshort] at hend
  rcases Nat.lt_or_eq_of_le hle with hinside | heq
  · obtain ⟨count, hcount⟩ := hend
    rw [Nat.mul_comm] at hcount
    exact .inr ⟨count, by omega⟩
  · exact .inl heq

/-! ### The law of windows -/

/-- A function that gives the end of the window in which an instant lies cuts time into windows of a length. -/
structure CutsTime (length : Nat) (boundary : Nat → Nat) : Prop where
  after : ∀ now, now < boundary now
  within : ∀ now, boundary now ≤ now + length
  /-- All instants of a window share its end. -/
  shared : ∀ now instant, now ≤ instant → instant < boundary now → boundary instant = boundary now
  /-- Where a window ends, another one begins. -/
  next : ∀ now, boundary now < boundary (boundary now)
  monotone : Monotone boundary
  /-- Windows of a second or more end at multiples of their length. -/
  multiple : 1000 ≤ length → ∀ now, length ∣ boundary now
  /-- Shorter windows do not reach beyond the second in which they lie. -/
  inSecond : length < 1000 → ∀ now, boundary now ≤ (now / 1000 + 1) * 1000
  /-- They end with it, or a whole number of windows after it began. -/
  aligned : length < 1000 → ∀ now,
    boundary now = (now / 1000 + 1) * 1000 ∨ ∃ count, boundary now = now / 1000 * 1000 + count * length

private theorem cutsTime_boundaryAt (hl : 1 ≤ length) : CutsTime length (boundaryAt length) where
  after := lt_boundaryAt hl
  within := boundaryAt_le length
  shared _ _ := boundaryAt_eq hl
  next _ := lt_boundaryAt hl _
  monotone := monotone_boundaryAt hl
  multiple hlong now := (isEnd_of_long hlong _).mp (isEnd_boundaryAt length now)
  inSecond hshort := boundaryAt_le_second hl hshort
  aligned hshort := boundaryAt_eq_second_or hl hshort

/-- Whatever number a period is, its windows are between one millisecond and 65535 minutes long, and they cut time. -/
theorem boundaries_cut_time (period : Float) :
    1 ≤ windowLength period ∧ windowLength period ≤ 65535 * 60000 ∧
      CutsTime (windowLength period) fun now => (windowExpire period now).boundary :=
  ⟨one_le_windowLength period, windowLength_le period, cutsTime_boundaryAt (one_le_windowLength period)⟩

/-- The last window of a second is cut off: of four windows of 300 milliseconds it lasts 100. -/
example : [7000000, 7000300, 7000899, 7000900, 7000999].map (boundaryAt 300) =
    [7000300, 7000600, 7000900, 7001000, 7001000] := by decide

end LockService.Window
