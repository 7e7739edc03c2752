import LockService.Primitive.BucketUse
import LockService.Proofs.Windows
import Mathlib.Order.Basic

/-!
# Expire words last as long as they should

An expire word counts whole units. The word made for a stretch of a window carries just as many of them as are needed to
cover it, so that a slot lasts to the end of its window and less than one unit beyond (`TimeWord.Measures`). Windows are
kept short enough for the count to fit into the word, in minutes if not in seconds (`Window.expire_words_measure`).
-/

namespace LockService

/-! ### Counting units -/

private theorem ceilDiv_le_iff {n unit k : Nat} (hunit : 0 < unit) : ceilDiv n unit ≤ k ↔ n ≤ k * unit := by
  have hcover := le_ceilDiv_mul n hunit
  have htight := ceilDiv_mul_lt n hunit
  constructor
  · intro h
    exact Nat.le_trans hcover (Nat.mul_le_mul_right unit h)
  · intro h
    refine Nat.le_of_lt_succ (Nat.lt_of_mul_lt_mul_right (a := unit) ?_)
    rw [Nat.succ_mul]
    omega

/-- Counting in units of units comes to the same as counting in the larger units. -/
private theorem ceilDiv_ceilDiv (n : Nat) {a b : Nat} (ha : 0 < a) (hb : 0 < b) :
    ceilDiv (ceilDiv n a) b = ceilDiv n (a * b) := by
  refine eq_of_forall_ge_iff fun k => ?_
  rw [ceilDiv_le_iff hb, ceilDiv_le_iff ha, ceilDiv_le_iff (Nat.mul_pos ha hb), Nat.mul_assoc, Nat.mul_comm b]

private theorem ceilDiv_ne_zero {n unit : Nat} (hunit : 0 < unit) (hn : 1 ≤ n) : ceilDiv n unit ≠ 0 := by
  have hcover := le_ceilDiv_mul n hunit
  intro hzero
  rw [hzero, Nat.zero_mul] at hcover
  omega

private theorem ceilDiv_one (n : Nat) : ceilDiv n 1 = n := by
  rw [ceilDiv, Nat.div_one, Nat.add_sub_cancel]

private theorem toNat_ofNat_of_le {n : Nat} (h : n ≤ 65535) : (UInt16.ofNat n).toNat = n :=
  UInt16.toNat_ofNat_of_lt' (Nat.lt_succ_of_le h)

/-! ### The unit of a word -/

namespace TimeWord

/-- How many milliseconds each unit of an expire word's number stands for. -/
def unitMillis (word : TimeWord) : Nat :=
  if word.has ExpireFlag.millis then 1 else if word.has ExpireFlag.minutes then 60000 else 1000

private theorem holdMillis_eq (word : TimeWord) : word.holdMillis = word.value.toNat * word.unitMillis := by
  unfold holdMillis unitMillis
  split
  · rw [Nat.mul_one]
  · split <;> rfl

private theorem unitMillis_pos (word : TimeWord) : 0 < word.unitMillis := by
  unfold unitMillis
  split
  · exact Nat.one_pos
  · split <;> exact Nat.succ_pos _

/-- The flags of a packed word are its modifiers. -/
private theorem has_pack (value modifiers flags : UInt16) :
    (pack value modifiers).has flags = (modifiers &&& flags != 0) := by
  rw [has, modifiers_pack]

@[simp] theorem unitMillis_pack_millis (value : UInt16) : (pack value ExpireFlag.millis).unitMillis = 1 := by
  simp only [unitMillis, has_pack]
  decide

@[simp] theorem unitMillis_pack_minutes (value : UInt16) : (pack value ExpireFlag.minutes).unitMillis = 60000 := by
  simp only [unitMillis, has_pack]
  decide

@[simp] theorem unitMillis_pack_seconds (value : UInt16) : (pack value 0).unitMillis = 1000 := by
  simp only [unitMillis, has_pack]
  decide

/-- A word for a stretch of time in windows of a length. -/
structure Measures (word : TimeWord) (length span : Nat) : Prop where
  /-- The word has no modifier but the one that gives its unit. -/
  plain : word.modifiers = 0 ∨ word.modifiers = ExpireFlag.millis ∨ word.modifiers = ExpireFlag.minutes
  nonzero : word.value ≠ 0
  /-- Its number is the full count of units, of which nothing has been cut off. -/
  whole : word.value.toNat = ceilDiv span word.unitMillis
  covers : span ≤ word.holdMillis
  tight : word.holdMillis < span + word.unitMillis
  /-- In windows shorter than a second the word lasts exactly as long as asked for. -/
  exact : length < 1000 → word.holdMillis = span
  /-- Minutes are counted only where seconds are too many. -/
  finest : word.unitMillis = 60000 → 65535 * 1000 < span

/-- A word with the full count of its units lasts as long as it should. -/
private theorem measures_of_whole {word : TimeWord} {length span : Nat} (hspan : 1 ≤ span)
    (hplain : word.modifiers = 0 ∨ word.modifiers = ExpireFlag.millis ∨ word.modifiers = ExpireFlag.minutes)
    (hwhole : word.value.toNat = ceilDiv span word.unitMillis) (hshort : length < 1000 → word.unitMillis = 1)
    (hfinest : word.unitMillis = 60000 → 65535 * 1000 < span) : word.Measures length span where
  plain := hplain
  nonzero hzero := by
    rw [hzero] at hwhole
    exact ceilDiv_ne_zero word.unitMillis_pos hspan hwhole.symm
  whole := hwhole
  covers := by
    rw [holdMillis_eq, hwhole]
    exact le_ceilDiv_mul span word.unitMillis_pos
  tight := by
    rw [holdMillis_eq, hwhole]
    exact ceilDiv_mul_lt span word.unitMillis_pos
  exact h := by rw [holdMillis_eq, hwhole, hshort h, ceilDiv_one, Nat.mul_one]
  finest := hfinest

end TimeWord

/-! ### The words of windows -/

open TimeWord

/-- A word of seconds or minutes carries the full count of its units, up to the longest window. -/
theorem measures_secondsExpire {length span : Nat} (hlong : 1000 ≤ length) (hspan : 1 ≤ span)
    (hmax : span ≤ longestWindow) : (secondsExpire (ceilDiv span 1000)).Measures length span := by
  have hnotShort : ∀ unit, length < 1000 → unit = 1 := fun _ h => absurd h (Nat.not_lt.mpr hlong)
  unfold secondsExpire
  by_cases hfit : ceilDiv span 1000 ≤ 65535
  · rw [if_pos hfit]
    refine measures_of_whole hspan (.inl (modifiers_pack ..)) ?_ (hnotShort _) ?_
    · rw [value_pack, unitMillis_pack_seconds, toNat_ofNat_of_le hfit]
    · rw [unitMillis_pack_seconds]
      exact fun h => absurd h (by decide)
  · have hmany : 65535 * 1000 < span := by
      rw [ceilDiv_le_iff (by decide)] at hfit
      exact Nat.not_le.mp hfit
    have hnested : ceilDiv (ceilDiv span 1000) 60 = ceilDiv span 60000 := ceilDiv_ceilDiv span (by decide) (by decide)
    have hminutes : ceilDiv span 60000 ≤ 65535 := (ceilDiv_le_iff (by decide)).mpr hmax
    rw [if_neg hfit, hnested, Nat.min_eq_right hminutes]
    refine measures_of_whole hspan (.inr (.inr (modifiers_pack ..))) ?_ (hnotShort _) fun _ => hmany
    rw [value_pack, unitMillis_pack_minutes, toNat_ofNat_of_le hminutes]

private theorem measures_millis {length span : Nat} (hspan : 1 ≤ span) (hfit : span ≤ 65535) :
    (pack (UInt16.ofNat span) ExpireFlag.millis).Measures length span := by
  refine measures_of_whole hspan (.inr (.inl (modifiers_pack ..))) ?_ (fun _ => unitMillis_pack_millis _) ?_
  · rw [value_pack, unitMillis_pack_millis, toNat_ofNat_of_le hfit, ceilDiv_one]
  · rw [unitMillis_pack_millis]
    exact fun h => absurd h (by decide)

namespace Window

variable {length : Nat}

/-- The word of the window that contains an instant measures what is left of it. -/
theorem measures_containing (hl : 1 ≤ length) (hmax : length ≤ longestWindow) (now : Nat) :
    (containing length now).expire.Measures length (boundaryAt length now - now) := by
  have hlt := lt_boundaryAt hl now
  have hle := boundaryAt_le length now
  unfold containing
  dsimp only
  by_cases hshort : length < 1000
  · rw [if_pos hshort]
    exact measures_millis (by omega) (by omega)
  · rw [if_neg hshort]
    exact measures_secondsExpire (Nat.not_lt.mp hshort) (by omega) (by omega)

private theorem measures_wholeExpire (hl : 1 ≤ length) (hmax : length ≤ longestWindow) :
    (wholeExpire length).Measures length length := by
  unfold wholeExpire
  by_cases hshort : length < 1000
  · rw [if_pos hshort]
    exact measures_millis hl (by omega)
  · rw [if_neg hshort]
    exact measures_secondsExpire (Nat.not_lt.mp hshort) hl hmax

/-- Whatever number a period is and whenever it is looked at, the expire word of the window measures what is left of it,
and the expire word of the period measures a whole window. -/
theorem expire_words_measure (period : Float) (now : Nat) :
    (windowExpire period now).expire.Measures (windowLength period) ((windowExpire period now).boundary - now) ∧
      (periodExpire period).Measures (windowLength period) (windowLength period) :=
  ⟨measures_containing (one_le_windowLength period) (windowLength_le period) now,
    measures_wholeExpire (one_le_windowLength period) (windowLength_le period)⟩

/-- A window of 65535 seconds is counted in seconds, one a millisecond longer in minutes, and the longest just fits. -/
example : [65535000, 65535001, longestWindow].map wholeExpire =
    [pack 65535 0, pack 1093 ExpireFlag.minutes, pack 65535 ExpireFlag.minutes] := by decide

end Window

end LockService
