import LockService.Wire.Ident
import Mathlib.Data.List.Nodup
import Mathlib.Logic.Function.Iterate

/-!
# Identifiers drawn from one source

An identifier ends with the low 31 bits of the counter of its source. Up to 2³¹ identifiers drawn one after the other
are therefore distinct, whatever clock readings and random words come with them (`IdSource.nodup_take`).
-/

namespace LockService

theorem Moment.toNat_stamp_ident (moment : Moment) (counter : UInt32) :
    (moment.ident counter).stamp.toNat = counter.toNat % 2147483648 := by
  have hdrop : (moment.ident counter).toList.drop 12 = bigEndian 4 (counter &&& 0x7fffffff).toNat := by
    rw [Ident.toList, Moment.ident, List.drop_append_of_le_length (by simp)]
    simp
  have hlow : (counter &&& 0x7fffffff).toNat = counter.toNat % 2147483648 := by
    rw [UInt32.toNat_and]
    exact Nat.and_two_pow_sub_one_eq_mod counter.toNat 31
  have hlimit : wordLimit 4 = 4294967296 := by decide
  rw [Ident.stamp, hdrop, ofBigEndian_bigEndian, hlow, UInt32.toNat_ofNat', hlimit]
  omega

namespace IdSource

theorem take_add (m n : Nat) (source : IdSource) :
    source.take (m + n) = source.take m ++ (advance^[m] source).take n := by
  induction m generalizing source with
  | zero => rw [Nat.zero_add]; rfl
  | succ m ih =>
    rw [Nat.add_right_comm, take, ih, take, Function.iterate_succ_apply, List.cons_append]

theorem drawn_iterate (source : IdSource) (k : Nat) : (advance^[k] source).drawn = source.drawn + k := by
  induction k with
  | zero => rfl
  | succ k ih =>
    rw [Function.iterate_succ_apply', advance, ih, Nat.add_assoc]

/-- What comes after `k` draws is of the moment and the counter value of its own place. -/
theorem upcoming_iterate (source : IdSource) (k : Nat) :
    (advance^[k] source).upcoming = (source.moments (source.drawn + k)).ident (source.counter + UInt32.ofNat k) := by
  induction k generalizing source with
  | zero =>
    have hcounter : source.counter + UInt32.ofNat 0 = source.counter := UInt32.add_zero _
    rw [hcounter]
    rfl
  | succ k ih =>
    have hplace : source.drawn + 1 + k = source.drawn + (k + 1) := by omega
    have hcounter : source.counter + 1 + UInt32.ofNat k = source.counter + UInt32.ofNat (k + 1) := by
      rw [UInt32.ofNat_add, UInt32.add_assoc, UInt32.add_comm 1]
      rfl
    rw [Function.iterate_succ_apply, ih source.advance, ← hplace, ← hcounter]
    rfl

theorem getElem_take_eq_upcoming {count i : Nat} (source : IdSource) (hi : i < (source.take count).length) :
    (source.take count)[i] = (advance^[i] source).upcoming := by
  induction count generalizing source i with
  | zero => cases hi
  | succ count ih =>
    cases i with
    | zero => rfl
    | succ i => exact ih source.advance (Nat.lt_of_succ_lt_succ hi)

/-- The counter in the identifiers to come goes up by one from each to the next. -/
theorem toNat_stamp_getElem_take {count i : Nat} (source : IdSource) (hi : i < (source.take count).length) :
    (source.take count)[i].stamp.toNat = (source.counter.toNat + i) % 2147483648 := by
  rw [getElem_take_eq_upcoming, upcoming_iterate, Moment.toNat_stamp_ident, UInt32.toNat_add, UInt32.toNat_ofNat']
  omega

theorem nodup_take {count : Nat} (h : count ≤ 2147483648) (source : IdSource) : (source.take count).Nodup := by
  refine List.nodup_iff_getElem?_ne_getElem?.mpr fun i j hij hj => ?_
  have hi : i < (source.take count).length := Nat.lt_trans hij hj
  rw [List.getElem?_eq_getElem hi, List.getElem?_eq_getElem hj]
  intro he
  have hstamp := congrArg (fun id : Ident => id.stamp.toNat) (Option.some.inj he)
  simp only [toNat_stamp_getElem_take] at hstamp
  rw [length_take] at hj
  omega

/-- As long as the counter has not come round, the next identifier differs from all that have been drawn. -/
theorem upcoming_not_mem_take {k : Nat} (h : k < 2147483648) (source : IdSource) :
    (advance^[k] source).upcoming ∉ source.take k := by
  have hnodup := nodup_take (Nat.succ_le_of_lt h) source
  rw [Nat.succ_eq_add_one, take_add, List.nodup_append] at hnodup
  exact fun hm => hnodup.2.2 _ hm _ List.mem_cons_self rfl

end IdSource

end LockService
