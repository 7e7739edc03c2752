import LockService.Wire.LockKey
import Mathlib.Data.List.Basic

/-!
# Keys that come to the same block

A key of at most sixteen bytes and its block differ in leading zeros only. A block is such a key itself and comes to
itself, and two short keys come to the same block just if they are equal without their leading zeros
(`short_keys_collide_by_zeros`). The digest that stands for longer keys may be any function to blocks.
-/

namespace LockService

/-! ### Leading zeros -/

/-- A byte string without its leading zeros. -/
def withoutZeros (bytes : List UInt8) : List UInt8 := bytes.dropWhile (· = 0)

/-- What is left of a byte string when some of its leading zeros, or none, are dropped. -/
def DropsZeros (bytes rest : List UInt8) : Prop := ∃ count, bytes = List.replicate count 0 ++ rest

private theorem withoutZeros_replicate_append (count : Nat) (bytes : List UInt8) :
    withoutZeros (List.replicate count 0 ++ bytes) = withoutZeros bytes := by
  induction count with
  | zero => rfl
  | succ count ih =>
    rw [List.replicate_succ, List.cons_append]
    exact ih

private theorem DropsZeros.withoutZeros_eq {bytes rest : List UInt8} (h : DropsZeros bytes rest) :
    withoutZeros bytes = withoutZeros rest := by
  obtain ⟨count, rfl⟩ := h
  exact withoutZeros_replicate_append count rest

private theorem DropsZeros.trans {bytes rest least : List UInt8} (h : DropsZeros bytes rest)
    (hrest : DropsZeros rest least) : DropsZeros bytes least := by
  obtain ⟨count, rfl⟩ := h
  obtain ⟨further, rfl⟩ := hrest
  exact ⟨count + further, by rw [List.replicate_add, List.append_assoc]⟩

private theorem dropsZeros_withoutZeros (bytes : List UInt8) : DropsZeros bytes (withoutZeros bytes) := by
  induction bytes with
  | nil => exact ⟨0, rfl⟩
  | cons byte bytes ih =>
    by_cases hzero : byte = 0
    · obtain ⟨count, hcount⟩ := ih
      have hdrop : withoutZeros (byte :: bytes) = withoutZeros bytes := by simp [withoutZeros, hzero]
      refine ⟨count + 1, ?_⟩
      rw [hdrop, List.replicate_succ, List.cons_append, ← hcount, hzero]
    · have hkeep : withoutZeros (byte :: bytes) = byte :: bytes := by simp [withoutZeros, hzero]
      exact ⟨0, by rw [hkeep]; rfl⟩

/-! ### Blocks of short keys -/

section Normalization

variable (digestOf : List UInt8 → Block) {key a b : List UInt8} {block : Block}

private theorem dropsZeros_normalizeKeyWith (h : key.length ≤ 16) :
    DropsZeros (normalizeKeyWith digestOf key).toList key :=
  ⟨16 - key.length, normalizeKeyWith_of_length_le digestOf h⟩

/-- The zeros that a block has in front of a key are as many as the key needs. -/
private theorem normalizeKeyWith_of_dropsZeros (h : DropsZeros block.toList key) :
    key.length ≤ 16 ∧ normalizeKeyWith digestOf key = block := by
  obtain ⟨count, hblock⟩ := h
  have hlength : count + key.length = 16 := by
    have hbytes := block.length_toList
    rwa [hblock, List.length_append, List.length_replicate] at hbytes
  have hcount : 16 - key.length = count := by omega
  have hshort : key.length ≤ 16 := by omega
  refine ⟨hshort, Block.ext ?_⟩
  rw [normalizeKeyWith_of_length_le digestOf hshort, hcount, hblock]

/-- The keys that come to a block are what is left of it when leading zeros are dropped. -/
theorem normalizeKeyWith_eq_iff_dropsZeros :
    key.length ≤ 16 ∧ normalizeKeyWith digestOf key = block ↔ DropsZeros block.toList key := by
  constructor
  · rintro ⟨hshort, rfl⟩
    exact dropsZeros_normalizeKeyWith digestOf hshort
  · exact normalizeKeyWith_of_dropsZeros digestOf

/-- A block comes to itself. -/
theorem normalizeKeyWith_toList (block : Block) : normalizeKeyWith digestOf block.toList = block :=
  (normalizeKeyWith_of_dropsZeros digestOf ⟨0, rfl⟩).2

private theorem normalizeKeyWith_withoutZeros (h : key.length ≤ 16) :
    normalizeKeyWith digestOf (withoutZeros key) = normalizeKeyWith digestOf key :=
  (normalizeKeyWith_of_dropsZeros digestOf
    ((dropsZeros_normalizeKeyWith digestOf h).trans (dropsZeros_withoutZeros key))).2

/-- Two short keys come to the same block just if they are equal without their leading zeros. -/
theorem normalizeKeyWith_eq_iff (ha : a.length ≤ 16) (hb : b.length ≤ 16) :
    normalizeKeyWith digestOf a = normalizeKeyWith digestOf b ↔ withoutZeros a = withoutZeros b := by
  constructor
  · intro he
    have hblock := (dropsZeros_normalizeKeyWith digestOf ha).withoutZeros_eq
    rw [← hblock, he, (dropsZeros_normalizeKeyWith digestOf hb).withoutZeros_eq]
  · intro he
    rw [← normalizeKeyWith_withoutZeros digestOf ha, he, normalizeKeyWith_withoutZeros digestOf hb]

end Normalization

/-- Whatever digest stands for longer keys, the block of a key comes to itself. Keys of at most sixteen bytes come to
the same block just if they are equal without their leading zeros, and those that come to a block are what is left of it
when leading zeros are dropped. -/
theorem short_keys_collide_by_zeros (digestOf : List UInt8 → Block) (key a b : List UInt8) (block : Block) :
    normalizeKeyWith digestOf (normalizeKeyWith digestOf key).toList = normalizeKeyWith digestOf key ∧
      (a.length ≤ 16 → b.length ≤ 16 →
        (normalizeKeyWith digestOf a = normalizeKeyWith digestOf b ↔ withoutZeros a = withoutZeros b)) ∧
      (a.length ≤ 16 ∧ normalizeKeyWith digestOf a = block ↔ DropsZeros block.toList a) :=
  ⟨normalizeKeyWith_toList digestOf _, normalizeKeyWith_eq_iff digestOf, normalizeKeyWith_eq_iff_dropsZeros digestOf⟩

/-- A key that starts with a zero names the same lock as the key without it. -/
theorem padded_key_collides : [0, 97].length ≤ 16 ∧ [97].length ≤ 16 ∧ normalizeKey [0, 97] = normalizeKey [97] :=
  ⟨by decide, by decide,
    ((short_keys_collide_by_zeros digest [] [0, 97] [97] Block.zero).2.1 (by decide) (by decide)).mpr rfl⟩

end LockService
