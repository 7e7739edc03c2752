import LockService.Wire.Message

/-!
# Fields of a frame

A field writes a value as a fixed number of bytes and reads it back from the front of a byte string. The two laws
of reading and writing are part of the type, and fields put one behind the other (`Field.before`) obey them again.
-/

namespace LockService

/-- How the values of a type are written in `width` bytes. -/
structure Field (α : Type) where
  width : Nat
  write : α → List UInt8
  read : List UInt8 → Option (α × List UInt8)
  length_write : ∀ a, (write a).length = width
  read_write : ∀ a rest, read (write a ++ rest) = some (a, rest)
  write_of_read : ∀ {bytes a rest}, read bytes = some (a, rest) → bytes = write a ++ rest
  read_isSome : ∀ {bytes}, width ≤ bytes.length → (read bytes).isSome

namespace Field

variable {α β : Type}

/-- The field that takes no bytes. -/
def empty : Field Unit where
  width := 0
  write _ := []
  read bytes := some ((), bytes)
  length_write _ := rfl
  read_write _ _ := rfl
  write_of_read := by simp
  read_isSome _ := rfl

def byte : Field UInt8 where
  width := 1
  write b := [b]
  read
    | [] => none
    | b :: rest => some (b, rest)
  length_write _ := rfl
  read_write _ _ := rfl
  write_of_read {bytes} := by cases bytes <;> simp
  read_isSome {bytes} := by cases bytes <;> simp

/-- A block of sixteen bytes. -/
def block : Field Block where
  width := 16
  write := Block.toList
  read := Block.split?
  length_write := Block.length_toList
  read_write := Block.split?_append
  write_of_read := Block.eq_append_of_split?
  read_isSome := Block.isSome_split?

/-- A number of `width` bytes, least significant first. -/
def number (width : Nat) : Field (Fin (wordLimit width)) where
  width
  write n := littleEndian width n
  read bytes :=
    if h : width ≤ bytes.length then
      some (⟨ofLittleEndian (bytes.take width), by
        have := ofLittleEndian_lt (bytes.take width)
        rwa [List.length_take, Nat.min_eq_left h] at this⟩, bytes.drop width)
    else none
  length_write n := length_littleEndian width n
  read_write n rest := by
    have hlen : (littleEndian width n).length = width := length_littleEndian width n
    have htake : (littleEndian width n ++ rest).take width = littleEndian width n := by
      rw [List.take_append_of_le_length (by omega), List.take_of_length_le (by omega)]
    have hdrop : (littleEndian width n ++ rest).drop width = rest := by
      rw [List.drop_append_of_le_length (by omega), List.drop_of_length_le (by omega), List.nil_append]
    have hwidth : width ≤ (littleEndian width n ++ rest).length := by simp
    simp only [hwidth, ↓reduceDIte, hdrop, Option.some.injEq, Prod.mk.injEq, and_true]
    apply Fin.ext
    simp [htake, ofLittleEndian_littleEndian, Nat.mod_eq_of_lt n.isLt]
  write_of_read {bytes n rest} h := by
    split at h
    · rename_i hwidth
      simp only [Option.some.injEq, Prod.mk.injEq] at h
      obtain ⟨rfl, rfl⟩ := h
      have := littleEndian_ofLittleEndian (bytes.take width)
      rw [List.length_take, Nat.min_eq_left hwidth] at this
      simp only [this, List.take_append_drop]
    · cases h
  read_isSome h := by simp [h]

/-- The field of a type whose values stand one to one for those of another field. -/
def via (f : Field α) (encode : β → α) (decode : α → β) (decode_encode : ∀ b, decode (encode b) = b)
    (encode_decode : ∀ a, encode (decode a) = a) : Field β where
  width := f.width
  write b := f.write (encode b)
  read bytes := (f.read bytes).map fun (a, rest) => (decode a, rest)
  length_write b := f.length_write (encode b)
  read_write b rest := by simp [f.read_write, decode_encode]
  write_of_read {bytes b rest} h := by
    simp only [Option.map_eq_some_iff, Prod.mk.injEq, Prod.exists] at h
    obtain ⟨a, r, ha, rfl, rfl⟩ := h
    rw [encode_decode]
    exact f.write_of_read ha
  read_isSome h := by simpa using f.read_isSome h

/-- A field followed by another. -/
def before (f : Field α) (g : Field β) : Field (α × β) where
  width := f.width + g.width
  write p := f.write p.1 ++ g.write p.2
  read bytes := (f.read bytes).bind fun (a, rest) => (g.read rest).map fun (b, rest) => ((a, b), rest)
  length_write p := by simp [f.length_write, g.length_write]
  read_write p rest := by simp [List.append_assoc, f.read_write, g.read_write]
  write_of_read {bytes p rest} h := by
    simp only [Option.bind_eq_some_iff, Option.map_eq_some_iff, Prod.exists] at h
    obtain ⟨a, r, ha, b, s, hb, heq⟩ := h
    cases heq
    rw [f.write_of_read ha, g.write_of_read hb, List.append_assoc]
  read_isSome {bytes} h := by
    obtain ⟨⟨a, rest⟩, ha⟩ := Option.isSome_iff_exists.mp (f.read_isSome (Nat.le_of_add_right_le h))
    have hlen : bytes.length = f.width + rest.length := by
      rw [f.write_of_read ha, List.length_append, f.length_write]
    have hrest : g.width ≤ rest.length := by omega
    simpa [ha] using g.read_isSome hrest

def ident : Field Ident := block.via Ident.block Ident.mk (fun _ => rfl) (fun _ => rfl)

def key : Field LockKey := block.via LockKey.block LockKey.mk (fun _ => rfl) (fun _ => rfl)

def word16 : Field UInt16 :=
  (number 2).via (fun w => ⟨w.toNat, w.toNat_lt⟩) (fun n => UInt16.ofNat n) (fun w => by simp)
    (fun n => by
      apply Fin.ext
      exact Nat.mod_eq_of_lt n.isLt)

/-- A word of 32 bits that packs a time. -/
def timeWord : Field TimeWord :=
  (number 4).via (fun w => ⟨w.bits.toNat, w.bits.toNat_lt⟩) (fun n => ⟨UInt32.ofNat n⟩) (fun w => by simp)
    (fun n => by
      apply Fin.ext
      exact Nat.mod_eq_of_lt n.isLt)

end Field

end LockService
