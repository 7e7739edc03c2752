/-!
# Blocks

A block is a string of exactly sixteen bytes. Request identifiers, lock identifiers and normalized lock keys are
all blocks, ordered as byte strings.
-/

namespace LockService

/-- Sixteen bytes. -/
@[ext] structure Block where
  toList : List UInt8
  length_toList : toList.length = 16
deriving DecidableEq

namespace Block

attribute [simp] length_toList

def zero : Block := ⟨List.replicate 16 0, List.length_replicate⟩

/-- The block with the given bytes, if there are sixteen of them. -/
def ofList? (bytes : List UInt8) : Option Block :=
  if h : bytes.length = 16 then some ⟨bytes, h⟩ else none

/-- The first sixteen bytes of a string as a block, and the bytes after them. -/
def split? (bytes : List UInt8) : Option (Block × List UInt8) :=
  (ofList? (bytes.take 16)).map (·, bytes.drop 16)

/-- Blocks are compared byte by byte from the left. -/
def compare (a b : Block) : Ordering := List.compareLex Ord.compare a.toList b.toList

instance : Inhabited Block := ⟨zero⟩

instance : Ord Block := ⟨compare⟩

@[simp] theorem ofList?_toList (b : Block) : ofList? b.toList = some b := by
  simp [ofList?]

theorem ofList?_eq_some_iff {bytes : List UInt8} {b : Block} : ofList? bytes = some b ↔ b.toList = bytes := by
  unfold ofList?
  split
  · simp only [Option.some.injEq]
    constructor
    · rintro rfl
      rfl
    · intro h
      exact Block.ext h.symm
  · rename_i h
    simp only [reduceCtorEq, false_iff]
    rintro rfl
    exact h b.length_toList

@[simp] theorem split?_append (b : Block) (rest : List UInt8) : split? (b.toList ++ rest) = some (b, rest) := by
  simp [split?]

theorem eq_append_of_split? {bytes rest : List UInt8} {b : Block} (h : split? bytes = some (b, rest)) :
    bytes = b.toList ++ rest := by
  simp only [split?, Option.map_eq_some_iff, Prod.mk.injEq] at h
  obtain ⟨c, hc, rfl, rfl⟩ := h
  rw [ofList?_eq_some_iff.mp hc, List.take_append_drop]

theorem isSome_split? {bytes : List UInt8} (h : 16 ≤ bytes.length) : (split? bytes).isSome := by
  have : (bytes.take 16).length = 16 := List.length_take_of_le h
  simp [split?, ofList?, this]

end Block

end LockService
