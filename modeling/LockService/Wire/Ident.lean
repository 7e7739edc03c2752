import LockService.Bytes.Block
import LockService.Bytes.Hex
import LockService.Bytes.Words

/-!
# Identifiers

A request is matched with its answer, and a holder with its lock, by a block of sixteen bytes. Fresh identifiers
come from an `IdSource`: six bytes of clock, six random bytes and a four-byte counter whose top bit is clear. The
counter alone keeps the identifiers of one source apart; clock and randomness keep sources apart.
-/

namespace LockService

/-- The identifier of a request or of a lock holder. -/
@[ext] structure Ident where
  block : Block
deriving DecidableEq, Inhabited

namespace Ident

/-- The all-zero identifier, which names no holder. -/
def zero : Ident := ⟨Block.zero⟩

/-- The sixteen bytes of an identifier. -/
def toList (id : Ident) : List UInt8 := id.block.toList

@[simp] theorem length_toList (id : Ident) : id.toList.length = 16 := id.block.length_toList

/-- The identifier of two numbers, each written least significant byte first. -/
def ofHalves (first second : UInt64) : Ident :=
  ⟨⟨littleEndian 8 first.toNat ++ littleEndian 8 second.toNat, by simp⟩⟩

/-- The number in the first eight bytes. -/
def firstHalf (id : Ident) : UInt64 := UInt64.ofNat (ofLittleEndian (id.toList.take 8))

/-- The number in the last eight bytes. -/
def secondHalf (id : Ident) : UInt64 := UInt64.ofNat (ofLittleEndian (id.toList.drop 8))

/-- Identifiers are shown as 32 hexadecimal digits. -/
def text (id : Ident) : String := Hex.text id.toList

/-- The clock reading in a drawn identifier, in milliseconds modulo 2⁴⁸. -/
def clock (id : Ident) : Nat := ofBigEndian (id.toList.take 6)

/-- Whether an identifier carries a clock reading within a day of the instant `now`, as drawn identifiers do. -/
def isRecent (id : Ident) (now : Nat) : Bool :=
  id.clock ≤ now + 86400000 && now ≤ id.clock + 86400000

/-- The counter value in a drawn identifier. -/
def stamp (id : Ident) : UInt32 := UInt32.ofNat (ofBigEndian (id.toList.drop 12))

instance : Ord Ident := ⟨fun a b => compare a.block b.block⟩

theorem firstHalf_ofHalves (first second : UInt64) : (ofHalves first second).firstHalf = first := by
  have h : (littleEndian 8 first.toNat ++ littleEndian 8 second.toNat).take 8 = littleEndian 8 first.toNat := by
    rw [List.take_append_of_le_length (by simp), List.take_of_length_le (by simp)]
  have : first.toNat < wordLimit 8 := first.toNat_lt
  simp only [firstHalf, ofHalves, toList, h, ofLittleEndian_littleEndian]
  rw [Nat.mod_eq_of_lt this, UInt64.ofNat_toNat]

end Ident

/-- What the surroundings contribute to one fresh identifier: a clock reading in milliseconds and a random word. -/
structure Moment where
  millis : UInt64
  random : UInt64
deriving DecidableEq, Inhabited

/-- The identifier of a moment and a counter value: the low 48 bits of the clock, the low 48 bits of the random
word and the low 31 bits of the counter, most significant byte first. -/
def Moment.ident (moment : Moment) (counter : UInt32) : Ident :=
  ⟨⟨bigEndian 6 moment.millis.toNat ++ bigEndian 6 moment.random.toNat
      ++ bigEndian 4 (counter &&& 0x7fffffff).toNat, by simp⟩⟩

/-- A source of fresh identifiers: the value of its counter, the moments at which identifiers are drawn, and how
many have been drawn. -/
structure IdSource where
  counter : UInt32
  moments : Nat → Moment
  drawn : Nat

namespace IdSource

/-- A new source; the seed is brought below 2³¹. -/
def seeded (seed : UInt32) (moments : Nat → Moment) : IdSource := ⟨seed &&& 0x7fffffff, moments, 0⟩

/-- The identifier that comes next. -/
def upcoming (source : IdSource) : Ident := (source.moments source.drawn).ident source.counter

/-- The source after its next identifier has been drawn. The counter wraps at 2³². -/
def advance (source : IdSource) : IdSource := { source with counter := source.counter + 1, drawn := source.drawn + 1 }

/-- The next `count` identifiers in order. -/
def take : Nat → IdSource → List Ident
  | 0, _ => []
  | count + 1, source => source.upcoming :: take count source.advance

@[simp] theorem length_take (count : Nat) (source : IdSource) : (source.take count).length = count := by
  induction count generalizing source with
  | zero => rfl
  | succ count ih => simp [take, ih]

end IdSource

end LockService
