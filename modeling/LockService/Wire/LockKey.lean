import LockService.Bytes.Digest
import LockService.Wire.Ident

/-!
# Lock keys

Locks are named by arbitrary byte strings; the service sees them normalized to one block. A key of at most sixteen
bytes stands behind leading zeros, a longer one is replaced by its digest. Which digest that is makes no difference to
the shorter ones, so it is a parameter of the normalization (`normalizeKeyWith`).
-/

namespace LockService

/-- The block that stands for a key given as a byte string, when `digestOf` gives those of keys that are too long. -/
def normalizeKeyWith (digestOf : List UInt8 → Block) (key : List UInt8) : Block :=
  if h : key.length ≤ 16 then ⟨List.replicate (16 - key.length) 0 ++ key, by simp; omega⟩ else digestOf key

/-- The block that stands for a key; a key that is too long is replaced by its MD5 digest. -/
def normalizeKey (key : List UInt8) : Block := normalizeKeyWith digest key

@[ext] structure LockKey where
  block : Block
deriving DecidableEq, Inhabited

namespace LockKey

/-- The normalized form of a key. -/
def ofBytes (key : List UInt8) : LockKey := ⟨normalizeKey key⟩

/-- The sixteen bytes of a key. -/
def toList (key : LockKey) : List UInt8 := key.block.toList

@[simp] theorem length_toList (key : LockKey) : key.toList.length = 16 := key.block.length_toList

/-- The key's bytes as a lock identifier, the form in which event and tree marks use it. -/
def asIdent (key : LockKey) : Ident := ⟨key.block⟩

instance : Ord LockKey := ⟨fun a b => compare a.block b.block⟩

end LockKey

theorem normalizeKeyWith_of_length_le (digestOf : List UInt8 → Block) {key : List UInt8} (h : key.length ≤ 16) :
    (normalizeKeyWith digestOf key).toList = List.replicate (16 - key.length) 0 ++ key := by
  simp [normalizeKeyWith, h]

end LockService
