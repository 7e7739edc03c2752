import LockService.Primitive.Lock

/-!
# Semaphores

A number of slots on one key. Every acquire takes a slot under a fresh identifier; a release frees the oldest slot,
whoever took it. `releaseAll` frees slots until none is held.
-/

namespace LockService

/-- A number of permits is at least one. -/
def atLeastOne (permits : UInt16) : UInt16 := if permits = 0 then 1 else permits

/-- The number that a holder allows beside itself, and itself, are the permits. -/
theorem toNat_atLeastOne_sub_one (permits : UInt16) : (atLeastOne permits - 1).toNat + 1 = max permits.toNat 1 := by
  unfold atLeastOne
  split
  case isTrue hzero =>
    subst hzero
    decide
  case isFalse hpermits =>
    have hpositive : permits.toNat ≠ 0 := fun he => hpermits (UInt16.toNat_inj.mp he)
    have hone : (1 : UInt16) ≤ permits := UInt16.le_iff_toNat_le.mpr (Nat.pos_of_ne_zero hpositive)
    rw [UInt16.toNat_sub_of_le _ _ hone]
    show permits.toNat - 1 + 1 = _
    omega

structure Semaphore where
  dbId : UInt8
  key : LockKey
  permits : UInt16
  timeout : TimeWord
  expire : TimeWord

namespace Semaphore

variable {σ : Type}

def slotAs (s : Semaphore) (id : Ident) : Lock :=
  { dbId := s.dbId, key := s.key, id, timeout := s.timeout, expire := s.expire, count := s.permits - 1 }

def slot (s : Semaphore) : Call σ Lock := return s.slotAs (← Call.fresh)

/-- Takes a slot. -/
def acquire (s : Semaphore) : Attempt σ LockReply := do
  let lock ← Attempt.ofCall s.slot
  lock.acquire

/-- Frees the oldest slot. -/
def release (s : Semaphore) : Attempt σ LockReply := do
  let lock ← Attempt.ofCall s.slot
  lock.releaseHead

/-- Frees slots until none is held, and counts them on from `freed`; `none` when `fuel` releases did not suffice. -/
def releaseAllFrom (s : Semaphore) : Nat → Nat → Call σ (Option (Outcome Nat))
  | 0, _ => return none
  | fuel + 1, freed => do
    match ← s.release.outcome with
    | .ok _ => s.releaseAllFrom fuel (freed + 1)
    | .error failure => return some (if failure.isUnlocked then .ok freed else .error failure)

/-- Frees slots until none is held, with at most `fuel` releases, and counts them. -/
def releaseAll (s : Semaphore) (fuel : Nat) : Call σ (Option (Outcome Nat)) := s.releaseAllFrom fuel 0

/-- Takes a slot with a callback. -/
def postAcquire (s : Semaphore) : Call σ (Posting (Outcome LockReply)) := do
  let lock ← s.slot
  lock.postAcquire 0

/-- Frees the oldest slot with a callback. -/
def postRelease (s : Semaphore) : Call σ (Posting (Outcome LockReply)) := do
  let lock ← s.slot
  return Lock.post (← lock.releaseHeadRequest)

end Semaphore

/-- A semaphore in a database; without permits it has one. -/
def Database.semaphore (db : Database) (key : LockKey) (permits : UInt16) (timeout expire : TimeWord) : Semaphore :=
  { dbId := db.id, key, permits := atLeastOne permits, timeout, expire }

end LockService
