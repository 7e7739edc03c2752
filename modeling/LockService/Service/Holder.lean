import LockService.Service.Basic

/-!
# A service that keeps one holder of a key

`KeepsHolder` is what callers of events rely on. The holder of a key gives it back, and nobody gives back a free key. A
request that may update the holder takes a free key and leaves a held one to its holder. A request that expires at once
and does not wait only looks: it succeeds if the key is free or, in reverse, if it is held. `singleHolder` is a service
of this kind for one key.
-/

namespace LockService

/-- A request for one holder of the key of a database, with this kind and flag byte. -/
structure LockRequest.Asks (r : LockRequest) (dbId : UInt8) (key : LockKey) (kind : CommandKind) (flag : UInt8) :
    Prop where
  kind : r.kind = kind
  flag : r.flag = flag
  dbId : r.dbId = dbId
  lockKey : r.lockKey = key
  count : r.count = 0
  reentry : r.reentry = 0

theorem Lock.asks_requestWith {lock : Lock} (hc : lock.count = 0) (hr : lock.reentry = 0) (kind : CommandKind)
    (flag : UInt8) (requestId : Ident) :
    (lock.requestWith kind flag requestId).Asks lock.dbId lock.key kind flag := ⟨rfl, rfl, rfl, rfl, hc, hr⟩

/-- The answer to a look at a key says whether it is as wanted. -/
def Outcome.Tells (outcome : Outcome Reply) (wanted : Bool) : Prop :=
  if wanted then outcome.HasCode ResultCode.success
  else outcome.HasCode ResultCode.locked ∨ outcome.HasCode ResultCode.timeout

/-- A service that keeps at most one holder of a key; `holder` reads it off the service's state. -/
structure KeepsHolder {τ : Type} (respond : Responder τ) (dbId : UInt8) (key : LockKey) (holder : τ → Option Ident) :
    Prop where
  unlock_held : ∀ s r, r.Asks dbId key .unlock 0 → holder s = some r.lockId →
    (respond s r).1.HasCode ResultCode.success ∧ holder (respond s r).2 = none
  unlock_free : ∀ s r, r.Asks dbId key .unlock 0 → holder s = none →
    (respond s r).1.HasCode ResultCode.unlocked ∧ holder (respond s r).2 = none
  update_free : ∀ s r, r.Asks dbId key .lock LockFlag.update → holder s = none →
    (respond s r).1.HasCode ResultCode.success ∧ holder (respond s r).2 = some r.lockId
  update_held : ∀ s r id, r.Asks dbId key .lock LockFlag.update → holder s = some id →
    (respond s r).1.HasCode (if r.lockId = id then ResultCode.success else ResultCode.locked) ∧
      holder (respond s r).2 = some id
  look : ∀ s r, r.Asks dbId key .lock 0 → r.timeout = TimeWord.pack 0 0 → r.expire = TimeWord.pack 0 0 →
    holder s ≠ some r.lockId → (respond s r).1.Tells (holder s).isNone ∧ holder (respond s r).2 = holder s
  lookReverse : ∀ s r, r.Asks dbId key .lock 0 → r.timeout = TimeWord.pack 0 TimeoutFlag.reverseWait →
    r.expire = TimeWord.pack 0 0 → holder s ≠ some r.lockId →
    (respond s r).1.Tells (holder s).isSome ∧ holder (respond s r).2 = holder s

/-- A service for one key, whose state is the holder. It answers requests with other flags as looks. -/
def singleHolder : Responder (Option Ident) := fun holder r =>
  if r.kind = .unlock then
    match holder with
    | none => (r.answer ResultCode.unlocked, none)
    | some id => if id = r.lockId then (r.answer ResultCode.success, none) else (r.answer ResultCode.notOwner, some id)
  else if r.flag = LockFlag.update then
    match holder with
    | none => (r.answer ResultCode.success, some r.lockId)
    | some id => (r.answer (if r.lockId = id then ResultCode.success else ResultCode.locked), some id)
  else
    let wanted := if r.timeout.has TimeoutFlag.reverseWait then holder.isSome else holder.isNone
    (r.answer (if wanted then ResultCode.success else ResultCode.timeout), holder)

theorem LockRequest.tells_answer (r : LockRequest) (wanted : Bool) :
    (r.answer (if wanted then ResultCode.success else ResultCode.timeout)).Tells wanted := by
  cases wanted with
  | true => exact r.hasCode_answer _
  | false => exact Or.inr (r.hasCode_answer _)

theorem keepsHolder_singleHolder (dbId : UInt8) (key : LockKey) : KeepsHolder singleHolder dbId key id where
  unlock_held s r hr hs := by
    obtain rfl : s = some r.lockId := hs
    simp only [singleHolder, hr.kind, if_true]
    exact ⟨r.hasCode_answer _, rfl⟩
  unlock_free s r hr hs := by
    obtain rfl : s = none := hs
    simp only [singleHolder, hr.kind, if_true]
    exact ⟨r.hasCode_answer _, rfl⟩
  update_free s r hr hs := by
    obtain rfl : s = none := hs
    simp only [singleHolder, hr.kind, hr.flag, reduceCtorEq, if_false, if_true]
    exact ⟨r.hasCode_answer _, rfl⟩
  update_held s r owner hr hs := by
    obtain rfl : s = some owner := hs
    simp only [singleHolder, hr.kind, hr.flag, reduceCtorEq, if_false, if_true]
    exact ⟨r.hasCode_answer _, rfl⟩
  look s r hr ht _ _ := by
    have hplain : (TimeWord.pack 0 0).has TimeoutFlag.reverseWait = false := by decide
    have hflag : (0 : UInt8) ≠ LockFlag.update := by decide
    simp only [singleHolder, hr.kind, hr.flag, ht, hplain, hflag, reduceCtorEq, if_false]
    exact ⟨r.tells_answer _, trivial⟩
  lookReverse s r hr ht _ _ := by
    have hreverse : (TimeWord.pack 0 TimeoutFlag.reverseWait).has TimeoutFlag.reverseWait = true := by decide
    have hflag : (0 : UInt8) ≠ LockFlag.update := by decide
    simp only [singleHolder, hr.kind, hr.flag, ht, hreverse, hflag, reduceCtorEq, if_false, if_true]
    exact ⟨r.tells_answer _, trivial⟩

end LockService
