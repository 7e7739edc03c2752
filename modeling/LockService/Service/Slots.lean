import LockService.Service.Basic

/-!
# A service that keeps the holders of a key

`KeepsSlots` is what callers of semaphores rely on. The holders of a key stand in the order of their grants, each with
the number of others that it allows beside itself. A further one is granted only while the holders are no more than any
of them, or the new one, allows; a request that does not wait is then granted for certain. The oldest holder can be
released by whoever asks for it. `slotKeeper` is a service of this kind for one key.
-/

namespace LockService

/-- A holder of a key. -/
structure SlotHolder where
  id : Ident
  /-- How many others it allows beside itself. -/
  count : UInt16
deriving DecidableEq

/-- There is room for a holder who allows `count` others: the holders are no more than that, and than any of them
allows. -/
def HasRoomFor (count : UInt16) (holders : List SlotHolder) : Prop :=
  ∀ limit ∈ count :: holders.map (·.count), holders.length ≤ limit.toNat

instance (count : UInt16) : DecidablePred (HasRoomFor count) := fun holders =>
  List.decidableBAll (fun limit : UInt16 => holders.length ≤ limit.toNat) (count :: holders.map SlotHolder.count)

/-- When every holder allows the same number of others, there is room up to that number. -/
theorem hasRoomFor_iff {count : UInt16} {holders : List SlotHolder} (h : ∀ holder ∈ holders, holder.count = count) :
    HasRoomFor count holders ↔ holders.length ≤ count.toNat := by
  refine ⟨fun hroom => hroom count List.mem_cons_self, fun hlength limit hlimit => ?_⟩
  rcases List.mem_cons.mp hlimit with rfl | hlimit
  · exact hlength
  · obtain ⟨holder, hmem, rfl⟩ := List.mem_map.mp hlimit
    rwa [h holder hmem]

namespace LockRequest

/-- A request of a kind and with a flag byte that is about a key of a database. -/
structure IsAbout (r : LockRequest) (dbId : UInt8) (key : LockKey) (kind : CommandKind) (flag : UInt8) : Prop where
  kind : r.kind = kind
  flag : r.flag = flag
  dbId : r.dbId = dbId
  lockKey : r.lockKey = key

/-- The service must answer the request at once. -/
def IsHasty (r : LockRequest) : Prop := r.timeout.waitSpan = Span.zero

instance : DecidablePred IsHasty := fun r => inferInstanceAs (Decidable (r.timeout.waitSpan = Span.zero))

end LockRequest

/-- A service that keeps the holders of a key; `holders` reads them off the service's state, the oldest first. -/
structure KeepsSlots {τ : Type} (respond : Responder τ) (dbId : UInt8) (key : LockKey) (holders : τ → List SlotHolder) :
    Prop where
  /-- Under an identifier that is no holder's a place is taken, or the request is refused. -/
  lock : ∀ s r, r.IsAbout dbId key .lock 0 → r.lockId ∉ (holders s).map (·.id) →
    (respond s r).1.HasCode ResultCode.success ∧ HasRoomFor r.count (holders s) ∧
        holders (respond s r).2 = holders s ++ [⟨r.lockId, r.count⟩] ∨
      ∃ code, code ≠ ResultCode.success ∧ (respond s r).1.HasCode code ∧
        (r.IsHasty → ¬ HasRoomFor r.count (holders s)) ∧ holders (respond s r).2 = holders s
  unlock_held : ∀ s r oldest rest, r.IsAbout dbId key .unlock UnlockFlag.oldestHolder → r.lockId = Ident.zero →
    holders s = oldest :: rest → (respond s r).1.HasCode ResultCode.success ∧ holders (respond s r).2 = rest
  unlock_free : ∀ s r, r.IsAbout dbId key .unlock UnlockFlag.oldestHolder → r.lockId = Ident.zero →
    holders s = [] → (respond s r).1.HasCode ResultCode.unlocked ∧ holders (respond s r).2 = []

/-- A service for one key, whose state are the holders. -/
def slotKeeper : Responder (List SlotHolder) := fun holders r =>
  if r.kind = .unlock then
    match holders with
    | [] => (r.answer ResultCode.unlocked, [])
    | _ :: rest => (r.answer ResultCode.success, rest)
  else if HasRoomFor r.count holders then (r.answer ResultCode.success, holders ++ [⟨r.lockId, r.count⟩])
  else (r.answer (if r.IsHasty then ResultCode.locked else ResultCode.timeout), holders)

theorem keepsSlots_slotKeeper (dbId : UInt8) (key : LockKey) : KeepsSlots slotKeeper dbId key id where
  lock s r hr _ := by
    by_cases hroom : HasRoomFor r.count s
    · simp only [slotKeeper, hr.kind, reduceCtorEq, if_false, if_pos hroom]
      exact .inl ⟨r.hasCode_answer _, hroom, rfl⟩
    · simp only [slotKeeper, hr.kind, reduceCtorEq, if_false, if_neg hroom]
      exact .inr ⟨_, by split <;> decide, r.hasCode_answer _, fun _ => hroom, trivial⟩
  unlock_held s r oldest rest hr _ hs := by
    obtain rfl : s = oldest :: rest := hs
    simp only [slotKeeper, hr.kind, if_true]
    exact ⟨r.hasCode_answer _, rfl⟩
  unlock_free s r hr _ hs := by
    obtain rfl : s = [] := hs
    simp only [slotKeeper, hr.kind, if_true]
    exact ⟨r.hasCode_answer _, rfl⟩

end LockService
