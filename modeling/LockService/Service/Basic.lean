import LockService.Primitive.Lock

/-!
# What a service answers

A service answers a lock request with a result code and, for the rest, with the request's own values
(`LockRequest.answer`). Callers look at little more than the code: `Outcome.HasCode` says what it is, and the lemmas
below say what a lock's calls make of it.
-/

namespace LockService

/-- The answer to a request with a result code. -/
def LockRequest.answer (r : LockRequest) (code : UInt8) : Outcome Reply :=
  .ok (.lock {
    kind := r.kind, requestId := r.requestId, result := code, flag := r.flag, dbId := r.dbId, lockId := r.lockId
    lockKey := r.lockKey, localCount := 0, count := r.count, localReentry := 0, reentry := r.reentry })

/-- An outcome is a lock answer with this result code. -/
def Outcome.HasCode (outcome : Outcome Reply) (code : UInt8) : Prop :=
  ∃ reply : LockReply, outcome = .ok (.lock reply) ∧ reply.result = code

instance (code : UInt8) : DecidablePred fun outcome : Outcome Reply => outcome.HasCode code
  | .ok (.lock reply) => decidable_of_iff (reply.result = code)
    ⟨fun h => ⟨reply, rfl, h⟩, fun ⟨_, he, h⟩ => by cases he; exact h⟩
  | .ok (.init _) | .ok (.ping _) | .error _ => .isFalse fun ⟨_, he, _⟩ => by cases he

theorem LockRequest.hasCode_answer (r : LockRequest) (code : UInt8) : (r.answer code).HasCode code := ⟨_, rfl, rfl⟩

/-! ### What the codes mean to callers -/

namespace Outcome.HasCode

variable {outcome : Outcome Reply} {code : UInt8}

theorem lockOutcome_ok (h : outcome.HasCode ResultCode.success) : ∃ reply, outcome >>= lockOutcome = .ok reply := by
  obtain ⟨reply, rfl, hr⟩ := h
  exact ⟨reply, if_pos hr⟩

theorem lockOutcome_error (h : outcome.HasCode code) (hc : code ≠ ResultCode.success) :
    ∃ reply, outcome >>= lockOutcome = .error (.ofReply reply) ∧ reply.result = code := by
  obtain ⟨reply, rfl, hr⟩ := h
  exact ⟨reply, if_neg (hr ▸ hc), hr⟩

/-- A failure carries the answer it stands for. -/
theorem eq_ofReply (h : outcome.HasCode code) {failure : Failure} (hf : outcome >>= lockOutcome = .error failure) :
    code ≠ ResultCode.success ∧ ∃ reply, failure = .ofReply reply ∧ reply.result = code := by
  have hc : code ≠ ResultCode.success := by
    rintro rfl
    obtain ⟨reply, hreply⟩ := h.lockOutcome_ok
    rw [hreply] at hf
    cases hf
  obtain ⟨reply, hreply, hresult⟩ := h.lockOutcome_error hc
  rw [hreply] at hf
  cases hf
  exact ⟨hc, reply, rfl, hresult⟩

theorem isGrant_iff (h : outcome.HasCode code) : outcome.isGrant = true ↔ code = ResultCode.success := by
  unfold Outcome.isGrant
  by_cases hc : code = ResultCode.success
  · obtain ⟨reply, hr⟩ := lockOutcome_ok (hc ▸ h)
    simp [hr, hc, Except.isOk, Except.toBool]
  · obtain ⟨reply, hr, -⟩ := h.lockOutcome_error hc
    simp [hr, hc, Except.isOk, Except.toBool]

end Outcome.HasCode

theorem Failure.isLocked_ofReply {reply : LockReply} (h : reply.result = ResultCode.locked) :
    (ofReply reply).isLocked = true := by
  simp only [isLocked, ofReply, lockFault?, h]
  decide

theorem Failure.isUnlocked_ofReply {reply : LockReply} (h : reply.result = ResultCode.unlocked) :
    (ofReply reply).isUnlocked = true := by
  simp only [isUnlocked, ofReply, lockFault?, h]
  decide

theorem Failure.isTimeout_ofReply {reply : LockReply} (h : reply.result = ResultCode.timeout) :
    (ofReply reply).isTimeout = true := by
  simp only [isTimeout, ofReply, lockFault?, h]
  decide

namespace Outcome.HasCode

variable {outcome : Outcome Reply} {code : UInt8}

theorem isLocked_of_error (h : outcome.HasCode code) (hcode : code = ResultCode.success ∨ code = ResultCode.locked) :
    ∀ failure, outcome >>= lockOutcome = .error failure → failure.isLocked = true := by
  intro failure hfailure
  obtain ⟨hne, reply, rfl, hresult⟩ := h.eq_ofReply hfailure
  exact Failure.isLocked_ofReply (hresult.trans (hcode.resolve_left hne))

theorem isUnlocked_of_error (h : outcome.HasCode code)
    (hcode : code = ResultCode.success ∨ code = ResultCode.unlocked) :
    ∀ failure, outcome >>= lockOutcome = .error failure → failure.isUnlocked = true := by
  intro failure hfailure
  obtain ⟨hne, reply, rfl, hresult⟩ := h.eq_ofReply hfailure
  exact Failure.isUnlocked_ofReply (hresult.trans (hcode.resolve_left hne))

end Outcome.HasCode

/-! ### Runs of attempts and of a lock's calls -/

namespace Attempt

variable {σ τ α β : Type} {respond : Responder τ} {x : Attempt σ α} {scene scene' : Scene σ τ}

/-- An attempt that succeeds is gone on from. -/
theorem run_bind_of_ok {value : α} (h : x.outcome.run respond scene = (.ok value, scene')) (f : α → Attempt σ β) :
    (x >>= f).outcome.run respond scene = (f value).outcome.run respond scene' := by
  have hbind : (x >>= f).outcome = x.outcome >>= ExceptT.bindCont f := rfl
  rw [hbind, Call.run_bind, h]
  rfl

/-- An attempt that fails is the end. -/
theorem run_bind_of_error {failure : Failure} (h : x.outcome.run respond scene = (.error failure, scene'))
    (f : α → Attempt σ β) : (x >>= f).outcome.run respond scene = (.error failure, scene') := by
  have hbind : (x >>= f).outcome = x.outcome >>= ExceptT.bindCont f := rfl
  rw [hbind, Call.run_bind, h]
  rfl

theorem run_tolerating {outcome : Outcome α} (h : x.outcome.run respond scene = (outcome, scene'))
    {benign : Failure → Bool} (hok : ∀ failure, outcome = .error failure → benign failure = true) :
    ∃ value, (x.tolerating benign).outcome.run respond scene = (.ok value, scene') := by
  have hbind : (x.tolerating benign).outcome = x.outcome >>= _ := rfl
  rw [hbind, Call.run_bind, h]
  cases outcome with
  | ok value => exact ⟨some value, rfl⟩
  | error failure =>
    refine ⟨none, ?_⟩
    show (if benign failure = true then Except.ok none else Except.error failure, scene') = _
    rw [if_pos (hok failure rfl)]

/-- A failure of another kind stays one. -/
theorem run_tolerating_of_error {failure : Failure} (h : x.outcome.run respond scene = (.error failure, scene'))
    {benign : Failure → Bool} (hfailure : ¬ benign failure = true) :
    (x.tolerating benign).outcome.run respond scene = (.error failure, scene') := by
  have hbind : (x.tolerating benign).outcome = x.outcome >>= _ := rfl
  rw [hbind, Call.run_bind, h]
  show (if benign failure = true then Except.ok none else Except.error failure, scene') = _
  rw [if_neg hfailure]

end Attempt

namespace Lock

variable {σ τ : Type} (respond : Responder τ) (lock : Lock) (flag : UInt8) (scene : Scene σ τ)

/-- A request is sent under the next identifier, and the answer is what the lock answer in it says. -/
theorem run_acquireWith : (lock.acquireWith flag).outcome.run respond scene =
    ((respond scene.peer (lock.requestWith .lock flag scene.ids.upcoming)).1 >>= lockOutcome,
      { scene with
        ids := scene.ids.advance
        peer := (respond scene.peer (lock.requestWith .lock flag scene.ids.upcoming)).2 }) := rfl

theorem run_releaseWith : (lock.releaseWith flag).outcome.run respond scene =
    ((respond scene.peer (lock.requestWith .unlock flag scene.ids.upcoming)).1 >>= lockOutcome,
      { scene with
        ids := scene.ids.advance
        peer := (respond scene.peer (lock.requestWith .unlock flag scene.ids.upcoming)).2 }) := rfl

end Lock

end LockService
