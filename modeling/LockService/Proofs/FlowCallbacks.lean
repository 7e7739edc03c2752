import LockService.Primitive.FlowUse
import LockService.Service.Basic

/-!
# Concurrency limits with and without callbacks

An acquire with a callback is an acquire. A release with a callback is a release once the handle's lock is made. Before
that, a release that is awaited fails at once and sends nothing, while one with a callback makes the lock and sends a
request to give it back (`FlowLimit.callbacks_agree_iff`).
-/

namespace LockService.FlowLimit

variable {τ : Type} (h : FlowLimit) (respond : Responder τ)

/-! ### The calls, before and after the handle's lock is made -/

/-- A request of the handle's lock is sent and answered. -/
def ask (kind : CommandKind) (lock : Lock) (ids : IdSource) (peer : τ) : Outcome LockReply × Scene State τ :=
  let (outcome, peer) := respond peer (lock.requestWith kind 0 ids.upcoming)
  (outcome >>= lockOutcome, ⟨some lock, ids.advance, peer⟩)

section Calls

variable (ids : IdSource) (peer : τ) (lock : Lock)

theorem perform_acquire_of_none : h.perform respond .acquire ⟨none, ids, peer⟩ =
    ask respond .lock (h.lockAs ids.upcoming) ids.advance peer := rfl

theorem perform_acquire_of_some :
    h.perform respond .acquire ⟨some lock, ids, peer⟩ = ask respond .lock lock ids peer := rfl

private theorem perform_release_of_none :
    h.perform respond .release ⟨none, ids, peer⟩ = (.error .notHeld, ⟨none, ids, peer⟩) := rfl

private theorem perform_release_of_some :
    h.perform respond .release ⟨some lock, ids, peer⟩ = ask respond .unlock lock ids peer := rfl

private theorem perform_postRelease_of_none : h.perform respond .postRelease ⟨none, ids, peer⟩ =
    ask respond .unlock (h.lockAs ids.upcoming) ids.advance peer := rfl

private theorem perform_postRelease_of_some :
    h.perform respond .postRelease ⟨some lock, ids, peer⟩ = ask respond .unlock lock ids peer := rfl

end Calls

private theorem perform_postAcquire (scene : Scene State τ) :
    h.perform respond .postAcquire scene = h.perform respond .acquire scene := by
  obtain ⟨_ | lock, ids, peer⟩ := scene <;> rfl

/-- Only a release that is awaited leaves the handle without a lock. -/
theorem state_perform_eq_none_iff (call : FlowCall) (scene : Scene State τ) :
    (h.perform respond call scene).2.state = none ↔ scene.state = none ∧ call = .release := by
  obtain ⟨_ | lock, ids, peer⟩ := scene
  · cases call with
    | release => simp [perform_release_of_none]
    | acquire => simp [perform_acquire_of_none, ask]
    | postAcquire => simp [perform_postAcquire, perform_acquire_of_none, ask]
    | postRelease => simp [perform_postRelease_of_none, ask]
  · cases call with
    | release => simp [perform_release_of_some, ask]
    | acquire => simp [perform_acquire_of_some, ask]
    | postAcquire => simp [perform_postAcquire, perform_acquire_of_some, ask]
    | postRelease => simp [perform_postRelease_of_some, ask]

private theorem state_performAll_eq_none_iff (calls : List FlowCall) (scene : Scene State τ) :
    (h.performAll respond calls scene).state = none ↔ scene.state = none ∧ ∀ call ∈ calls, call = .release := by
  induction calls generalizing scene with
  | nil => simp
  | cons call calls ih =>
    rw [performAll_cons, ih, state_perform_eq_none_iff, List.forall_mem_cons, and_assoc]

/-- A release with a callback is one that is awaited if the handle has a lock, and only then. -/
theorem perform_postRelease_eq_iff (scene : Scene State τ) :
    h.perform respond .postRelease scene = h.perform respond .release scene ↔ scene.state ≠ none := by
  obtain ⟨_ | lock, ids, peer⟩ := scene
  · rw [perform_postRelease_of_none, perform_release_of_none]
    refine ⟨fun heq => ?_, fun hne => absurd rfl hne⟩
    -- one leaves the handle with a lock and the other without
    have hstate := congrArg (fun result => result.2.state) heq
    simp [ask] at hstate
  · rw [perform_postRelease_of_some, perform_release_of_some]
    simp

/-- A release that is awaited fails at once, without a request, if the handle has no lock, and only then. -/
theorem perform_release_eq_notHeld_iff (scene : Scene State τ) :
    h.perform respond .release scene = (.error .notHeld, scene) ↔ scene.state = none := by
  obtain ⟨_ | lock, ids, peer⟩ := scene
  · simp [perform_release_of_none]
  · rw [perform_release_of_some]
    refine ⟨fun heq => ?_, fun hnone => by cases hnone⟩
    -- a request draws an identifier
    have hdrawn := congrArg (fun result => result.2.ids.drawn) heq
    simp [ask, IdSource.advance] at hdrawn

/-- A release with a callback makes the handle's lock if there is none, and only then. -/
theorem perform_postRelease_eq_ask_iff (scene : Scene State τ) : h.perform respond .postRelease scene =
    ask respond .unlock (h.lockAs scene.ids.upcoming) scene.ids.advance scene.peer ↔ scene.state = none := by
  obtain ⟨_ | lock, ids, peer⟩ := scene
  · simp [perform_postRelease_of_none]
  · rw [perform_postRelease_of_some]
    refine ⟨fun heq => ?_, fun hnone => by cases hnone⟩
    -- a lock that is made draws one identifier more
    have hdrawn := congrArg (fun result => result.2.ids.drawn) heq
    simp [ask, IdSource.advance] at hdrawn

/-- After whatever calls on a new handle, an acquire with a callback sends the same request as one that is awaited,
tells its callback what the other tells its caller, and leaves the same behind. So does a release, if and only if one of
the calls was another one than a release that is awaited. If none was, a release that is awaited tells that nothing is
held and changes nothing, while one with a callback makes the handle's lock and sends a request to give it back. -/
theorem callbacks_agree_iff (ids : IdSource) (peer : τ) (calls : List FlowCall) :
    let scene := h.performAll respond calls ⟨none, ids, peer⟩
    h.perform respond .postAcquire scene = h.perform respond .acquire scene ∧
      (h.perform respond .postRelease scene = h.perform respond .release scene ↔
        ∃ call ∈ calls, call ≠ .release) ∧
      (h.perform respond .release scene = (.error .notHeld, scene) ↔ ∀ call ∈ calls, call = .release) ∧
      (h.perform respond .postRelease scene =
          ask respond .unlock (h.lockAs scene.ids.upcoming) scene.ids.advance scene.peer ↔
        ∀ call ∈ calls, call = .release) := by
  intro scene
  have hstate : scene.state = none ↔ ∀ call ∈ calls, call = .release := by
    rw [state_performAll_eq_none_iff]
    exact and_iff_right rfl
  refine ⟨h.perform_postAcquire respond scene, ?_, ?_, ?_⟩
  · rw [perform_postRelease_eq_iff, Ne, hstate]
    simp
  · rw [perform_release_eq_notHeld_iff, hstate]
  · rw [perform_postRelease_eq_ask_iff, hstate]

/-- A service that grants everything and keeps the requests. -/
def recorder : Responder (List LockRequest) := fun sent request =>
  (request.answer ResultCode.success, sent ++ [request])

/-- Two permits on a key. -/
def pairLimit : FlowLimit where
  dbId := 0
  key := .ofBytes [106, 111, 98, 115]
  permits := 2
  timeout := .seconds 4
  expire := .seconds 3

def pairIds : IdSource := .seeded 40 fun _ => ⟨1700000000000, 6⟩

/-- On a new handle a release that is awaited fails without a request. With a callback it sends a request to give a slot
back that was never taken, the callback hears that this has succeeded, and the handle has a lock. -/
theorem first_postRelease_gives_back_untaken :
    pairLimit.perform recorder .release ⟨none, pairIds, []⟩ = (.error .notHeld, ⟨none, pairIds, []⟩) ∧
      (pairLimit.perform recorder .postRelease ⟨none, pairIds, []⟩).1.isOk = true ∧
      (pairLimit.perform recorder .postRelease ⟨none, pairIds, []⟩).2.state = some (pairLimit.lockAs pairIds.upcoming) ∧
      (pairLimit.perform recorder .postRelease ⟨none, pairIds, []⟩).2.peer.map (·.kind) = [.unlock] :=
  ⟨rfl, rfl, rfl, rfl⟩

end LockService.FlowLimit
