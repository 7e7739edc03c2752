import LockService.Primitive.Event

/-!
# Events in use

Several clients use an event, each with handles of its own. A use is one call on one handle, with the identifiers that
its client draws next. Calls with a callback are run to the callback.
-/

namespace LockService

/-- A call on an event. -/
inductive EventCall where
  | set
  | clear
  | isSet
  /-- Sets the event with a callback. -/
  | postSet
  /-- Clears the event with a callback. -/
  | postClear
deriving DecidableEq

/-- What a call makes of the event. -/
def EventCall.written? : EventCall → Option Bool
  | set | postSet => some true
  | clear | postClear => some false
  | isSet => none

/-- A call on a handle. -/
structure EventUse where
  handle : Event
  call : EventCall
  ids : IdSource

namespace EventUse

variable {τ : Type}

/-- The handle refers to an event. Handles of the same event may differ in their times. -/
structure Concerns (u : EventUse) (dbId : UInt8) (key : LockKey) (defaultSet : Bool) : Prop where
  dbId : u.handle.dbId = dbId
  key : u.handle.key = key
  defaultSet : u.handle.defaultSet = defaultSet

/-- The answer of a use, which is a flag if the event was asked for it. -/
def run (respond : Responder τ) (u : EventUse) (peer : τ) : Outcome (Option Bool) × τ :=
  let scene : Scene Unit τ := ⟨(), u.ids, peer⟩
  match u.call with
  | .set => unanswered (u.handle.set.outcome.run respond scene)
  | .clear => unanswered (u.handle.clear.outcome.run respond scene)
  | .postSet => unanswered (Posting.run respond u.handle.postSet scene)
  | .postClear => unanswered (Posting.run respond u.handle.postClear scene)
  | .isSet =>
    let (outcome, scene) := u.handle.isSet.outcome.run respond scene
    (outcome.map some, scene.peer)
where
  unanswered : Outcome Unit × Scene Unit τ → Outcome (Option Bool) × τ
    | (outcome, scene) => (outcome.map fun _ => none, scene.peer)

/-- The service after uses one after the other. -/
def serviceAfter (respond : Responder τ) (peer : τ) (uses : List EventUse) : τ :=
  uses.foldl (fun peer u => (u.run respond peer).2) peer

/-- What the last of the uses that set or clear the event made of it. -/
def flagAfter (defaultSet : Bool) (uses : List EventUse) : Bool :=
  (uses.filterMap fun u => u.call.written?).getLast?.getD defaultSet

@[simp] theorem serviceAfter_nil (respond : Responder τ) (peer : τ) : serviceAfter respond peer [] = peer := rfl

theorem serviceAfter_concat (respond : Responder τ) (peer : τ) (uses : List EventUse) (u : EventUse) :
    serviceAfter respond peer (uses ++ [u]) = (u.run respond (serviceAfter respond peer uses)).2 := by
  simp only [serviceAfter, List.foldl_append, List.foldl_cons, List.foldl_nil]

@[simp] theorem flagAfter_nil (defaultSet : Bool) : flagAfter defaultSet [] = defaultSet := rfl

theorem flagAfter_concat (defaultSet : Bool) (uses : List EventUse) (u : EventUse) :
    flagAfter defaultSet (uses ++ [u]) = u.call.written?.getD (flagAfter defaultSet uses) := by
  unfold flagAfter
  rw [List.filterMap_append]
  cases hw : u.call.written? with
  | none => simp [hw]
  | some b => simp [hw]

end EventUse

end LockService
