import LockService.Call.Interleaving
import LockService.Primitive.PairedCall

/-!
# Waiting for an answer or leaving a callback

The variant of a call that waits is the one with a callback, gone on with when the answer comes
(`PairedCall.awaited_eq_followed`). So both send the same request, and the callback is told what the other returns. Of
all failures only two count as success, and only for events: that the key is held when an event's marker is taken, and
that it is not when the marker is given back (`PairedCall.callback_tells_what_is_returned`).
-/

namespace LockService

variable {σ α β : Type}

/-- A call that does not wait is gone on from within its section. -/
theorem Call.advance_bind_of_finished {call : Call σ α} {s s' : σ} {ids ids' : IdSource} {value : α}
    (h : call.advance s ids = (.finished value, s', ids')) (next : α → Call σ β) :
    (call >>= next).advance s ids = (next value).advance s' ids' := by
  show (Call.bind call next).advance s ids = _
  induction call generalizing s ids with
  | done value =>
    cases h
    rfl
  | look _ ih => exact ih s h
  | put state _ ih => exact ih h
  | draw _ ih => exact ih ids.upcoming h
  | send _ _ => cases h

/-- After a call that posts, the answer to its request is what its callback is told. -/
theorem Posting.advance_followed {call : Call σ (Posting α)} {s s' : σ} {ids ids' : IdSource} {posting : Posting α}
    (h : call.advance s ids = (.finished posting, s', ids')) : (followed call).advance s ids =
      (.waiting posting.request fun outcome => .done (posting.deliver outcome), s', ids') :=
  Call.advance_bind_of_finished h _

namespace Event

variable (e : Event)

private theorem set_outcome : (e.set.outcome : Call σ (Outcome Unit)) = Posting.followed e.postSet := by
  unfold set postSet
  cases e.defaultSet <;> rfl

private theorem clear_outcome : (e.clear.outcome : Call σ (Outcome Unit)) = Posting.followed e.postClear := by
  unfold clear postClear
  cases e.defaultSet <;> rfl

/-- Waiting is what a posted wait comes to when it is followed to its end. -/
theorem wait_outcome (timeout : TimeWord) :
    ((e.wait timeout).outcome : Call σ (Outcome Unit)) = Posting.followed (e.postWait timeout) := by
  refine congrArg Call.draw (funext fun lockId => congrArg Call.draw (funext fun requestId => ?_))
  refine congrArg (Call.send _) (funext fun outcome => ?_)
  show Call.bind (Call.done (outcome >>= lockOutcome)) _ = Call.done ((outcome >>= lockOutcome).map fun _ => ())
  cases outcome >>= lockOutcome <;> rfl

/-! ### What the calls ask for and what they tell -/

def markRequest (ids : IdSource) : LockRequest := e.marker.requestWith .lock LockFlag.update ids.upcoming

def unmarkRequest (ids : IdSource) : LockRequest := e.marker.requestWith .unlock 0 ids.upcoming

/-- The marker is given back if the event is set by default, and taken if it is not. -/
def setRequest (ids : IdSource) : LockRequest := if e.defaultSet then e.unmarkRequest ids else e.markRequest ids

def clearRequest (ids : IdSource) : LockRequest := if e.defaultSet then e.markRequest ids else e.unmarkRequest ids

end Event

namespace PairedCall

/-- Waiting for the answer is leaving a callback and going on with it when the answer comes. -/
theorem awaited_eq_followed (call : PairedCall α) :
    (call.awaited : Call σ (Outcome α)) = Posting.followed call.posted := by
  cases call with
  | setEvent e => exact e.set_outcome
  | clearEvent e => exact e.clear_outcome
  | waitEvent e timeout => exact e.wait_outcome timeout
  | _ => rfl

/-- The request of a call, when the identifiers to come are those of a source. -/
def requestAt (ids : IdSource) : PairedCall α → LockRequest
  | acquire lock flag => lock.requestWith .lock flag ids.upcoming
  | release lock flag => lock.requestWith .unlock flag ids.upcoming
  | takeSlot s => (s.slotAs ids.upcoming).requestWith .lock 0 ids.advance.upcoming
  | freeSlot s =>
    { (s.slotAs ids.upcoming).requestWith .unlock UnlockFlag.oldestHolder ids.advance.upcoming with
      lockId := Ident.zero }
  | acquirePriority h => h.lock.requestWith .lock 0 ids.upcoming
  | releasePriority h => h.lock.requestWith .unlock 0 ids.upcoming
  | setEvent e => e.setRequest ids
  | clearEvent e => e.clearRequest ids
  | waitEvent e timeout => (e.peekAs timeout ids.upcoming).requestWith .lock 0 ids.advance.upcoming

/-- What a call tells of an answer of success. -/
def valueOf : PairedCall α → LockReply → α
  | acquire _ _, reply | release _ _, reply | takeSlot _, reply | freeSlot _, reply | acquirePriority _, reply
  | releasePriority _, reply => reply
  | setEvent _, _ | clearEvent _, _ | waitEvent _ _, _ => ()

/-- The call takes the marker of an event or gives it back. -/
def IsMarking : PairedCall α → Prop
  | setEvent _ | clearEvent _ => True
  | _ => False

private theorem isMarking_setEvent (e : Event) : (setEvent e).IsMarking := trivial

private theorem isMarking_clearEvent (e : Event) : (clearEvent e).IsMarking := trivial

/-- A failure that a call counts as success: a marker that it takes is held, or one that it gives back is not. -/
def Absorbs (call : PairedCall α) (request : LockRequest) (failure : Failure) : Prop :=
  call.IsMarking ∧
    (request.kind = .lock ∧ request.flag = LockFlag.update ∧ failure.lockFault? = some .locked ∨
      request.kind = .unlock ∧ failure.lockFault? = some .unlocked)

/-- What a call makes of the outcome of its request. -/
structure Tells (call : PairedCall α) (request : LockRequest) (outcome : Outcome Reply) (told : Outcome α) : Prop where
  success : ∀ reply, outcome >>= lockOutcome = .ok reply → told = .ok (call.valueOf reply)
  absorbed : ∀ failure, outcome >>= lockOutcome = .error failure → call.Absorbs request failure → told.isOk = true
  failed : ∀ failure, outcome >>= lockOutcome = .error failure → ¬ call.Absorbs request failure → told = .error failure

private theorem tells_answer {call : PairedCall LockReply} (hmarking : ¬ call.IsMarking)
    (hvalue : ∀ reply, call.valueOf reply = reply) (request : LockRequest) (outcome : Outcome Reply) :
    call.Tells request outcome (outcome >>= lockOutcome) where
  success reply ho := by rw [ho, hvalue]
  absorbed _ _ habsorbs := absurd habsorbs.1 hmarking
  failed _ ho _ := ho

private theorem tells_waitEvent (e : Event) (timeout : TimeWord) (request : LockRequest) (outcome : Outcome Reply) :
    (waitEvent e timeout).Tells request outcome ((outcome >>= lockOutcome).map fun _ => ()) where
  success _ ho := by rw [ho, Except.map]
  absorbed _ _ habsorbs := absurd habsorbs.1 id
  failed _ ho _ := by rw [ho, Except.map]

/-- A call on an event's marker that counts failures of one kind as success. -/
private theorem tells_settled {call : PairedCall Unit} {request : LockRequest} {benign : Failure → Bool}
    (h : ∀ failure, call.Absorbs request failure ↔ benign failure = true) (outcome : Outcome Reply) :
    call.Tells request outcome (Event.settled benign (outcome >>= lockOutcome)) where
  success reply ho := by
    rw [ho]
    rfl
  absorbed failure ho habsorbs := by
    rw [ho, Event.settled, if_pos ((h failure).mp habsorbs)]
    rfl
  failed failure ho habsorbs := by
    rw [ho, Event.settled, if_neg (mt (h failure).mpr habsorbs)]

section Marker

variable {call : PairedCall Unit} (hmarking : call.IsMarking) (e : Event) (s : σ) (ids : IdSource)

include hmarking

private theorem absorbs_markRequest_iff (failure : Failure) :
    call.Absorbs (e.markRequest ids) failure ↔ failure.isLocked = true := by
  simp [Absorbs, hmarking, Event.markRequest, Lock.requestWith, Failure.isLocked]

private theorem absorbs_unmarkRequest_iff (failure : Failure) :
    call.Absorbs (e.unmarkRequest ids) failure ↔ failure.isUnlocked = true := by
  simp [Absorbs, hmarking, Event.unmarkRequest, Lock.requestWith, Failure.isUnlocked]

private theorem advance_postMark : ∃ deliver ids',
    e.postMark.advance s ids = (.finished ⟨e.markRequest ids, deliver⟩, s, ids') ∧
      ∀ outcome, call.Tells (e.markRequest ids) outcome (deliver outcome) :=
  ⟨_, _, rfl, tells_settled (absorbs_markRequest_iff hmarking e ids)⟩

private theorem advance_postUnmark : ∃ deliver ids',
    e.postUnmark.advance s ids = (.finished ⟨e.unmarkRequest ids, deliver⟩, s, ids') ∧
      ∀ outcome, call.Tells (e.unmarkRequest ids) outcome (deliver outcome) :=
  ⟨_, _, rfl, tells_settled (absorbs_unmarkRequest_iff hmarking e ids)⟩

private theorem advance_postSet : ∃ deliver ids',
    e.postSet.advance s ids = (.finished ⟨e.setRequest ids, deliver⟩, s, ids') ∧
      ∀ outcome, call.Tells (e.setRequest ids) outcome (deliver outcome) := by
  unfold Event.postSet Event.setRequest
  cases e.defaultSet with
  | false => exact advance_postMark hmarking e s ids
  | true => exact advance_postUnmark hmarking e s ids

private theorem advance_postClear : ∃ deliver ids',
    e.postClear.advance s ids = (.finished ⟨e.clearRequest ids, deliver⟩, s, ids') ∧
      ∀ outcome, call.Tells (e.clearRequest ids) outcome (deliver outcome) := by
  unfold Event.postClear Event.clearRequest
  cases e.defaultSet with
  | false => exact advance_postUnmark hmarking e s ids
  | true => exact advance_postMark hmarking e s ids

end Marker

/-- A call that posts its request tells the callback what the answer comes to. -/
private theorem advance_posted (call : PairedCall α) (s : σ) (ids : IdSource) : ∃ deliver ids',
    call.posted.advance s ids = (.finished ⟨call.requestAt ids, deliver⟩, s, ids') ∧
      ∀ outcome, call.Tells (call.requestAt ids) outcome (deliver outcome) := by
  cases call with
  | setEvent e => exact advance_postSet (isMarking_setEvent e) e s ids
  | clearEvent e => exact advance_postClear (isMarking_clearEvent e) e s ids
  | waitEvent e timeout => exact ⟨_, _, rfl, tells_waitEvent e timeout _⟩
  | _ => exact ⟨_, _, rfl, tells_answer id (fun _ => rfl) _⟩

/-- A call sends the same request in both its variants, whatever the identifiers to come are. Whatever the outcome of the
request is, the callback is told what the other variant returns, and neither changes anything else. -/
theorem callback_tells_what_is_returned (call : PairedCall α) (s : σ) (ids : IdSource) : ∃ deliver resume ids',
    call.posted.advance s ids = (.finished ⟨call.requestAt ids, deliver⟩, s, ids') ∧
      call.awaited.advance s ids = (.waiting (call.requestAt ids) resume, s, ids') ∧
      ∀ outcome, call.Tells (call.requestAt ids) outcome (deliver outcome) ∧
        ∀ s' ids'', (resume outcome).advance s' ids'' = (.finished (deliver outcome), s', ids'') := by
  obtain ⟨deliver, ids', hposted, htells⟩ := call.advance_posted s ids
  refine ⟨deliver, fun outcome => .done (deliver outcome), ids', hposted, ?_, fun outcome => ⟨htells outcome, ?_⟩⟩
  · rw [awaited_eq_followed]
    exact Posting.advance_followed hposted
  · exact fun _ _ => rfl

end PairedCall

end LockService
