import LockService.Call.Script
import LockService.Primitive.Waitable
import LockService.Proofs.PairedCalls
import LockService.Service.Basic

/-!
# Waits that clear and look once more

A wait that clears after a timeout sends up to three requests: those of a wait, of a clear and of a wait that is not
held back. Whatever the three answers are, it tells what one of them comes to, and a group event's version is raised
only by a wait that succeeds (`Waitable.timed_out_wait_looks_once`).
-/

namespace LockService

variable {σ α : Type}

/-! ### Kinds of failures -/

namespace Failure

/-- The service gave up waiting, or no answer came within the local bound. -/
def TimedOut (failure : Failure) : Prop := failure.lockFault? = some .timeout ∨ ∃ bound, failure = .timeout bound

theorem timedOut_iff (failure : Failure) : failure.TimedOut ↔ failure.isTimeout = true := by
  cases failure <;> simp [TimedOut, isTimeout, lockFault?]

/-- A look found that there was nothing to be had at once. -/
def FoundNothing (failure : Failure) : Prop := failure.lockFault? = some .locked ∨ failure.TimedOut

private theorem foundNothing_iff (failure : Failure) :
    failure.FoundNothing ↔ (failure.isLocked || failure.isTimeout) = true := by
  rw [FoundNothing, timedOut_iff, Bool.or_eq_true, isLocked_iff]

/-- The failure of a request to clear that says that all is clear: what it takes is held, or what it gives back is
not. -/
def MeansClear (request : LockRequest) (failure : Failure) : Prop :=
  request.kind = .lock ∧ request.flag = LockFlag.update ∧ failure.lockFault? = some .locked ∨
    request.kind = .unlock ∧ failure.lockFault? = some .unlocked

private theorem meansClear_iff_of_lock {request : LockRequest} (hkind : request.kind = .lock)
    (hflag : request.flag = LockFlag.update) (failure : Failure) :
    failure.MeansClear request ↔ failure.isLocked = true := by
  simp [MeansClear, hkind, hflag, isLocked_iff]

private theorem meansClear_iff_of_unlock {request : LockRequest} (hkind : request.kind = .unlock) (failure : Failure) :
    failure.MeansClear request ↔ failure.isUnlocked = true := by
  simp [MeansClear, hkind, isUnlocked_iff]

end Failure

namespace Outcome

variable {outcome : Outcome Reply} {request : LockRequest} {failure : Failure}

/-- The wait that was asked for timed out. -/
def TimesOut (outcome : Outcome Reply) : Prop := ∃ failure, outcome >>= lockOutcome = .error failure ∧ failure.TimedOut

/-- A request to clear was answered with success, or with the failure that says that all is clear. -/
def IsClear (request : LockRequest) (outcome : Outcome Reply) : Prop :=
  ∀ failure, outcome >>= lockOutcome = .error failure → failure.MeansClear request

private theorem not_timesOut_of_ok {reply : LockReply} (h : outcome >>= lockOutcome = .ok reply) :
    ¬ outcome.TimesOut := by
  rintro ⟨failure, hfailure, -⟩
  rw [h] at hfailure
  cases hfailure

private theorem timesOut_iff_of_error (h : outcome >>= lockOutcome = .error failure) :
    outcome.TimesOut ↔ failure.TimedOut := by
  refine ⟨?_, fun htimedOut => ⟨failure, h, htimedOut⟩⟩
  rintro ⟨failure', hfailure', htimedOut⟩
  rw [h] at hfailure'
  cases hfailure'
  exact htimedOut

private theorem not_isClear_iff : ¬ outcome.IsClear request ↔
    ∃ failure, outcome >>= lockOutcome = .error failure ∧ ¬ failure.MeansClear request := by
  simp [IsClear]

end Outcome

namespace Waitable

/-! ### What the calls ask for -/

/-- The modifiers that a wait sets in its timeout. -/
def waitFlags : Waitable σ α → UInt16
  | event e => if e.defaultSet then 0 else TimeoutFlag.reverseWait
  | group _ => TimeoutFlag.newerVersionSucceeds

/-- The request of a wait, by the handle's state and the identifiers to come. -/
def waitRequest (timeout : TimeWord) (s : σ) (ids : IdSource) : Waitable σ α → LockRequest
  | event e => (e.peekAs timeout ids.upcoming).requestWith .lock 0 ids.advance.upcoming
  | group e =>
    (e.lockAt s e.clientId (GroupEvent.newerSucceeds timeout) (TimeWord.pack 0 0)).requestWith .lock 0 ids.upcoming

/-- The identifiers to come after a wait. -/
def afterWait (ids : IdSource) : Waitable σ α → IdSource
  | event _ => ids.advance.advance
  | group _ => ids.advance

def clearRequest (s : σ) (ids : IdSource) : Waitable σ α → LockRequest
  | event e => e.clearRequest ids
  | group e => (e.lockAt s 0 (TimeWord.pack 0 0) e.expire).requestWith .lock LockFlag.update ids.upcoming

/-- What a wait tells of an answer of success. -/
def valueOf (reply : LockReply) : Waitable σ α → α
  | event _ => ()
  | group _ => reply

/-- The state after a wait that succeeds: the version of a group event is raised to the one observed. -/
def adopt (s : σ) (value : α) : Waitable σ α → σ
  | event _ => s
  | group _ => max s (GroupEvent.versionOf value.lockId)

/-- What a wait makes of the answer, and the state that it leaves. A wait that fails leaves the state alone. -/
def conclude (h : Waitable σ α) (s : σ) : Outcome LockReply → Outcome α × σ
  | .ok reply => (.ok (h.valueOf reply), h.adopt s (h.valueOf reply))
  | .error failure => (.error failure, s)

/-! ### Single calls -/

section Single

variable (h : Waitable σ α) (timeout : TimeWord) (script : Nat → Outcome Reply) (s : σ) (ids : IdSource)
  (earlier : List LockRequest)

theorem run_wait : (h.wait timeout).outcome.run (scripted script) ⟨s, ids, earlier⟩ =
    ((h.conclude s (script earlier.length >>= lockOutcome)).1,
      ⟨(h.conclude s (script earlier.length >>= lockOutcome)).2, h.afterWait ids,
        earlier ++ [h.waitRequest timeout s ids]⟩) := by
  cases h with
  | event e =>
    rw [wait, Event.wait_outcome]
    show ((script earlier.length >>= lockOutcome).map fun _ => (), _) = _
    cases script earlier.length >>= lockOutcome <;> rfl
  | group e =>
    have hacquire := Lock.run_acquireWith (scripted script)
      (e.lockAt s e.clientId (GroupEvent.newerSucceeds timeout) (TimeWord.pack 0 0)) 0 ⟨s, ids, earlier⟩
    dsimp only [scripted] at hacquire
    cases houtcome : script earlier.length >>= lockOutcome with
    | ok reply =>
      rw [houtcome] at hacquire
      exact Attempt.run_bind_of_ok hacquire _
    | error failure =>
      rw [houtcome] at hacquire
      exact Attempt.run_bind_of_error hacquire _

private theorem run_wait_of_ok {reply : LockReply} (hreply : script earlier.length >>= lockOutcome = .ok reply) :
    (h.wait timeout).outcome.run (scripted script) ⟨s, ids, earlier⟩ =
      (.ok (h.valueOf reply),
        ⟨h.adopt s (h.valueOf reply), h.afterWait ids, earlier ++ [h.waitRequest timeout s ids]⟩) := by
  rw [run_wait, hreply]
  rfl

private theorem run_wait_of_error {failure : Failure}
    (hfailure : script earlier.length >>= lockOutcome = .error failure) :
    (h.wait timeout).outcome.run (scripted script) ⟨s, ids, earlier⟩ =
      (.error failure, ⟨s, h.afterWait ids, earlier ++ [h.waitRequest timeout s ids]⟩) := by
  rw [run_wait, hfailure]
  rfl

/-- What a clear tells of an outcome: the failure that says that all is clear counts as success, and no other. -/
structure TellsClear (request : LockRequest) (outcome : Outcome Reply) (told : Outcome Unit) : Prop where
  clear : outcome.IsClear request → told = .ok ()
  failed : ∀ failure, outcome >>= lockOutcome = .error failure → ¬ failure.MeansClear request → told = .error failure

/-- A clear that lets the benign failure pass tells what its answer means. -/
private theorem tellsClear_settled {request : LockRequest} {benign : Failure → Bool}
    (hbenign : ∀ failure, failure.MeansClear request ↔ benign failure = true) (outcome : Outcome Reply) :
    TellsClear request outcome (Event.settled benign (outcome >>= lockOutcome)) where
  clear hclear := by
    cases ho : outcome >>= lockOutcome with
    | ok reply => rfl
    | error failure => exact if_pos ((hbenign failure).mp (hclear failure ho))
  failed failure ho hother := by
    rw [ho]
    exact if_neg (mt (hbenign failure).mpr hother)

/-- A clear leaves the state alone. -/
theorem run_clear : ∃ told, TellsClear (h.clearRequest s ids) (script earlier.length) told ∧
    h.clear.outcome.run (scripted script) ⟨s, ids, earlier⟩ =
      (told, ⟨s, ids.advance, earlier ++ [h.clearRequest s ids]⟩) := by
  cases h with
  | event e =>
    show ∃ told, TellsClear (e.clearRequest ids) (script earlier.length) told ∧
      e.clear.outcome.run (scripted script) ⟨s, ids, earlier⟩ =
        (told, ⟨s, ids.advance, earlier ++ [e.clearRequest ids]⟩)
    unfold Event.clear Event.clearRequest
    cases e.defaultSet with
    | false => exact ⟨_, tellsClear_settled (Failure.meansClear_iff_of_unlock rfl) _, rfl⟩
    | true => exact ⟨_, tellsClear_settled (Failure.meansClear_iff_of_lock rfl rfl) _, rfl⟩
  | group e =>
    refine ⟨_, tellsClear_settled (Failure.meansClear_iff_of_lock rfl rfl) _, ?_⟩
    show Call.run _ (Call.bind (Call.bind (Call.done (script earlier.length >>= lockOutcome)) _) _) _ = _
    cases script earlier.length >>= lockOutcome with
    | ok reply => rfl
    | error failure => cases hf : failure.isLocked <;> (simp only [Call.bind, Event.settled, hf]; rfl)

private theorem wait_sends : ((h.wait timeout).outcome.run (scripted script) ⟨s, ids, earlier⟩).2.peer =
    earlier ++ [h.waitRequest timeout s ids] := by
  rw [run_wait]

private theorem clear_sends : (h.clear.outcome.run (scripted script) ⟨s, ids, earlier⟩).2.peer =
    earlier ++ [h.clearRequest s ids] := by
  obtain ⟨told, -, hrun⟩ := run_clear h script s ids earlier
  rw [hrun]

/-- The timeout of a wait is the one asked for, with the handle's modifiers. -/
private theorem timeout_waitRequest :
    (h.waitRequest timeout s ids).timeout = timeout.withModifiers h.waitFlags := by
  cases h with
  | event e =>
    show e.waitWord timeout = timeout.withModifiers (if e.defaultSet then 0 else TimeoutFlag.reverseWait)
    unfold Event.waitWord
    cases e.defaultSet with
    | false => rfl
    | true =>
      show timeout = TimeWord.pack timeout.value (timeout.modifiers ||| 0)
      rw [UInt16.or_zero, TimeWord.pack_value_modifiers]
  | group e => rfl

end Single

/-! ### All three -/

section Course

variable (h : Waitable σ α) (timeout : TimeWord) (script : Nat → Outcome Reply) (s : σ) (ids : IdSource)

/-- The request of the clear after a wait. -/
def secondRequest : LockRequest := h.clearRequest s (h.afterWait ids)

/-- The request of the look after that. -/
def lastRequest : LockRequest := h.waitRequest (TimeWord.pack 0 0) s (h.afterWait ids).advance

/-- How a wait that may clear and look once more goes: what it tells, the state that it leaves and what it sends. -/
inductive Course : Outcome α → σ → List LockRequest → Prop
  | succeeds {reply : LockReply} (first : script 0 >>= lockOutcome = .ok reply) :
    Course (.ok (h.valueOf reply)) (h.adopt s (h.valueOf reply)) [h.waitRequest timeout s ids]
  | fails {failure : Failure} (first : script 0 >>= lockOutcome = .error failure) (isOther : ¬ failure.TimedOut) :
    Course (.error failure) s [h.waitRequest timeout s ids]
  /-- After a timeout the clear fails. -/
  | sticks {failure other : Failure} (first : script 0 >>= lockOutcome = .error failure) (timedOut : failure.TimedOut)
      (second : script 1 >>= lockOutcome = .error other) (isOther : ¬ other.MeansClear (h.secondRequest s ids)) :
    Course (.error other) s [h.waitRequest timeout s ids, h.secondRequest s ids]
  /-- The look succeeds. -/
  | finds {failure : Failure} {reply : LockReply} (first : script 0 >>= lockOutcome = .error failure)
      (timedOut : failure.TimedOut) (second : (script 1).IsClear (h.secondRequest s ids))
      (last : script 2 >>= lockOutcome = .ok reply) :
    Course (.ok (h.valueOf reply)) (h.adopt s (h.valueOf reply))
      [h.waitRequest timeout s ids, h.secondRequest s ids, h.lastRequest s ids]
  /-- The look finds nothing, and the first failure stands. -/
  | misses {failure again : Failure} (first : script 0 >>= lockOutcome = .error failure) (timedOut : failure.TimedOut)
      (second : (script 1).IsClear (h.secondRequest s ids)) (last : script 2 >>= lockOutcome = .error again)
      (nothing : again.FoundNothing) :
    Course (.error failure) s [h.waitRequest timeout s ids, h.secondRequest s ids, h.lastRequest s ids]
  /-- The look fails in another way. -/
  | breaks {failure again : Failure} (first : script 0 >>= lockOutcome = .error failure) (timedOut : failure.TimedOut)
      (second : (script 1).IsClear (h.secondRequest s ids)) (last : script 2 >>= lockOutcome = .error again)
      (isOther : ¬ again.FoundNothing) :
    Course (.error again) s [h.waitRequest timeout s ids, h.secondRequest s ids, h.lastRequest s ids]

/-- A wait that may clear and look once more goes in one of these ways. -/
private theorem exists_course : ∃ told now ids' sent,
    (h.waitRetryClear timeout).outcome.run (scripted script) ⟨s, ids, []⟩ = (told, ⟨now, ids', sent⟩) ∧
      h.Course timeout script s ids told now sent := by
  rw [waitRetryClear_eq]
  cases first : script 0 >>= lockOutcome with
  | ok reply =>
    have hwait := run_wait_of_ok h timeout script s ids [] first
    exact ⟨_, _, _, _, Attempt.run_retryCleared_of_ok hwait, .succeeds first⟩
  | error failure =>
    have hwait := run_wait_of_error h timeout script s ids [] first
    by_cases timedOut : failure.TimedOut
    · have htimeout := failure.timedOut_iff.mp timedOut
      obtain ⟨told, htells, hclear⟩ := run_clear h script s (h.afterWait ids) [h.waitRequest timeout s ids]
      by_cases second : (script 1).IsClear (h.secondRequest s ids)
      · rw [htells.clear second] at hclear
        cases last : script 2 >>= lockOutcome with
        | ok reply =>
          have hlook := run_wait_of_ok h (TimeWord.pack 0 0) script s (h.afterWait ids).advance
            [h.waitRequest timeout s ids, h.secondRequest s ids] last
          exact ⟨_, _, _, _, Attempt.run_retryCleared_of_found hwait htimeout hclear hlook,
            .finds first timedOut second last⟩
        | error again =>
          have hlook := run_wait_of_error h (TimeWord.pack 0 0) script s (h.afterWait ids).advance
            [h.waitRequest timeout s ids, h.secondRequest s ids] last
          refine ⟨_, _, _, _, Attempt.run_retryCleared_of_missed hwait htimeout hclear hlook, ?_⟩
          by_cases nothing : again.FoundNothing
          · rw [if_pos (again.foundNothing_iff.mp nothing)]
            exact .misses first timedOut second last nothing
          · rw [if_neg (mt again.foundNothing_iff.mpr nothing)]
            exact .breaks first timedOut second last nothing
      · obtain ⟨other, second, isOther⟩ := Outcome.not_isClear_iff.mp second
        rw [htells.failed other second isOther] at hclear
        exact ⟨_, _, _, _, Attempt.run_retryCleared_of_uncleared hwait htimeout hclear,
          .sticks first timedOut second isOther⟩
    · have hother := mt failure.timedOut_iff.mpr timedOut
      exact ⟨_, _, _, _, Attempt.run_retryCleared_of_error hwait hother, .fails first timedOut⟩

end Course

section Consequences

variable {h : Waitable σ α} {timeout : TimeWord} {script : Nat → Outcome Reply} {s now : σ} {ids : IdSource}
  {told : Outcome α} {sent : List LockRequest}

/-- The requests come in the order wait, clear and last look, and no other. -/
private theorem Course.inOrder (hcourse : h.Course timeout script s ids told now sent) :
    sent <+: [h.waitRequest timeout s ids, h.secondRequest s ids, h.lastRequest s ids] := by
  cases hcourse with
  | succeeds | fails => exact ⟨[h.secondRequest s ids, h.lastRequest s ids], rfl⟩
  | sticks => exact ⟨[h.lastRequest s ids], rfl⟩
  | finds | misses | breaks => exact List.prefix_rfl

private theorem Course.length_pos (hcourse : h.Course timeout script s ids told now sent) : 0 < sent.length := by
  cases hcourse <;> exact Nat.succ_pos _

/-- The handle is cleared just if the wait timed out. -/
theorem Course.clears_iff (hcourse : h.Course timeout script s ids told now sent) :
    1 < sent.length ↔ (script 0).TimesOut := by
  cases hcourse with
  | succeeds first => simp [Outcome.not_timesOut_of_ok first]
  | fails first isOther => simp [Outcome.timesOut_iff_of_error first, isOther]
  | sticks first timedOut | finds first timedOut | misses first timedOut | breaks first timedOut =>
    simp [Outcome.timesOut_iff_of_error first, timedOut]

/-- There is another look just if the clear went well, too. -/
theorem Course.looks_iff (hcourse : h.Course timeout script s ids told now sent) :
    2 < sent.length ↔ (script 0).TimesOut ∧ (script 1).IsClear (h.secondRequest s ids) := by
  cases hcourse with
  | succeeds first => simp [Outcome.not_timesOut_of_ok first]
  | fails first isOther => simp [Outcome.timesOut_iff_of_error first, isOther]
  | sticks first timedOut second isOther =>
    have hstuck : ¬ (script 1).IsClear (h.secondRequest s ids) := Outcome.not_isClear_iff.mpr ⟨_, second, isOther⟩
    simp [hstuck]
  | finds first timedOut second | misses first timedOut second | breaks first timedOut second =>
    simp [Outcome.timesOut_iff_of_error first, timedOut, second]

private theorem Course.adopts (hcourse : h.Course timeout script s ids told now sent) {value : α}
    (htold : told = .ok value) : now = h.adopt s value := by
  cases hcourse <;> cases htold <;> rfl

private theorem Course.keeps (hcourse : h.Course timeout script s ids told now sent) {failure : Failure}
    (htold : told = .error failure) : now = s := by
  cases hcourse <;> first | rfl | cases htold

end Consequences

/-- How a wait that may clear and look once more runs against a script. -/
structure Retried (h : Waitable σ α) (timeout : TimeWord) (script : Nat → Outcome Reply) (s : σ) (ids : IdSource)
    (told : Outcome α) (now : σ) (sent : List LockRequest) : Prop where
  course : h.Course timeout script s ids told now sent
  inOrder : sent <+: [h.waitRequest timeout s ids, h.secondRequest s ids, h.lastRequest s ids]
  some_sent : 0 < sent.length
  atMost : sent.length ≤ 3
  clears_iff : 1 < sent.length ↔ (script 0).TimesOut
  looks_iff : 2 < sent.length ↔ (script 0).TimesOut ∧ (script 1).IsClear (h.secondRequest s ids)
  /-- The requests are those of a wait and of a clear by themselves. -/
  as_wait : ∀ timeout' script' ids',
    ((h.wait timeout').outcome.run (scripted script') ⟨s, ids', []⟩).2.peer = [h.waitRequest timeout' s ids']
  as_clear : ∀ script' ids', (h.clear.outcome.run (scripted script') ⟨s, ids', []⟩).2.peer = [h.clearRequest s ids']
  /-- The first wait is held back as long as asked for, the look not at all, and both have the same modifiers set. -/
  first_timeout : (h.waitRequest timeout s ids).timeout = timeout.withModifiers h.waitFlags
  last_timeout : (h.lastRequest s ids).timeout = TimeWord.pack 0 h.waitFlags
  adopts : ∀ value, told = .ok value → now = h.adopt s value
  keeps : ∀ failure, told = .error failure → now = s

/-- A wait that times out is followed by a clear, and that by one more look if all is clear then. What is told is what
the last request comes to, but for a look that finds nothing: then it is the failure of the first wait. -/
theorem timed_out_wait_looks_once (h : Waitable σ α) (timeout : TimeWord) (script : Nat → Outcome Reply) (s : σ)
    (ids : IdSource) : ∃ told now ids' sent,
      (h.waitRetryClear timeout).outcome.run (scripted script) ⟨s, ids, []⟩ = (told, ⟨now, ids', sent⟩) ∧
        h.Retried timeout script s ids told now sent := by
  obtain ⟨told, now, ids', sent, hrun, hcourse⟩ := exists_course h timeout script s ids
  refine ⟨told, now, ids', sent, hrun, ?_⟩
  have hzero : (TimeWord.pack 0 0).withModifiers h.waitFlags = TimeWord.pack 0 h.waitFlags := by
    simp [TimeWord.withModifiers]
  exact {
    course := hcourse
    inOrder := hcourse.inOrder
    some_sent := hcourse.length_pos
    atMost := hcourse.inOrder.length_le
    clears_iff := hcourse.clears_iff
    looks_iff := hcourse.looks_iff
    as_wait := fun timeout' script' ids' => wait_sends h timeout' script' s ids' []
    as_clear := fun script' ids' => clear_sends h script' s ids' []
    first_timeout := timeout_waitRequest h timeout s ids
    last_timeout := (timeout_waitRequest h _ s _).trans hzero
    adopts := fun _ => hcourse.adopts
    keeps := fun _ => hcourse.keeps }

/-- No answer comes in time, and the key turns out to be held still. -/
example (ids : IdSource) :
    let e : GroupEvent := ⟨0, LockKey.ofBytes [118], 7, .seconds 5, .seconds 60⟩
    let isHeld : Outcome Reply := .ok (.lock { (default : LockReply) with result := ResultCode.locked })
    let script := fun n => if n = 0 then .error (.timeout (Span.ofSeconds 1)) else isHeld
    let run := (e.waitRetryClear (.seconds 1)).outcome.run (scripted script) ⟨3, ids, []⟩
    run.1 = .error (.timeout (Span.ofSeconds 1)) ∧ run.2.state = 3 ∧ run.2.peer.length = 3 :=
  ⟨rfl, rfl, rfl⟩

end Waitable

end LockService
