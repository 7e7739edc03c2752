import LockService.Primitive.EventUse
import LockService.Service.Holder
import Mathlib.Data.List.Induction

/-!
# Events are flags

An event that is set by default is clear while its key is held, one that is clear by default is set while its key is
held. Either way its callers see a flag: setting and clearing it succeed whatever it is, and asking for it gives what
the last of them made of it (`EventUse.event_is_flag`).
-/

namespace LockService

variable {σ τ : Type}

/-! ### Runs of an event's calls -/

namespace Event

section Runs

variable (respond : Responder τ) (e : Event) (scene : Scene σ τ)

private theorem run_postSet : Posting.run respond e.postSet scene = e.set.outcome.run respond scene := by
  unfold postSet set
  cases e.defaultSet <;> rfl

private theorem run_postClear : Posting.run respond e.postClear scene = e.clear.outcome.run respond scene := by
  unfold postClear clear
  cases e.defaultSet <;> rfl

/-- What a look at the event concludes from the lock answer. -/
def looked : Outcome LockReply → Outcome Bool
  | .ok _ => .ok true
  | .error failure => if failure.isLocked || failure.isTimeout then .ok false else .error failure

private theorem isSet_outcome : (e.isSet.outcome : Call σ (Outcome Bool)) =
    e.peek (TimeWord.pack 0 0) >>= fun lock => lock.acquire.outcome >>= fun outcome => pure (looked outcome) := by
  refine congrArg (e.peek (TimeWord.pack 0 0) >>= ·) (funext fun lock => ?_)
  refine congrArg (lock.acquire.outcome >>= ·) (funext fun outcome => ?_)
  cases outcome <;> rfl

/-- The request by which the event is asked for its flag. -/
def lookRequest (ids : IdSource) : LockRequest :=
  (e.peekAs (TimeWord.pack 0 0) ids.upcoming).requestWith .lock 0 ids.advance.upcoming

private theorem run_isSet : e.isSet.outcome.run respond scene =
    (looked ((respond scene.peer (e.lookRequest scene.ids)).1 >>= lockOutcome),
      { scene with
        ids := scene.ids.advance.advance
        peer := (respond scene.peer (e.lookRequest scene.ids)).2 }) := by
  rw [isSet_outcome]
  rfl

end Runs

/-! ### What the calls do on a service that keeps one holder -/

section Service

variable {respond : Responder τ} {dbId : UInt8} {key : LockKey} {holder : τ → Option Ident} {e : Event}

private theorem settled_of_ok {outcome : Outcome LockReply} {reply : LockReply} (h : outcome = .ok reply)
    (benign : Failure → Bool) : settled benign outcome = .ok () := by
  rw [h]
  rfl

private theorem settled_of_benign {outcome : Outcome LockReply} {failure : Failure} {benign : Failure → Bool}
    (h : outcome = .error failure) (hb : benign failure = true) : settled benign outcome = .ok () := by
  rw [h]
  exact if_pos hb

/-- The key is free or held under its own bytes, which is how events hold it. -/
def Held (key : LockKey) (holder : Option Ident) (held : Bool) : Prop :=
  holder = if held then some key.asIdent else none

private theorem marker_asks (hd : e.dbId = dbId) (hk : e.key = key) (kind : CommandKind) (flag : UInt8)
    (requestId : Ident) : (e.marker.requestWith kind flag requestId).Asks dbId key kind flag := by
  subst hd hk
  exact Lock.asks_requestWith rfl rfl kind flag requestId

private theorem run_mark (service : KeepsHolder respond dbId key holder) (hd : e.dbId = dbId) (hk : e.key = key)
    {scene : Scene σ τ} {held : Bool} (hheld : Held key (holder scene.peer) held) :
    (e.mark.outcome.run respond scene).1 = .ok () ∧
      Held key (holder (e.mark.outcome.run respond scene).2.peer) true := by
  have hasks := marker_asks hd hk .lock LockFlag.update scene.ids.upcoming
  have hid : (e.marker.requestWith .lock LockFlag.update scene.ids.upcoming).lockId = key.asIdent := by
    rw [← hk]
    rfl
  show settled Failure.isLocked ((respond scene.peer _).1 >>= lockOutcome) = .ok () ∧
    holder (respond scene.peer _).2 = some key.asIdent
  cases held with
  | false =>
    obtain ⟨hcode, hafter⟩ := service.update_free _ _ hasks hheld
    obtain ⟨reply, hreply⟩ := hcode.lockOutcome_ok
    exact ⟨settled_of_ok hreply _, hafter.trans (congrArg some hid)⟩
  | true =>
    obtain ⟨hcode, hafter⟩ := service.update_held _ _ _ hasks hheld
    rw [if_pos hid] at hcode
    obtain ⟨reply, hreply⟩ := hcode.lockOutcome_ok
    exact ⟨settled_of_ok hreply _, hafter⟩

private theorem run_unmark (service : KeepsHolder respond dbId key holder) (hd : e.dbId = dbId) (hk : e.key = key)
    {scene : Scene σ τ} {held : Bool} (hheld : Held key (holder scene.peer) held) :
    (e.unmark.outcome.run respond scene).1 = .ok () ∧
      Held key (holder (e.unmark.outcome.run respond scene).2.peer) false := by
  have hasks := marker_asks hd hk .unlock 0 scene.ids.upcoming
  have hid : (e.marker.requestWith .unlock 0 scene.ids.upcoming).lockId = key.asIdent := by
    rw [← hk]
    rfl
  show settled Failure.isUnlocked ((respond scene.peer _).1 >>= lockOutcome) = .ok () ∧
    holder (respond scene.peer _).2 = none
  cases held with
  | false =>
    obtain ⟨hcode, hafter⟩ := service.unlock_free _ _ hasks hheld
    obtain ⟨reply, hreply, hresult⟩ := hcode.lockOutcome_error (by decide)
    exact ⟨settled_of_benign hreply (Failure.isUnlocked_ofReply hresult), hafter⟩
  | true =>
    obtain ⟨hcode, hafter⟩ := service.unlock_held _ _ hasks (hheld.trans (congrArg some hid.symm))
    obtain ⟨reply, hreply⟩ := hcode.lockOutcome_ok
    exact ⟨settled_of_ok hreply _, hafter⟩

private theorem run_set (service : KeepsHolder respond dbId key holder) (hd : e.dbId = dbId) (hk : e.key = key)
    {scene : Scene σ τ} {held : Bool} (hheld : Held key (holder scene.peer) held) :
    (e.set.outcome.run respond scene).1 = .ok () ∧
      Held key (holder (e.set.outcome.run respond scene).2.peer) (true != e.defaultSet) := by
  unfold set
  cases e.defaultSet with
  | false => exact run_mark service hd hk hheld
  | true => exact run_unmark service hd hk hheld

/-- Clearing an event succeeds, whoever holds its lock, and clears it. -/
theorem run_clear (service : KeepsHolder respond dbId key holder) (hd : e.dbId = dbId) (hk : e.key = key)
    {scene : Scene σ τ} {held : Bool} (hheld : Held key (holder scene.peer) held) :
    (e.clear.outcome.run respond scene).1 = .ok () ∧
      Held key (holder (e.clear.outcome.run respond scene).2.peer) (false != e.defaultSet) := by
  unfold clear
  cases e.defaultSet with
  | false => exact run_unmark service hd hk hheld
  | true => exact run_mark service hd hk hheld

/-- What is asked for has been told. -/
theorem looked_of_tells {outcome : Outcome Reply} {wanted : Bool} (h : outcome.Tells wanted) :
    looked (outcome >>= lockOutcome) = .ok wanted := by
  cases wanted with
  | true =>
    obtain ⟨reply, hreply⟩ := Outcome.HasCode.lockOutcome_ok h
    rw [hreply]
    rfl
  | false =>
    rcases h with hcode | hcode
    · obtain ⟨reply, hreply, hresult⟩ := hcode.lockOutcome_error (by decide)
      rw [hreply]
      exact if_pos (by rw [Failure.isLocked_ofReply hresult, Bool.true_or])
    · obtain ⟨reply, hreply, hresult⟩ := hcode.lockOutcome_error (by decide)
      rw [hreply]
      exact if_pos (by rw [Failure.isTimeout_ofReply hresult, Bool.or_true])

/-- A look tells whether the event is set, and leaves its lock as it is. -/
private theorem run_isSet_of_held (service : KeepsHolder respond dbId key holder) (hd : e.dbId = dbId)
    (hk : e.key = key) {scene : Scene σ τ} (hids : scene.ids.upcoming ≠ key.asIdent) {held : Bool}
    (hheld : Held key (holder scene.peer) held) :
    (e.isSet.outcome.run respond scene).1 = .ok (held != e.defaultSet) ∧
      Held key (holder (e.isSet.outcome.run respond scene).2.peer) held := by
  have hasks : (e.lookRequest scene.ids).Asks dbId key .lock 0 := by
    subst hd hk
    exact Lock.asks_requestWith rfl rfl .lock 0 _
  have hother : holder scene.peer ≠ some (e.lookRequest scene.ids).lockId := by
    rw [hheld]
    cases held with
    | false => exact nofun
    | true => exact fun h => hids (Option.some.inj h).symm
  rw [run_isSet]
  cases hdef : e.defaultSet with
  | false =>
    have htimeout : (e.lookRequest scene.ids).timeout = TimeWord.pack 0 TimeoutFlag.reverseWait := by
      show e.waitWord _ = _
      rw [waitWord, hdef]
      decide
    obtain ⟨htells, hafter⟩ := service.lookReverse _ _ hasks htimeout rfl hother
    refine ⟨(looked_of_tells htells).trans (congrArg Except.ok ?_), hafter.trans hheld⟩
    rw [hheld]
    cases held <;> rfl
  | true =>
    have htimeout : (e.lookRequest scene.ids).timeout = TimeWord.pack 0 0 := by
      show e.waitWord _ = _
      rw [waitWord, hdef]
      rfl
    obtain ⟨htells, hafter⟩ := service.look _ _ hasks htimeout rfl hother
    refine ⟨(looked_of_tells htells).trans (congrArg Except.ok ?_), hafter.trans hheld⟩
    rw [hheld]
    cases held <;> rfl

end Service

end Event

/-! ### Uses one after the other -/

namespace EventUse

variable {respond : Responder τ} {dbId : UInt8} {key : LockKey} {holder : τ → Option Ident} {defaultSet : Bool}

/-- The event's flag and the lock on its key tell the same: the key is held while the event is not as by default. -/
def Shows (holder : τ → Option Ident) (key : LockKey) (defaultSet : Bool) (peer : τ) (flag : Bool) : Prop :=
  Event.Held key (holder peer) (flag != defaultSet)

/-- One use answers by the flag and leaves it as written. -/
theorem run_of_shows (service : KeepsHolder respond dbId key holder) {u : EventUse}
    (hu : u.Concerns dbId key defaultSet) (hids : u.ids.upcoming ≠ key.asIdent) {peer : τ} {flag : Bool}
    (hflag : Shows holder key defaultSet peer flag) :
    (u.run respond peer).1 = .ok (if u.call = .isSet then some flag else none) ∧
      Shows holder key defaultSet (u.run respond peer).2 (u.call.written?.getD flag) := by
  obtain ⟨e, call, ids⟩ := u
  obtain ⟨hd, hk, hdefault⟩ := hu
  subst hdefault
  let scene : Scene Unit τ := ⟨(), ids, peer⟩
  have hscene : Event.Held key (holder scene.peer) (flag != e.defaultSet) := hflag
  obtain ⟨hset, hafterSet⟩ := Event.run_set service hd hk hscene
  obtain ⟨hclear, hafterClear⟩ := Event.run_clear service hd hk hscene
  cases call with
  | set => exact ⟨congrArg (Except.map fun _ => none) hset, hafterSet⟩
  | clear => exact ⟨congrArg (Except.map fun _ => none) hclear, hafterClear⟩
  | postSet =>
    rw [← Event.run_postSet] at hset hafterSet
    exact ⟨congrArg (Except.map fun _ => none) hset, hafterSet⟩
  | postClear =>
    rw [← Event.run_postClear] at hclear hafterClear
    exact ⟨congrArg (Except.map fun _ => none) hclear, hafterClear⟩
  | isSet =>
    have hdrawn : scene.ids.upcoming ≠ key.asIdent := hids
    obtain ⟨hlook, hafter⟩ := Event.run_isSet_of_held service hd hk hdrawn hscene
    refine ⟨(congrArg (Except.map some) hlook).trans ?_, hafter⟩
    cases flag <;> cases e.defaultSet <;> rfl

/-- Whatever calls came before, the event is set exactly if the last call that changed it set it. -/
private theorem shows_serviceAfter (service : KeepsHolder respond dbId key holder) {peer : τ}
    (hfree : holder peer = none) {uses : List EventUse} (huses : ∀ u ∈ uses, u.Concerns dbId key defaultSet)
    (hids : ∀ u ∈ uses, u.ids.upcoming ≠ key.asIdent) :
    Shows holder key defaultSet (serviceAfter respond peer uses) (flagAfter defaultSet uses) := by
  induction uses using List.reverseRecOn with
  | nil =>
    have hdefault : (defaultSet != defaultSet) = false := by simp
    show Event.Held key (holder peer) (defaultSet != defaultSet)
    rw [hdefault]
    exact hfree
  | append_singleton uses u ih =>
    have hlast : u ∈ uses ++ [u] := List.mem_append_right _ List.mem_cons_self
    have hbefore := ih (fun v hv => huses v (List.mem_append_left _ hv)) fun v hv => hids v (List.mem_append_left _ hv)
    rw [serviceAfter_concat, flagAfter_concat]
    exact (run_of_shows service (huses u hlast) (hids u hlast) hbefore).2

/-- On a service that keeps one holder of its key, an event is a flag whatever its default is and whoever uses it:
setting and clearing it succeed, and a client that asks for it gets what the last of them made of it. -/
theorem event_is_flag (service : KeepsHolder respond dbId key holder) {peer : τ} (hfree : holder peer = none)
    (uses : List EventUse) (huses : ∀ u ∈ uses, u.Concerns dbId key defaultSet)
    (hids : ∀ u ∈ uses, u.ids.upcoming ≠ key.asIdent) :
    ∀ before u, before ++ [u] <+: uses → (u.run respond (serviceAfter respond peer before)).1 =
      .ok (if u.call = .isSet then some (flagAfter defaultSet before) else none) := by
  intro before u hbefore
  have hmem : ∀ v ∈ before ++ [u], v ∈ uses := fun v hv => hbefore.subset hv
  have hlast : u ∈ uses := hmem u (List.mem_append_right _ List.mem_cons_self)
  have hearlier : ∀ v ∈ before, v ∈ uses := fun v hv => hmem v (List.mem_append_left _ hv)
  have hshows := shows_serviceAfter service hfree (fun v hv => huses v (hearlier v hv))
    fun v hv => hids v (hearlier v hv)
  exact (run_of_shows service (huses u hlast) (hids u hlast) hshows).1

/-- Two clients with handles of their own on an event that is clear by default: one sets it, the other looks, clears
it with a callback, and the first looks. -/
def doorbell : List EventUse :=
  let key := LockKey.ofBytes [98, 101, 108, 108]
  let porch : Event := { dbId := 3, key, timeout := .seconds 5, expire := .seconds 60, defaultSet := false }
  let hall : Event := { porch with timeout := .seconds 0, expire := .seconds 90 }
  let porchIds := IdSource.seeded 10 fun _ => ⟨1700000000000, 7⟩
  let hallIds := IdSource.seeded 500 fun _ => ⟨1700000000000, 8⟩
  [⟨porch, .set, porchIds⟩, ⟨hall, .isSet, hallIds⟩, ⟨hall, .postClear, hallIds.advance.advance⟩,
    ⟨porch, .isSet, porchIds.advance⟩]

/-- The event is set at the first look and clear at the second. -/
theorem doorbell_rings_once :
    doorbell.map (·.call) = [.set, .isSet, .postClear, .isSet] ∧
      (doorbell[1].run singleHolder (serviceAfter singleHolder none (doorbell.take 1))).1 = .ok (some true) ∧
      (doorbell[3].run singleHolder (serviceAfter singleHolder none (doorbell.take 3))).1 = .ok (some false) := by
  have huses : ∀ u ∈ doorbell, u.Concerns 3 (LockKey.ofBytes [98, 101, 108, 108]) false := by
    intro u hu
    simp only [doorbell, List.mem_cons, List.not_mem_nil, or_false] at hu
    rcases hu with rfl | rfl | rfl | rfl <;> exact ⟨rfl, rfl, rfl⟩
  have hids : ∀ u ∈ doorbell, u.ids.upcoming ≠ (LockKey.ofBytes [98, 101, 108, 108]).asIdent := by decide
  have hflag := event_is_flag (keepsHolder_singleHolder 3 (LockKey.ofBytes [98, 101, 108, 108])) rfl doorbell huses hids
  refine ⟨rfl, ?_, ?_⟩
  · exact hflag (doorbell.take 1) doorbell[1] ( List.take_prefix 2 doorbell)
  · exact hflag (doorbell.take 3) doorbell[3] ( List.take_prefix 4 doorbell)

end EventUse

end LockService
