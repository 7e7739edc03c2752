import LockService.Proofs.Separation
import LockService.Rehearsal.Ensemble

/-!
# Identifiers of requests and of locks in the calls of an object

Every call of every object, awaited or with a callback, separates the identifiers of its requests from those of locks
(`Handle.sorts_call?`, `Handle.separates_posting?`), once the object's own identifiers are known. A request that frees
the oldest holder names none, so the zero identifier has to be known as well.
-/

namespace LockService

open Call Attempt

variable {σ α : Type} {held : σ → Set Ident} {known : Set Ident} {new : Option Ident}

/-! ### Semaphores and token buckets -/

namespace Semaphore

variable (h : Semaphore)

private theorem separates_slot : (h.slot : Call σ Lock).Separates held Lock.IsNamed known new :=
  fun _ => .inr List.mem_cons_self

private theorem sorts_acquire : (h.acquire : Attempt σ LockReply).outcome.Sorts held known new :=
  sorts_bind_of (separates_ofCall h.separates_slot) fun _ _ _ _ hlock => Lock.sorts_acquireWith hlock 0

private theorem sorts_release (hzero : Ident.zero ∈ known) :
    (h.release : Attempt σ LockReply).outcome.Sorts held known new :=
  sorts_bind_of (separates_ofCall h.separates_slot) fun lock _ _ hk _ => Lock.sorts_releaseHead (hk hzero) lock

private theorem sorts_releaseAllFrom (hzero : Ident.zero ∈ known) (fuel freed : Nat) :
    (h.releaseAllFrom fuel freed : Call σ _).Sorts held known new := by
  induction fuel generalizing known new freed with
  | zero => trivial
  | succ fuel ih =>
    refine Separates.bind (h.sorts_release hzero) fun outcome k n hk _ => ?_
    cases outcome with
    | ok reply => exact ih (hk hzero) (freed + 1)
    | error failure => trivial

private theorem separates_postAcquire :
    (h.postAcquire : Call σ _).Separates held Posting.IsReady known new :=
  h.separates_slot.bind fun _ _ _ _ hlock => Posting.separates_post (Lock.separates_request hlock .lock 0)

private theorem separates_postRelease (hzero : Ident.zero ∈ known) :
    (h.postRelease : Call σ _).Separates held Posting.IsReady known new :=
  h.separates_slot.bind fun lock _ _ hk _ =>
    Posting.separates_post (Lock.separates_releaseHeadRequest (hk hzero) lock)

end Semaphore

namespace TokenBucket

variable (h : TokenBucket)

private theorem sorts_takeSlot (expire : TimeWord) :
    (h.takeSlot expire : Attempt σ LockReply).outcome.Sorts held known new :=
  sorts_bind_of (Q := fun id => (h.slotAs expire id).IsNamed) (separates_ofCall fun _ => .inr List.mem_cons_self)
    fun _ _ _ _ hslot => Lock.sorts_acquireWith hslot 0

private theorem sorts_acquire (now : Nat) : (h.acquire now : Attempt σ LockReply).outcome.Sorts held known new := by
  refine Separates.bind (h.sorts_takeSlot (h.currentWindow now).expire) fun outcome k n _ _ => ?_
  cases outcome with
  | ok reply => trivial
  | error failure =>
    dsimp only
    split
    · exact h.sorts_takeSlot (periodExpire h.period)
    · trivial

end TokenBucket

/-! ### Objects that keep their locks -/

namespace ReentrantLock

variable (h : ReentrantLock)

private theorem separates_current : h.current.Separates State.lockIds (fun lock k _ => lock.id ∈ k) known new := by
  rintro ⟨_ | lock, depth⟩
  · intro id s
    refine ⟨?_, .inr List.mem_cons_self⟩
    rintro _ ⟨lock, hlock, rfl⟩
    cases hlock
    exact .inr List.mem_cons_self
  · exact .inr ⟨lock, rfl, rfl⟩

private theorem sorts_acquire : h.acquire.outcome.Sorts State.lockIds known new := by
  refine sorts_bind_of (separates_ofCall h.separates_current) fun lock k n _ hlock => ?_
  refine sorts_bind (Lock.sorts_acquireWith (subset_withAll _ _ hlock) 0) fun reply k n _ => ?_
  exact fun s => ⟨fun id hid => .inl (.inr hid), trivial⟩

private theorem sorts_release : h.release.outcome.Sorts State.lockIds known new := by
  rintro ⟨_ | lock, depth⟩
  · trivial
  · have hlock : lock.id ∈ known ∪ State.lockIds ⟨some lock, depth⟩ := .inr ⟨lock, rfl, rfl⟩
    refine sorts_bind (Lock.sorts_releaseWith (subset_withAll _ _ hlock) 0) fun reply k n _ s => ⟨?_, trivial⟩
    dsimp only
    split
    · rintro _ ⟨_, hnone, -⟩
      cases hnone
    · exact fun id hid => .inl (.inr hid)

end ReentrantLock

namespace ReadWriteLock

variable (h : ReadWriteLock)

private theorem sorts_acquireRead : h.acquireRead.outcome.Sorts State.lockIds known new := by
  refine sorts_bind_of (Q := fun id k n => id ∈ withAll k n.toList)
    (separates_ofCall fun _ => .inr List.mem_cons_self) fun id k n _ hid => ?_
  -- once the request is sent, the read's identifier is known
  have hacquire : ((h.readAs id).acquire : Attempt State LockReply).outcome.Separates State.lockIds
      (fun _ k _ => id ∈ k) k n := fun _ => ⟨rfl, hid, fun _ => hid⟩
  refine sorts_bind_of (hacquire.imp fun _ _ _ hk _ _ => hk) fun reply k n _ hk s => ⟨?_, trivial⟩
  rintro _ (⟨lock, hlock, rfl⟩ | ⟨lock, hlock, rfl⟩)
  · exact .inl (.inr (.inl ⟨lock, hlock, rfl⟩))
  · rcases List.mem_append.mp hlock with hlock | hlock
    · exact .inl (.inr (.inr ⟨lock, hlock, rfl⟩))
    · rw [List.mem_singleton.mp hlock]
      exact .inl (.inl hk)

private theorem separates_popRead :
    popRead.Separates State.lockIds (fun lock? k _ => ∀ lock ∈ lock?, lock.id ∈ k) known new := by
  rintro ⟨write, _ | ⟨lock, rest⟩⟩
  · nofun
  · intro s
    refine ⟨?_, ?_⟩
    · rintro id (⟨lock', hlock, rfl⟩ | ⟨lock', hlock, rfl⟩)
      · exact .inl (.inr (.inl ⟨lock', hlock, rfl⟩))
      · exact .inl (.inl (.inr (.inr ⟨lock', List.mem_cons_of_mem _ hlock, rfl⟩)))
    · rintro _ ⟨⟩
      exact .inl (.inl (.inr (.inr ⟨lock, List.mem_cons_self, rfl⟩)))

private theorem sorts_releaseRead : h.releaseRead.outcome.Sorts State.lockIds known new := by
  refine separates_popRead.bind fun lock? k n _ hlock => ?_
  cases lock? with
  | none => trivial
  | some lock =>
    have hknown : lock.id ∈ k := hlock lock rfl
    refine Separates.bind (Lock.sorts_releaseWith (subset_withAll _ _ hknown) 0) fun outcome k' n' hk _ => ?_
    cases outcome with
    | ok reply => trivial
    | error failure =>
      dsimp only
      split
      · intro s
        refine ⟨?_, trivial⟩
        rintro id (⟨lock', hlock', rfl⟩ | ⟨lock', hlock', rfl⟩)
        · exact .inl (.inr (.inl ⟨lock', hlock', rfl⟩))
        · rcases List.mem_cons.mp hlock' with rfl | hlock'
          · exact .inl (.inl (hk hknown))
          · exact .inl (.inr (.inr ⟨lock', hlock', rfl⟩))
      · trivial

private theorem separates_writer : h.writer.Separates State.lockIds (fun lock k _ => lock.id ∈ k) known new := by
  rintro ⟨_ | lock, reads⟩
  · intro id s
    refine ⟨?_, .inr List.mem_cons_self⟩
    rintro _ (⟨lock, hlock, rfl⟩ | hread)
    · cases hlock
      exact .inr List.mem_cons_self
    · exact .inl (.inr (.inr hread))
  · exact .inr (.inl ⟨lock, rfl, rfl⟩)

private theorem sorts_acquireWrite : h.acquireWrite.outcome.Sorts State.lockIds known new :=
  sorts_bind_of (separates_ofCall h.separates_writer) fun _ _ _ _ hlock =>
    Lock.sorts_acquireWith (subset_withAll _ _ hlock) 0

private theorem sorts_releaseWrite : h.releaseWrite.outcome.Sorts State.lockIds known new := by
  rintro ⟨_ | lock, reads⟩
  · trivial
  · exact Lock.sorts_releaseWith (subset_withAll _ _ (.inr (.inl ⟨lock, rfl, rfl⟩))) 0

end ReadWriteLock

namespace FlowLimit

variable (h : FlowLimit)

private theorem separates_current : h.current.Separates lockIds (fun lock k _ => lock.id ∈ k) known new := by
  rintro (_ | lock)
  · intro id
    have hid : (h.lockAs id).id = id := by
      unfold lockAs
      split <;> rfl
    refine ⟨?_, ?_⟩
    · rintro _ ⟨lock, hlock, rfl⟩
      cases hlock
      rw [hid]
      exact .inr List.mem_cons_self
    · show (h.lockAs id).id ∈ _
      rw [hid]
      exact .inr List.mem_cons_self
  · exact .inr ⟨lock, rfl, rfl⟩

private theorem sorts_acquire : h.acquire.outcome.Sorts lockIds known new :=
  sorts_bind_of (separates_ofCall h.separates_current) fun _ _ _ _ hlock =>
    Lock.sorts_acquireWith (subset_withAll _ _ hlock) 0

private theorem sorts_release : h.release.outcome.Sorts lockIds known new := by
  rintro (_ | lock)
  · trivial
  · exact Lock.sorts_releaseWith (subset_withAll _ _ (.inr ⟨lock, rfl, rfl⟩)) 0

private theorem separates_postAcquire : h.postAcquire.Separates lockIds Posting.IsReady known new :=
  h.separates_current.bind fun _ _ _ _ hlock =>
    Posting.separates_post (Lock.separates_request (subset_withAll _ _ hlock) .lock 0)

private theorem separates_postRelease : h.postRelease.Separates lockIds Posting.IsReady known new :=
  h.separates_current.bind fun _ _ _ _ hlock =>
    Posting.separates_post (Lock.separates_request (subset_withAll _ _ hlock) .unlock 0)

end FlowLimit

/-! ### Objects whose locks have identifiers that were given -/

namespace TreeLeaf

variable {leaf : TreeLeaf}

private theorem sorts_acquire (hleaf : (Handle.leaf leaf).lockIds ⊆ known) :
    (leaf.acquire : Attempt σ LockReply).outcome.Sorts held known new := by
  have hlock : leaf.lock.id ∈ known := hleaf (.inl rfl)
  have hkey : leaf.node.key.asIdent ∈ known := hleaf (.inr (.inl rfl))
  unfold acquire
  cases hp : leaf.node.parent with
  | none => exact Lock.sorts_acquireWith (subset_withAll _ _ hlock) 0
  | some parent =>
    have hparent : parent.asIdent ∈ known := hleaf (.inr (.inr ⟨parent, hp, rfl⟩))
    refine sorts_bind (sorts_tolerating (Lock.sorts_acquireWith (subset_withAll _ _ hkey) _) _) fun _ k n hk => ?_
    refine sorts_bind (sorts_tolerating (Lock.sorts_acquireWith (subset_withAll _ _ (hk hparent)) _) _)
      fun _ k' n' hk' => ?_
    exact Lock.sorts_acquireWith (subset_withAll _ _ (hk' (hk hlock))) 0

private theorem sorts_release (hleaf : (Handle.leaf leaf).lockIds ⊆ known) :
    (leaf.release : Attempt σ LockReply).outcome.Sorts held known new := by
  have hlock : leaf.lock.id ∈ known := hleaf (.inl rfl)
  have hkey : leaf.node.key.asIdent ∈ known := hleaf (.inr (.inl rfl))
  unfold release
  refine sorts_bind (Lock.sorts_releaseWith (subset_withAll _ _ hlock) 0) fun reply k n hk => ?_
  cases hp : leaf.node.parent with
  | none => trivial
  | some parent =>
    have hparent : parent.asIdent ∈ known := hleaf (.inr (.inr ⟨parent, hp, rfl⟩))
    refine sorts_bind (sorts_tolerating (Lock.sorts_releaseWith (subset_withAll _ _ (hk hkey)) _) _)
      fun _ k' n' hk' => ?_
    refine sorts_bind (sorts_tolerating (Lock.sorts_releaseWith (subset_withAll _ _ (hk' (hk hparent))) _) _)
      fun _ _ _ _ => ?_
    trivial

end TreeLeaf

namespace Event

variable {e : Event}

private theorem separates_peek (timeout : TimeWord) :
    (e.peek timeout : Call σ Lock).Separates held Lock.IsNamed known new :=
  fun _ => .inr List.mem_cons_self

private theorem sorts_wait (timeout : TimeWord) : (e.wait timeout : Attempt σ Unit).outcome.Sorts held known new :=
  sorts_bind_of (separates_ofCall (separates_peek timeout)) fun _ _ _ _ hlock =>
    sorts_bind (Lock.sorts_acquireWith hlock 0) fun _ _ _ _ => trivial

private theorem sorts_isSet : (e.isSet : Attempt σ Bool).outcome.Sorts held known new := by
  refine (separates_peek (e := e) (TimeWord.pack 0 0)).bind fun lock k n _ hlock => ?_
  refine Separates.bind (Lock.sorts_acquireWith hlock 0) fun outcome _ _ _ _ => ?_
  cases outcome <;> trivial

section Marker

variable (hkey : e.key.asIdent ∈ known)

include hkey

private theorem isNamed_marker : e.marker.IsNamed known new := subset_withAll _ _ hkey

private theorem sorts_mark : (e.mark : Attempt σ Unit).outcome.Sorts held known new :=
  Separates.bind (Lock.sorts_acquireWith (isNamed_marker hkey) _) fun _ _ _ _ _ => trivial

private theorem sorts_unmark : (e.unmark : Attempt σ Unit).outcome.Sorts held known new :=
  Separates.bind (Lock.sorts_releaseWith (isNamed_marker hkey) _) fun _ _ _ _ _ => trivial

private theorem sorts_set : (e.set : Attempt σ Unit).outcome.Sorts held known new := by
  unfold set
  split
  · exact sorts_unmark hkey
  · exact sorts_mark hkey

private theorem sorts_clear : (e.clear : Attempt σ Unit).outcome.Sorts held known new := by
  unfold clear
  split
  · exact sorts_mark hkey
  · exact sorts_unmark hkey

private theorem sorts_waitRetryClear (timeout : TimeWord) :
    (e.waitRetryClear timeout : Attempt σ Unit).outcome.Sorts held known new :=
  sorts_retryCleared (fun _ => sorts_wait timeout) (fun _ => sorts_clear hkey) fun _ => sorts_wait _

private theorem separates_postMark : (e.postMark : Call σ _).Separates held Posting.IsReady known new :=
  Posting.separates_map (Posting.separates_post
    (Lock.separates_request (isNamed_marker hkey) .lock LockFlag.update)) _

private theorem separates_postUnmark : (e.postUnmark : Call σ _).Separates held Posting.IsReady known new :=
  Posting.separates_map (Posting.separates_post (Lock.separates_request (isNamed_marker hkey) .unlock 0)) _

private theorem separates_postSet : (e.postSet : Call σ _).Separates held Posting.IsReady known new := by
  unfold postSet
  split
  · exact separates_postUnmark hkey
  · exact separates_postMark hkey

private theorem separates_postClear : (e.postClear : Call σ _).Separates held Posting.IsReady known new := by
  unfold postClear
  split
  · exact separates_postMark hkey
  · exact separates_postUnmark hkey

end Marker

private theorem separates_postWait (timeout : TimeWord) :
    (e.postWait timeout : Call σ _).Separates held Posting.IsReady known new :=
  (separates_peek (e := e) timeout).bind fun _ _ _ _ hlock =>
    Posting.separates_map (Posting.separates_post (Lock.separates_request hlock .lock 0)) _

end Event

namespace GroupEvent

variable {e : GroupEvent} {s : State}

/-- The version in the handle is not an identifier; those that it gives are known beforehand. -/
def holdsNone (_ : State) : Set Ident := ∅

section Versions

variable (hversions : (Handle.group e s).lockIds ⊆ known)

include hversions

private theorem sorts_lockAt_acquire (version : UInt64) (timeout expire : TimeWord) :
    ((e.lockAt version e.clientId timeout expire).acquire : Attempt σ LockReply).outcome.Sorts held known new :=
  Lock.sorts_acquireWith (subset_withAll _ _ (hversions ⟨version, .inl rfl⟩)) 0

private theorem sorts_raiseLock (version : UInt64) : (e.raiseLock version).outcome.Sorts holdsNone known new :=
  Lock.sorts_acquireWith (subset_withAll _ _ (hversions ⟨version, .inl rfl⟩)) _

private theorem sorts_isSet : e.isSet.outcome.Sorts holdsNone known new := by
  intro version
  refine Separates.bind ((sorts_lockAt_acquire hversions version _ _).mono Set.subset_union_left)
    fun outcome _ _ _ _ => ?_
  cases outcome <;> trivial

private theorem sorts_clear : e.clear.outcome.Sorts holdsNone known new := by
  intro version
  refine sorts_bind (sorts_tolerating (Lock.sorts_acquireWith ?_ _) _) fun _ _ _ _ => trivial
  exact subset_withAll _ _ (.inl (hversions ⟨version, .inr rfl⟩))

private theorem sorts_wait (timeout : TimeWord) : (e.wait timeout).outcome.Sorts holdsNone known new := by
  intro version
  refine sorts_bind ((sorts_lockAt_acquire hversions version _ _).mono Set.subset_union_left) fun reply k n _ s => ?_
  exact ⟨Set.empty_subset _, trivial⟩

private theorem sorts_waitRetryClear (timeout : TimeWord) :
    (e.waitRetryClear timeout).outcome.Sorts holdsNone known new :=
  sorts_retryCleared (fun _ => sorts_wait hversions timeout) (fun _ => sorts_clear hversions) fun _ =>
    sorts_wait hversions _

private theorem sorts_wakeup : e.wakeup.outcome.Sorts holdsNone known new := by
  intro version
  have hraise : (e.raiseLock (version + 1)).outcome.Sorts holdsNone (known ∪ holdsNone version) new :=
    (sorts_raiseLock hversions _).mono Set.subset_union_left
  refine hraise.bind fun outcome k n hk _ => ?_
  cases outcome with
  | ok reply => exact fun s => ⟨Set.empty_subset _, trivial⟩
  | error failure =>
    dsimp only
    split
    · have hknown : known ⊆ k := Set.subset_union_left.trans hk
      refine Separates.bind ((sorts_raiseLock hversions _).mono hknown) fun again _ _ _ _ => ?_
      cases again with
      | ok reply => exact fun s => ⟨Set.empty_subset _, trivial⟩
      | error failure => trivial
    · trivial

end Versions

private theorem sorts_set (hzero : Ident.zero ∈ known) : e.set.outcome.Sorts holdsNone known new := by
  intro version
  exact sorts_bind (sorts_tolerating (Lock.sorts_releaseHead (.inl hzero) _) _) fun _ _ _ _ => trivial

end GroupEvent

/-! ### All calls of an object -/

namespace Handle

private theorem sorts_attempt {a : Attempt σ α} (h : a.outcome.Sorts held known new) (value : α → CallValue) :
    (attempt value a).Sorts held known new := h.bind fun _ _ _ _ _ => trivial

private theorem separates_posted {call : Call σ (Posting (Outcome α))}
    (h : call.Separates held Posting.IsReady known new)
    (value : α → CallValue) : (posted value call).Separates held Posting.IsReady known new :=
  Posting.separates_map h _

section Parts

variable {Q : α → Set Ident → Option Ident → Prop} (hQ : ∀ value k k' n, k ⊆ k' → Q value k n → Q value k' n)

include hQ

private theorem separates_onReentrant {call : Call ReentrantLock.State α}
    (h : call.Separates ReentrantLock.State.lockIds Q known new) :
    (onReentrant call).Separates lockIds Q known new := by
  refine h.within (fun t => ?_) (fun s t => ?_) hQ
  · cases t with
    | reentrant h s => exact Set.subset_union_right
    | _ => rintro _ ⟨_, hnone, -⟩; cases hnone
  · cases t with
    | reentrant h _ => exact Set.subset_union_left
    | _ => exact Set.subset_union_right

private theorem separates_onReadWrite {call : Call ReadWriteLock.State α}
    (h : call.Separates ReadWriteLock.State.lockIds Q known new) :
    (onReadWrite call).Separates lockIds Q known new := by
  refine h.within (fun t => ?_) (fun s t => ?_) hQ
  · cases t with
    | readWrite h s => exact Set.subset_union_right
    | _ => rintro _ (⟨_, hnone, -⟩ | ⟨_, hnone, -⟩) <;> cases hnone
  · cases t with
    | readWrite h _ => exact Set.subset_union_left
    | _ => exact Set.subset_union_right

private theorem separates_onFlow {call : Call FlowLimit.State α} (h : call.Separates FlowLimit.lockIds Q known new) :
    (onFlow call).Separates lockIds Q known new := by
  refine h.within (fun t => ?_) (fun s t => ?_) hQ
  · cases t with
    | flow h s => exact Set.subset_union_right
    | _ => rintro _ ⟨_, hnone, -⟩; cases hnone
  · cases t with
    | flow h _ => exact Set.subset_union_left
    | _ => exact Set.subset_union_right

private theorem separates_onGroup {call : Call GroupEvent.State α}
    (h : call.Separates GroupEvent.holdsNone Q known new) : (onGroup call).Separates lockIds Q known new := by
  refine h.within (fun t => Set.empty_subset _) (fun s t => ?_) hQ
  cases t <;> exact Set.subset_union_right

end Parts

section Calls

variable {now fuel : Nat} {op : Operation} {call : Call Handle CallResult}

/-- Nothing is asked of the result of an awaited call, whatever is known when it is over. -/
private theorem kept (_ : CallResult) (k k' : Set Ident) (_ : Option Ident) (_ : k ⊆ k') (h : True) : True := h

private theorem sorts_call_lock {h : Lock} (hcall : (lock h).call? now fuel op = some call)
    (hzero : Ident.zero ∈ known) (hh : (lock h).lockIds ⊆ known) : call.Sorts lockIds known new := by
  have hid : h.IsNamed known new := subset_withAll _ _ (hh rfl)
  cases op with
  | acquire | acquireWith | update | showHolder => cases hcall; exact sorts_attempt (Lock.sorts_acquireWith hid _) _
  | release | releaseWith => cases hcall; exact sorts_attempt (Lock.sorts_releaseWith hid _) _
  | releaseHead => cases hcall; exact sorts_attempt (Lock.sorts_releaseHead hzero h) _
  | request kind flag => cases hcall; exact (Lock.separates_request hid kind flag).bind fun _ _ _ _ _ => trivial
  | _ => cases hcall

private theorem sorts_call_reentrant {h : ReentrantLock} {s : ReentrantLock.State}
    (hcall : (reentrant h s).call? now fuel op = some call) : call.Sorts lockIds known new := by
  cases op with
  | acquire => cases hcall; exact separates_onReentrant kept (sorts_attempt h.sorts_acquire _)
  | release => cases hcall; exact separates_onReentrant kept (sorts_attempt h.sorts_release _)
  | _ => cases hcall

private theorem sorts_call_readWrite {h : ReadWriteLock} {s : ReadWriteLock.State}
    (hcall : (readWrite h s).call? now fuel op = some call) : call.Sorts lockIds known new := by
  cases op with
  | acquireRead => cases hcall; exact separates_onReadWrite kept (sorts_attempt h.sorts_acquireRead _)
  | releaseRead => cases hcall; exact separates_onReadWrite kept (sorts_attempt h.sorts_releaseRead _)
  | acquireWrite => cases hcall; exact separates_onReadWrite kept (sorts_attempt h.sorts_acquireWrite _)
  | releaseWrite => cases hcall; exact separates_onReadWrite kept (sorts_attempt h.sorts_releaseWrite _)
  | _ => cases hcall

private theorem sorts_call_semaphore {h : Semaphore} (hcall : (semaphore h).call? now fuel op = some call)
    (hzero : Ident.zero ∈ known) : call.Sorts lockIds known new := by
  cases op with
  | acquire => cases hcall; exact sorts_attempt h.sorts_acquire _
  | release => cases hcall; exact sorts_attempt (h.sorts_release hzero) _
  | releaseAll =>
    cases hcall
    refine (h.sorts_releaseAllFrom hzero fuel 0).bind fun freed _ _ _ _ => ?_
    cases freed <;> trivial
  | _ => cases hcall

private theorem sorts_call_flow {h : FlowLimit} {s : FlowLimit.State}
    (hcall : (flow h s).call? now fuel op = some call) : call.Sorts lockIds known new := by
  cases op with
  | acquire => cases hcall; exact separates_onFlow kept (sorts_attempt h.sorts_acquire _)
  | release => cases hcall; exact separates_onFlow kept (sorts_attempt h.sorts_release _)
  | _ => cases hcall

private theorem sorts_call_bucket {h : TokenBucket} (hcall : (bucket h).call? now fuel op = some call) :
    call.Sorts lockIds known new := by
  cases op with
  | acquire => cases hcall; exact sorts_attempt (h.sorts_acquire now) _
  | _ => cases hcall

private theorem sorts_call_leaf {h : TreeLeaf} (hcall : (leaf h).call? now fuel op = some call)
    (hh : (leaf h).lockIds ⊆ known) : call.Sorts lockIds known new := by
  cases op with
  | acquire => cases hcall; exact sorts_attempt (TreeLeaf.sorts_acquire hh) _
  | release => cases hcall; exact sorts_attempt (TreeLeaf.sorts_release hh) _
  | _ => cases hcall

private theorem sorts_call_event {h : Event} (hcall : (event h).call? now fuel op = some call)
    (hh : (event h).lockIds ⊆ known) : call.Sorts lockIds known new := by
  have hkey : h.key.asIdent ∈ known := hh rfl
  cases op with
  | isSet => cases hcall; exact sorts_attempt Event.sorts_isSet _
  | set => cases hcall; exact sorts_attempt (Event.sorts_set hkey) _
  | clear => cases hcall; exact sorts_attempt (Event.sorts_clear hkey) _
  | wait timeout => cases hcall; exact sorts_attempt (Event.sorts_wait timeout) _
  | waitRetryClear timeout => cases hcall; exact sorts_attempt (Event.sorts_waitRetryClear hkey timeout) _
  | _ => cases hcall

private theorem sorts_call_group {h : GroupEvent} {s : GroupEvent.State}
    (hcall : (group h s).call? now fuel op = some call) (hzero : Ident.zero ∈ known)
    (hh : (group h s).lockIds ⊆ known) : call.Sorts lockIds known new := by
  cases op with
  | isSet => cases hcall; exact separates_onGroup kept (sorts_attempt (GroupEvent.sorts_isSet hh) _)
  | set => cases hcall; exact separates_onGroup kept (sorts_attempt (GroupEvent.sorts_set hzero) _)
  | clear => cases hcall; exact separates_onGroup kept (sorts_attempt (GroupEvent.sorts_clear hh) _)
  | wakeup => cases hcall; exact separates_onGroup kept (sorts_attempt (GroupEvent.sorts_wakeup hh) _)
  | wait timeout => cases hcall; exact separates_onGroup kept (sorts_attempt (GroupEvent.sorts_wait hh timeout) _)
  | waitRetryClear timeout =>
    cases hcall
    exact separates_onGroup kept (sorts_attempt (GroupEvent.sorts_waitRetryClear hh timeout) _)
  | _ => cases hcall

private theorem sorts_call_priority {h : PriorityLock} (hcall : (priority h).call? now fuel op = some call)
    (hh : (priority h).lockIds ⊆ known) : call.Sorts lockIds known new := by
  have hid : h.lock.IsNamed known new := subset_withAll _ _ (hh rfl)
  cases op with
  | acquire => cases hcall; exact sorts_attempt (Lock.sorts_acquireWith hid 0) _
  | release => cases hcall; exact sorts_attempt (Lock.sorts_releaseWith hid 0) _
  | _ => cases hcall

/-- Every awaited call of an object whose identifiers are known keeps the identifiers of its requests apart from those
of locks. -/
theorem sorts_call? {h : Handle} (hcall : h.call? now fuel op = some call) (hzero : Ident.zero ∈ known)
    (hh : h.lockIds ⊆ known) : call.Sorts lockIds known new := by
  cases h with
  | lock h => exact sorts_call_lock hcall hzero hh
  | reentrant h s => exact sorts_call_reentrant hcall
  | readWrite h s => exact sorts_call_readWrite hcall
  | semaphore h => exact sorts_call_semaphore hcall hzero
  | flow h s => exact sorts_call_flow hcall
  | bucket h => exact sorts_call_bucket hcall
  | tree h => cases hcall
  | leaf h => exact sorts_call_leaf hcall hh
  | event h => exact sorts_call_event hcall hh
  | group h s => exact sorts_call_group hcall hzero hh
  | priority h => exact sorts_call_priority hcall hh

end Calls

section Postings

variable {op : Operation} {call : Call Handle (Posting CallResult)}

private theorem separates_posting_lock {h : Lock} (hcall : (lock h).posting? op = some call)
    (hh : (lock h).lockIds ⊆ known) : call.Separates lockIds Posting.IsReady known new := by
  have hid : h.IsNamed known new := subset_withAll _ _ (hh rfl)
  cases op with
  | postAcquire flag =>
    cases hcall; exact separates_posted (Posting.separates_post (Lock.separates_request hid .lock flag)) _
  | postRelease flag =>
    cases hcall; exact separates_posted (Posting.separates_post (Lock.separates_request hid .unlock flag)) _
  | _ => cases hcall

private theorem separates_posting_semaphore {h : Semaphore} (hcall : (semaphore h).posting? op = some call)
    (hzero : Ident.zero ∈ known) : call.Separates lockIds Posting.IsReady known new := by
  cases op with
  | postAcquire flag => cases hcall; exact separates_posted h.separates_postAcquire _
  | postRelease flag => cases hcall; exact separates_posted (h.separates_postRelease hzero) _
  | _ => cases hcall

private theorem separates_posting_flow {h : FlowLimit} {s : FlowLimit.State}
    (hcall : (flow h s).posting? op = some call) : call.Separates lockIds Posting.IsReady known new := by
  have hQ : ∀ (value : Posting CallResult) (k k' : Set Ident) (n : Option Ident), k ⊆ k' →
      Posting.IsReady value k n → Posting.IsReady value k' n := fun _ _ _ _ hk h => ⟨h.1, hk h.2⟩
  cases op with
  | postAcquire flag => cases hcall; exact separates_onFlow hQ (separates_posted h.separates_postAcquire _)
  | postRelease flag => cases hcall; exact separates_onFlow hQ (separates_posted h.separates_postRelease _)
  | _ => cases hcall

private theorem separates_posting_event {h : Event} (hcall : (event h).posting? op = some call)
    (hh : (event h).lockIds ⊆ known) : call.Separates lockIds Posting.IsReady known new := by
  have hkey : h.key.asIdent ∈ known := hh rfl
  cases op with
  | postSet => cases hcall; exact separates_posted (Event.separates_postSet hkey) _
  | postClear => cases hcall; exact separates_posted (Event.separates_postClear hkey) _
  | postWait timeout => cases hcall; exact separates_posted (Event.separates_postWait timeout) _
  | _ => cases hcall

private theorem separates_posting_priority {h : PriorityLock} (hcall : (priority h).posting? op = some call)
    (hh : (priority h).lockIds ⊆ known) : call.Separates lockIds Posting.IsReady known new := by
  have hid : h.lock.IsNamed known new := subset_withAll _ _ (hh rfl)
  cases op with
  | postAcquire flag =>
    cases hcall; exact separates_posted (Posting.separates_post (Lock.separates_request hid .lock 0)) _
  | postRelease flag =>
    cases hcall; exact separates_posted (Posting.separates_post (Lock.separates_request hid .unlock 0)) _
  | _ => cases hcall

/-- Every call with a callback of an object whose identifiers are known keeps the identifier of its request apart from
those of locks. -/
theorem separates_posting? {h : Handle} (hcall : h.posting? op = some call) (hzero : Ident.zero ∈ known)
    (hh : h.lockIds ⊆ known) : call.Separates lockIds Posting.IsReady known new := by
  cases h with
  | lock h => exact separates_posting_lock hcall hh
  | semaphore h => exact separates_posting_semaphore hcall hzero
  | flow h s => exact separates_posting_flow hcall
  | event h => exact separates_posting_event hcall hh
  | priority h => exact separates_posting_priority hcall hh
  | _ => cases hcall

end Postings

end Handle

end LockService
