import LockService.Call.Interleaving
import LockService.Call.Retry
import LockService.Primitive.Lock
import LockService.Proofs.Idents
import Mathlib.Data.Set.Basic

/-!
# Identifiers of requests and of locks

A call separates the identifiers that it draws when each of them goes either to a request or to locks: the identifier
of a request is the one drawn last before it, and everything else that was drawn may serve as the identifier of a lock
(`Call.Separates`). When all calls do, then in every interleaving of them the identifiers that were drawn are those of
the requests, each for one request only, and others, from which all locks have theirs (`Interleaving.accounts_run`).
-/

namespace LockService

variable {σ τ α β : Type}

/-- The identifiers in a list, besides those of a set. -/
def withAll (known : Set Ident) (ids : List Ident) : Set Ident := {id | id ∈ known ∨ id ∈ ids}

@[simp] theorem withAll_nil (known : Set Ident) : withAll known [] = known := by
  ext id
  simp [withAll]

private theorem withAll_append (known : Set Ident) (ids ids' : List Ident) :
    withAll known (ids ++ ids') = withAll (withAll known ids) ids' := by
  ext id
  simp [withAll, or_assoc]

theorem subset_withAll (known : Set Ident) (ids : List Ident) : known ⊆ withAll known ids := fun _ => .inl

theorem withAll_mono {known known' : Set Ident} (h : known ⊆ known') (ids : List Ident) :
    withAll known ids ⊆ withAll known' ids := fun _ => Or.imp_left (@h _)

namespace Call

/-- A call, when the identifiers in `known` are those of locks and `new` was drawn last and not used yet, takes
identifiers of locks only from those that it knows, and sends each request under the one that it drew last. What it
looks at holds identifiers of locks, and so does what it puts in its place. At its end `Q` holds of its value and of
the identifiers known and drawn last. -/
def Separates (held : σ → Set Ident) (Q : α → Set Ident → Option Ident → Prop) :
    Call σ α → Set Ident → Option Ident → Prop
  | done value, known, new => Q value known new
  | look next, known, new => ∀ s, (next s).Separates held Q (known ∪ held s) new
  | put s next, known, new =>
    held s ⊆ withAll known new.toList ∧ next.Separates held Q (withAll known new.toList) none
  | draw next, known, new => ∀ id, (next id).Separates held Q (withAll known new.toList) (some id)
  | send request next, known, new =>
    new = some request.requestId ∧ request.lockId ∈ known ∧ ∀ outcome, (next outcome).Separates held Q known none

/-- A call that separates identifiers, whatever its value. -/
abbrev Sorts (held : σ → Set Ident) (call : Call σ α) (known : Set Ident) (new : Option Ident) : Prop :=
  call.Separates held (fun _ _ _ => True) known new

variable {held : σ → Set Ident} {Q : α → Set Ident → Option Ident → Prop} {Q' : β → Set Ident → Option Ident → Prop}
  {call : Call σ α} {known known' : Set Ident} {new : Option Ident}

/-- A call that separates with what is known does so with more, if what it says of its value does not depend on it. -/
private theorem Separates.mono (h : call.Separates held Q known new) (hk : known ⊆ known')
    (hQ : ∀ value k k' n, k ⊆ k' → Q value k n → Q value k' n) : call.Separates held Q known' new := by
  induction call generalizing known known' new with
  | done value => exact hQ value _ _ _ hk h
  | look next ih => exact fun s => ih s (h s) (Set.union_subset_union_left _ hk)
  | put s next ih => exact ⟨h.1.trans (withAll_mono hk _), ih h.2 (withAll_mono hk _)⟩
  | draw next ih => exact fun id => ih id (h id) (withAll_mono hk _)
  | send request next ih => exact ⟨h.1, hk h.2.1, fun outcome => ih outcome (h.2.2 outcome) hk⟩

theorem Sorts.mono (h : call.Sorts held known new) (hk : known ⊆ known') : call.Sorts held known' new :=
  Separates.mono h hk fun _ _ _ _ _ => id

/-- What is known of the value may be weakened. -/
theorem Separates.imp {P : α → Set Ident → Option Ident → Prop} (h : call.Separates held Q known new)
    (hQ : ∀ value k n, Q value k n → P value k n) : call.Separates held P known new := by
  induction call generalizing known new with
  | done value => exact hQ value known new h
  | look next ih => exact fun s => ih s (h s)
  | put s next ih => exact ⟨h.1, ih h.2⟩
  | draw next ih => exact fun id => ih id (h id)
  | send request next ih => exact ⟨h.1, h.2.1, fun outcome => ih outcome (h.2.2 outcome)⟩

/-- A call that goes on with the value of another separates if both do, the second knowing what came out of the first.
-/
theorem Separates.bind (h : call.Separates held Q known new) {next : α → Call σ β}
    (hnext : ∀ value known' new', known ⊆ known' → Q value known' new' → (next value).Separates held Q' known' new') :
    (call >>= next).Separates held Q' known new := by
  show (Call.bind call next).Separates held Q' known new
  induction call generalizing known new with
  | done value => exact hnext value known new subset_rfl h
  | look _ ih =>
    exact fun s => ih s (h s) fun value k n hk => hnext value k n (Set.subset_union_left.trans hk)
  | put _ _ ih => exact ⟨h.1, ih h.2 fun value k n hk => hnext value k n ((subset_withAll _ _).trans hk)⟩
  | draw _ ih => exact fun id => ih id (h id) fun value k n hk => hnext value k n ((subset_withAll _ _).trans hk)
  | send _ _ ih => exact ⟨h.1, h.2.1, fun outcome => ih outcome (h.2.2 outcome) hnext⟩

/-- On a part of a larger state a call separates as it does on its own. -/
theorem Separates.within {read : τ → σ} {write : σ → τ → τ} {heldAll : τ → Set Ident}
    (hread : ∀ t, held (read t) ⊆ known ∪ heldAll t) (hwrite : ∀ s t, heldAll (write s t) ⊆ held s ∪ heldAll t)
    (h : call.Separates held Q known new) (hQ : ∀ value k k' n, k ⊆ k' → Q value k n → Q value k' n) :
    (call.within read write).Separates heldAll Q known new := by
  induction call generalizing known new with
  | done value => exact h
  | look next ih =>
    intro t
    refine ih (read t) (fun t' id hid => (hread t' hid).imp_left .inl) ((h (read t)).mono ?_ hQ)
    exact Set.union_subset Set.subset_union_left (hread t)
  | put part next ih =>
    intro t
    have hmore : withAll known new.toList ⊆ withAll (known ∪ heldAll t) new.toList :=
      withAll_mono Set.subset_union_left _
    refine ⟨(hwrite part t).trans (Set.union_subset (h.1.trans hmore) fun id hid => .inl (.inr hid)), ?_⟩
    exact ih (fun t' id hid => (hread t' hid).imp_left fun hid => .inl (.inl hid)) (h.2.mono hmore hQ)
  | draw next ih =>
    exact fun id => ih id (fun t' id hid => (hread t' hid).imp_left (@subset_withAll known _ _)) (h id)
  | send request next ih => exact ⟨h.1, h.2.1, fun outcome => ih outcome hread (h.2.2 outcome)⟩

end Call

/-! ### Attempts and postings -/

section Attempts

variable {held : σ → Set Ident} {known : Set Ident} {new : Option Ident}

namespace Attempt

open Call

/-- An attempt that cannot fail separates as the call does that it makes. -/
theorem separates_ofCall {Q : α → Set Ident → Option Ident → Prop} {call : Call σ α}
    (h : call.Separates held Q known new) :
    (ofCall call).outcome.Separates held (fun outcome k n => ∀ value ∈ outcome.toOption, Q value k n) known new :=
  h.bind fun _ _ _ _ hQ _ he => Option.some.inj he ▸ hQ

/-- An attempt goes on only with a value. -/
theorem sorts_bind_of {Q : α → Set Ident → Option Ident → Prop} {x : Attempt σ α} {f : α → Attempt σ β}
    (hx : x.outcome.Separates held (fun outcome k n => ∀ value ∈ outcome.toOption, Q value k n) known new)
    (hf : ∀ value k n, known ⊆ k → Q value k n → (f value).outcome.Sorts held k n) :
    (x >>= f).outcome.Sorts held known new := by
  have hbind : (x >>= f).outcome = x.outcome >>= ExceptT.bindCont f := rfl
  rw [hbind]
  refine Separates.bind hx fun outcome k n hk hQ => ?_
  cases outcome with
  | ok value => exact hf value k n hk (hQ value rfl)
  | error failure => trivial

/-- A chain of attempts separates if each link does. -/
theorem sorts_bind {x : Attempt σ α} {f : α → Attempt σ β} (hx : x.outcome.Sorts held known new)
    (hf : ∀ value k n, known ⊆ k → (f value).outcome.Sorts held k n) : (x >>= f).outcome.Sorts held known new :=
  sorts_bind_of (Q := fun _ _ _ => True) (hx.imp fun _ _ _ _ _ _ => trivial) fun value k n hk _ => hf value k n hk

theorem sorts_tolerating {x : Attempt σ α} (hx : x.outcome.Sorts held known new) (benign : Failure → Bool) :
    (x.tolerating benign).outcome.Sorts held known new :=
  hx.bind fun outcome _ _ _ _ => by cases outcome <;> trivial

/-- A retried wait separates if its wait, its clear and its last look do. -/
theorem sorts_retryCleared {wait look : Attempt σ α} {clear : Attempt σ β}
    (hwait : ∀ n, wait.outcome.Sorts held known n) (hclear : ∀ n, clear.outcome.Sorts held known n)
    (hlook : ∀ n, look.outcome.Sorts held known n) : (wait.retryCleared clear look).outcome.Sorts held known new := by
  refine Separates.bind (hwait new) fun outcome k n hk _ => ?_
  cases outcome with
  | ok value => trivial
  | error failure =>
    dsimp only
    split
    · refine Separates.bind ((hclear n).mono hk) fun cleared k' n' hk' _ => ?_
      cases cleared with
      | error other => trivial
      | ok _ =>
        refine Separates.bind ((hlook n').mono (hk.trans hk')) fun again _ _ _ _ => ?_
        cases again <;> trivial
    · trivial

end Attempt

namespace Lock

variable {lock : Lock}

/-- A request can be sent: its identifier was drawn last, and its lock's is known. -/
def IsReady (request : LockRequest) (known : Set Ident) (new : Option Ident) : Prop :=
  new = some request.requestId ∧ request.lockId ∈ known

/-- The lock's identifier was drawn last, or is known. -/
def IsNamed (lock : Lock) (known : Set Ident) (new : Option Ident) : Prop := lock.id ∈ withAll known new.toList

/-- The request of a named lock has an identifier of its own, drawn for it. -/
theorem separates_request (h : lock.IsNamed known new) (kind : CommandKind) (flag : UInt8) :
    (lock.request kind flag : Call σ LockRequest).Separates held IsReady known new := fun _ => ⟨rfl, h⟩

/-- A request to free the oldest holder names the zero identifier. -/
theorem separates_releaseHeadRequest (hzero : Ident.zero ∈ known) (lock : Lock) :
    (lock.releaseHeadRequest : Call σ LockRequest).Separates held IsReady known new :=
  fun _ => ⟨rfl, subset_withAll _ _ hzero⟩

private theorem sorts_execute {request : Call σ LockRequest} (h : request.Separates held IsReady known new) :
    (execute request).outcome.Sorts held known new :=
  h.bind fun _ _ _ _ hready => ⟨hready.1, hready.2, fun _ => trivial⟩

theorem sorts_acquireWith (h : lock.IsNamed known new) (flag : UInt8) :
    (lock.acquireWith flag).outcome.Sorts held known new := sorts_execute (separates_request h .lock flag)

theorem sorts_releaseWith (h : lock.IsNamed known new) (flag : UInt8) :
    (lock.releaseWith flag).outcome.Sorts held known new := sorts_execute (separates_request h .unlock flag)

theorem sorts_releaseHead (hzero : Ident.zero ∈ known) (lock : Lock) :
    (lock.releaseHead : Attempt σ LockReply).outcome.Sorts held known new :=
  sorts_execute (separates_releaseHeadRequest hzero lock)

end Lock

namespace Posting

/-- The request of a posting can be sent. -/
def IsReady (posting : Posting α) (known : Set Ident) (new : Option Ident) : Prop :=
  Lock.IsReady posting.request known new

theorem separates_post {request : Call σ LockRequest} (h : request.Separates held Lock.IsReady known new) :
    (do return Lock.post (← request) : Call σ (Posting (Outcome LockReply))).Separates held IsReady known new :=
  h.bind fun _ _ _ _ hready => hready

theorem separates_map {call : Call σ (Posting α)} (h : call.Separates held IsReady known new) (f : α → β) :
    (do return (← call).map f : Call σ (Posting β)).Separates held IsReady known new :=
  h.bind fun _ _ _ _ hready => hready

theorem sorts_followed {call : Call σ (Posting α)} (h : call.Separates held IsReady known new) :
    (followed call).Sorts held known new :=
  h.bind fun _ _ _ _ hready => ⟨hready.1, hready.2, fun _ => trivial⟩

end Posting

end Attempts

/-! ### Sections -/

/-- What a section of a call makes of the identifiers known and those drawn in it. -/
def Stage.Separates (held : σ → Set Ident) (known : Set Ident) (drawn : List Ident) (s : σ) : Stage σ α → Prop
  | .finished _ => held s ⊆ withAll known drawn
  | .waiting request resume => ∃ named, drawn = named ++ [request.requestId] ∧ request.lockId ∈ withAll known named ∧
    held s ⊆ withAll known named ∧ ∀ outcome, (resume outcome).Sorts held (withAll known named) none

private theorem Stage.Separates.prepend {held : σ → Set Ident} {known : Set Ident} {ids drawn : List Ident} {s : σ}
    {stage : Stage σ α} (h : stage.Separates held (withAll known ids) drawn s) :
    stage.Separates held known (ids ++ drawn) s := by
  cases stage with
  | finished value =>
    rw [Separates, withAll_append]
    exact h
  | waiting request resume =>
    obtain ⟨named, rfl, hlock, hheld, hresume⟩ := h
    refine ⟨ids ++ named, (List.append_assoc ..).symm, ?_⟩
    rw [withAll_append]
    exact ⟨hlock, hheld, hresume⟩

private theorem Call.Sorts.advance {held : σ → Set Ident} {call : Call σ α} {known : Set Ident} {new : Option Ident}
    (h : call.Sorts held known new) {s : σ} (hs : held s ⊆ known) (ids : IdSource) :
    ∃ j, (call.advance s ids).2.2 = IdSource.advance^[j] ids ∧
      (call.advance s ids).1.Separates held known (new.toList ++ ids.take j) (call.advance s ids).2.1 := by
  induction call generalizing known new s ids with
  | done value => exact ⟨0, rfl, hs.trans (subset_withAll _ _)⟩
  | look next ih =>
    have hnext : (next s).Sorts held known new := by
      have := h s
      rwa [Set.union_eq_self_of_subset_right hs] at this
    exact ih s hnext hs ids
  | put s' next ih =>
    obtain ⟨j, hj, hstage⟩ := ih h.2 h.1 ids
    exact ⟨j, hj, hstage.prepend⟩
  | draw next ih =>
    obtain ⟨j, hj, hstage⟩ := ih ids.upcoming (h ids.upcoming) (hs.trans (subset_withAll _ _)) ids.advance
    exact ⟨j + 1, hj, hstage.prepend⟩
  | send request next =>
    obtain ⟨rfl, hlock, hnext⟩ := h
    refine ⟨0, rfl, [], rfl, ?_⟩
    simp only [withAll_nil]
    exact ⟨hlock, hs, hnext⟩

/-! ### Interleavings -/

namespace Interleaving

/-- The identifiers that were drawn are those of the requests, each for one request, and those in `named`. All locks
have theirs from the latter, or were given them. -/
structure Accounts (held : σ → Set Ident) (given : Set Ident) (ids : IdSource) (named : List Ident)
    (p : Interleaving σ α) : Prop where
  drawn : ∃ k, p.ids = IdSource.advance^[k] ids ∧ (p.sent.map (·.requestId) ++ named).Perm (ids.take k)
  state : held p.state ⊆ withAll given named
  sent : ∀ request ∈ p.sent, request.lockId ∈ withAll given named
  resumes : ∀ u ∈ p.underWay, ∀ outcome, (u.resume outcome).Sorts held (withAll given named) none

variable {held : σ → Set Ident} {given : Set Ident} {ids : IdSource} {named : List Ident} {p : Interleaving σ α}

theorem accounts_fresh {s : σ} (hs : held s ⊆ given) (ids : IdSource) :
    Accounts held given ids [] ({ state := s, ids } : Interleaving σ α) where
  drawn := ⟨0, rfl, .refl _⟩
  state := by rwa [withAll_nil]
  sent _ hr := absurd hr List.not_mem_nil
  resumes _ hu := absurd hu List.not_mem_nil

private theorem Accounts.runSection (h : p.Accounts held given ids named) {call : Call σ α}
    (hcall : call.Sorts held (withAll given named) none) :
    ∃ more, (p.runSection call).Accounts held given ids (named ++ more) := by
  obtain ⟨k, hk, hperm⟩ := h.drawn
  obtain ⟨j, hj, hstage⟩ := hcall.advance h.state p.ids
  have hids : (call.advance p.state p.ids).2.2 = IdSource.advance^[j + k] ids := by
    rw [hj, hk, Function.iterate_add_apply]
  have htake : ids.take (k + j) = ids.take k ++ p.ids.take j := by rw [IdSource.take_add, hk]
  have hmore : ∀ more, withAll given named ⊆ withAll given (named ++ more) := fun more => by
    rw [withAll_append]
    exact subset_withAll _ _
  rw [Option.toList_none, List.nil_append] at hstage
  unfold Interleaving.runSection
  split
  · rename_i value state ids' heq
    simp only [heq] at hstage hids
    refine ⟨p.ids.take j, ⟨k + j, by rw [hids, Nat.add_comm], ?_⟩, ?_, fun r hr => hmore _ (h.sent r hr),
      fun u hu outcome => (h.resumes u hu outcome).mono (hmore _)⟩
    · rw [htake, ← List.append_assoc]
      exact hperm.append_right _
    · rw [withAll_append]
      exact hstage
  · rename_i request resume state ids' heq
    simp only [heq] at hstage hids
    obtain ⟨more, hdrawn, hlock, hheld, hresume⟩ := hstage
    refine ⟨more, ⟨k + j, by rw [hids, Nat.add_comm], ?_⟩, ?_, ?_, ?_⟩
    · rw [htake, hdrawn, List.map_append, List.map_singleton, List.append_assoc]
      have hlast : (p.sent.map (·.requestId) ++ ([request.requestId] ++ (named ++ more))).Perm
          ((p.sent.map (·.requestId) ++ named) ++ (more ++ [request.requestId])) := by
        rw [List.append_assoc, ← List.append_assoc named]
        exact List.perm_append_comm.append_left _
      exact hlast.trans (hperm.append_right _)
    · rw [withAll_append]
      exact hheld
    · intro r hr
      rcases List.mem_append.mp hr with hr | hr
      · exact hmore _ (h.sent r hr)
      · rw [List.mem_singleton.mp hr, withAll_append]
        exact hlock
    · intro u hu outcome
      rcases List.mem_append.mp hu with hu | hu
      · exact (h.resumes u hu outcome).mono (hmore _)
      · rw [List.mem_singleton.mp hu, withAll_append]
        exact hresume outcome

private theorem Accounts.step (h : p.Accounts held given ids named) {event : Event σ α}
    (hevent : ∀ call, event = .start call → call.Sorts held given none) :
    ∃ more, (p.step event).Accounts held given ids (named ++ more) := by
  cases event with
  | start call => exact h.runSection ((hevent call rfl).mono (subset_withAll _ _))
  | settle n outcome =>
    simp only [Interleaving.step]
    split
    · rename_i u hu
      have herased : Accounts held given ids named { p with underWay := p.underWay.eraseIdx n } :=
        ⟨h.drawn, h.state, h.sent, fun u' hu' => h.resumes u' (List.mem_of_mem_eraseIdx hu')⟩
      exact herased.runSection (h.resumes u (List.mem_of_getElem? hu) outcome)
    · exact ⟨[], by rwa [List.append_nil]⟩

/-- In any run of calls that separate, each identifier drawn goes to one request or to a lock. -/
theorem accounts_run (h : p.Accounts held given ids named) {events : List (Event σ α)}
    (hevents : ∀ call, .start call ∈ events → call.Sorts held given none) :
    ∃ more, (p.run events).Accounts held given ids (named ++ more) := by
  induction events generalizing p named with
  | nil => exact ⟨[], by rwa [List.append_nil]⟩
  | cons event events ih =>
    obtain ⟨more, hstep⟩ := h.step fun call he => hevents call (he ▸ List.mem_cons_self)
    obtain ⟨rest, hrun⟩ := ih hstep fun call hc => hevents call (List.mem_cons_of_mem _ hc)
    exact ⟨more ++ rest, by rwa [← List.append_assoc]⟩

private theorem Accounts.mono (h : p.Accounts held given ids named) {given' : Set Ident} (hg : given ⊆ given') :
    p.Accounts held given' ids named where
  drawn := h.drawn
  state := h.state.trans (withAll_mono hg _)
  sent request hr := withAll_mono hg _ (h.sent request hr)
  resumes u hu outcome := (h.resumes u hu outcome).mono (withAll_mono hg _)

private theorem Accounts.perm (h : p.Accounts held given ids named) :
    (p.sent.map (·.requestId) ++ named).Perm (ids.take (p.ids.drawn - ids.drawn)) := by
  obtain ⟨k, hk, hperm⟩ := h.drawn
  rwa [hk, IdSource.drawn_iterate, Nat.add_sub_cancel_left]

/-- The identifiers of the locks that the handle holds and of those that requests were sent for. -/
def lockIds (held : σ → Set Ident) (p : Interleaving σ α) : Set Ident :=
  held p.state ∪ {id | ∃ request ∈ p.sent, request.lockId = id}

/-- The identifiers of all locks are among those given and those drawn for locks. -/
private theorem Accounts.lockIds_subset (h : p.Accounts held given ids named) :
    p.lockIds held ⊆ withAll given named := by
  rintro id (hid | ⟨request, hr, rfl⟩)
  · exact h.state hid
  · exact h.sent request hr

/-- Up to 2³¹ identifiers, no two requests have the same one, and none has one that locks have. -/
theorem Accounts.nodup (h : p.Accounts held given ids named) (hdrawn : p.ids.drawn - ids.drawn ≤ 2147483648) :
    (p.sent.map (·.requestId) ++ named).Nodup := h.perm.nodup_iff.mpr (IdSource.nodup_take hdrawn ids)

/-- An identifier that a lock has and that was not given was drawn, and no request has it, now or later. -/
theorem Accounts.apart (h : p.Accounts held given ids named) {given' : Set Ident} (hg : given ⊆ given')
    {events : List (Event σ α)} (hevents : ∀ call, .start call ∈ events → call.Sorts held given' none)
    (hdrawn : (p.run events).ids.drawn - ids.drawn ≤ 2147483648) {id : Ident} (hid : id ∈ p.lockIds held)
    (hnot : id ∉ given) : id ∈ ids.take ((p.run events).ids.drawn - ids.drawn) ∧
      id ∉ (p.run events).sent.map (·.requestId) := by
  obtain ⟨more, hrun⟩ := accounts_run (h.mono hg) hevents
  have hnamed : id ∈ named ++ more := List.mem_append_left _ ((h.lockIds_subset hid).resolve_left hnot)
  have hdisjoint := (List.nodup_append'.mp (hrun.nodup hdrawn)).2.2
  exact ⟨hrun.perm.subset (List.mem_append_right _ hnamed), fun hsent => hdisjoint hsent hnamed⟩

end Interleaving

end LockService
