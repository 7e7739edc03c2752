import LockService.Primitive.ReentrantUse
import Mathlib.Data.List.Induction
import Mathlib.Data.List.Infix

/-!
# When a shared reentrant lock forgets its identifier

A release that brings the depth to zero drops the lock, also when an acquire that was sent under its identifier still
waits for its answer. If that acquire is then granted, the handle counts it without knowing its identifier, and no
release can give it back. `keeps_lock_iff` says that nothing else goes wrong: as long as the server does not take back
more than it has granted, the handle knows the identifier of all outstanding acquires exactly if no acquire is granted
under another one than the lock in use has. That is so when no release brings the depth to zero while an acquire is on
its way (`keeps_of_not_overtakes`).
-/

namespace LockService.ReentrantLock

variable {h : ReentrantLock}

/-! ### Sections of the calls -/

/-- The state after an acquire has got its answer. -/
def State.afterAcquire (s : State) (outcome : Outcome Reply) : State :=
  if outcome.isGrant then { s with depth := s.depth + 1 } else s

/-- The state after a release has got its answer. -/
def State.afterRelease (s : State) (outcome : Outcome Reply) : State :=
  if outcome.isGrant then
    if s.depth - 1 = 0 then { lock := none, depth := 0 } else { s with depth := s.depth - 1 }
  else s

namespace State

variable (s : State) (outcome : Outcome Reply)

@[simp] theorem lock_afterAcquire : (s.afterAcquire outcome).lock = s.lock := by
  unfold afterAcquire
  split <;> rfl

theorem depth_afterAcquire : (s.afterAcquire outcome).depth = if outcome.isGrant then s.depth + 1 else s.depth := by
  unfold afterAcquire
  split <;> rfl

theorem depth_afterAcquire_le : (s.afterAcquire outcome).depth ≤ s.depth + 1 := by
  rw [depth_afterAcquire]
  split <;> omega

theorem depth_afterRelease : (s.afterRelease outcome).depth = if outcome.isGrant then s.depth - 1 else s.depth := by
  unfold afterRelease
  split
  · split
    · next hd => exact hd.symm
    · rfl
  · rfl

theorem depth_afterRelease_le : (s.afterRelease outcome).depth ≤ s.depth := by
  rw [depth_afterRelease]
  split <;> omega

/-- A release drops the lock if it succeeds and brings the depth to zero. -/
theorem lock_afterRelease : (s.afterRelease outcome).lock =
    if outcome.isGrant = true ∧ s.depth - 1 = 0 then none else s.lock := by
  unfold afterRelease
  by_cases hg : outcome.isGrant = true <;> by_cases hd : s.depth - 1 = 0 <;> simp [hg, hd]

end State

/-- A request under way belongs to an acquire or to a release, which goes on accordingly. -/
inductive Belongs (u : UnderWay State (Outcome LockReply)) : Prop where
  | acquire (kind : u.request.kind = .lock) (resume : ∀ outcome s ids,
      (u.resume outcome).advance s ids = (.finished (outcome >>= lockOutcome), s.afterAcquire outcome, ids))
  | release (kind : u.request.kind = .unlock) (resume : ∀ outcome s ids,
      (u.resume outcome).advance s ids = (.finished (outcome >>= lockOutcome), s.afterRelease outcome, ids))

/-- While a lock is cached an acquire is sent for it. -/
theorem advance_acquire {s : State} {lock : Lock} (hl : s.lock = some lock) (ids : IdSource) :
    ∃ resume, h.acquire.outcome.advance s ids =
      (.waiting (lock.requestWith .lock 0 ids.upcoming) resume, s, ids.advance) ∧
      Belongs ⟨lock.requestWith .lock 0 ids.upcoming, resume⟩ := by
  obtain ⟨l, d⟩ := s
  cases hl
  refine ⟨_, rfl, .acquire rfl ?_⟩
  intro outcome s ids
  unfold State.afterAcquire Outcome.isGrant
  generalize ho : outcome >>= lockOutcome = o
  dsimp only
  show Call.advance (Call.bind (Call.done (outcome >>= lockOutcome)) _) s ids = _
  rw [ho]
  cases o <;> rfl

/-- Without a cached lock an acquire draws an identifier for a new one, and caches it before it is granted. -/
theorem advance_acquire_of_none {s : State} (hl : s.lock = none) (ids : IdSource) :
    ∃ resume, h.acquire.outcome.advance s ids =
      (.waiting ((h.lockAs ids.upcoming).requestWith .lock 0 ids.advance.upcoming) resume,
        { s with lock := some (h.lockAs ids.upcoming) }, ids.advance.advance) ∧
      Belongs ⟨(h.lockAs ids.upcoming).requestWith .lock 0 ids.advance.upcoming, resume⟩ := by
  obtain ⟨resume, ha, hb⟩ :=
    advance_acquire (h := h) (s := { s with lock := some (h.lockAs ids.upcoming) }) rfl ids.advance
  refine ⟨resume, ?_, hb⟩
  rw [← ha]
  obtain ⟨l, d⟩ := s
  cases hl
  rfl

/-- A release is sent for the cached lock. -/
theorem advance_release {s : State} {lock : Lock} (hl : s.lock = some lock) (ids : IdSource) :
    ∃ resume, h.release.outcome.advance s ids =
      (.waiting (lock.requestWith .unlock 0 ids.upcoming) resume, s, ids.advance) ∧
      Belongs ⟨lock.requestWith .unlock 0 ids.upcoming, resume⟩ := by
  obtain ⟨l, d⟩ := s
  cases hl
  refine ⟨_, rfl, .release rfl ?_⟩
  intro outcome s ids
  unfold State.afterRelease Outcome.isGrant
  generalize ho : outcome >>= lockOutcome = o
  dsimp only
  show Call.advance (Call.bind (Call.done (outcome >>= lockOutcome)) _) s ids = _
  rw [ho]
  cases o <;> rfl

/-- Without a cached lock a release fails at once and asks nothing. -/
theorem advance_release_of_none {s : State} (hl : s.lock = none) (ids : IdSource) :
    h.release.outcome.advance s ids = (.finished (.error .notHeld), s, ids) := by
  obtain ⟨l, d⟩ := s
  cases hl
  rfl

namespace Shared

/-! ### What an event comes to -/

section Step

variable {p p' : Shared} {ids : IdSource}

/-- Starting an acquire keeps the lock in use, or makes one if there is none. -/
private theorem step_acquire (h : ReentrantLock) (p : Shared) : ∃ lock request resume ids,
    p.step h .acquire = { p with handle := { p.handle with
      state := { p.handle.state with lock := some lock }, ids
      underWay := p.handle.underWay ++ [⟨request, resume⟩], sent := p.handle.sent ++ [request] } } ∧
    Belongs ⟨request, resume⟩ ∧ request.kind = .lock ∧ request.lockId = lock.id ∧
    (∀ old, p.handle.state.lock = some old → lock = old) ∧ p.handle.ids.drawn < ids.drawn := by
  cases hl : p.handle.state.lock with
  | some lock =>
    obtain ⟨resume, ha, hb⟩ := advance_acquire (h := h) hl p.handle.ids
    refine ⟨lock, _, resume, p.handle.ids.advance, ?_, hb, rfl, rfl, fun old ho => Option.some.inj ho,
      Nat.lt_succ_self _⟩
    simp only [step, Interleaving.step, Interleaving.runSection, ha, ← hl]
  | none =>
    obtain ⟨resume, ha, hb⟩ := advance_acquire_of_none (h := h) hl p.handle.ids
    refine ⟨h.lockAs p.handle.ids.upcoming, _, resume, p.handle.ids.advance.advance, ?_, hb, rfl, rfl, nofun,
      Nat.lt_succ_of_lt (Nat.lt_succ_self _)⟩
    simp only [step, Interleaving.step, Interleaving.runSection, ha]

/-- Starting a release sends an unlock request under the identifier of the lock in use. -/
private theorem step_release {lock : Lock} (hl : p.handle.state.lock = some lock) : ∃ request resume,
    p.step h .release = { p with handle := { p.handle with
      ids := p.handle.ids.advance, underWay := p.handle.underWay ++ [⟨request, resume⟩]
      sent := p.handle.sent ++ [request] } } ∧
    Belongs ⟨request, resume⟩ ∧ request.kind = .unlock ∧ request.lockId = lock.id := by
  obtain ⟨resume, ha, hb⟩ := advance_release (h := h) hl p.handle.ids
  refine ⟨_, resume, ?_, hb, rfl, rfl⟩
  simp only [step, Interleaving.step, Interleaving.runSection, ha]

/-- Without a lock in use, a release is over at once. -/
private theorem step_release_of_none (hl : p.handle.state.lock = none) : p.step h .release =
    { p with handle := { p.handle with finished := p.handle.finished ++ [.error .notHeld] } } := by
  simp only [step, Interleaving.step, Interleaving.runSection, advance_release_of_none hl]

/-- An answer ends the call that waits for it. -/
private theorem step_answer {n : Nat} {u : UnderWay State (Outcome LockReply)} (hu : p.handle.underWay[n]? = some u)
    {after : State → Outcome Reply → State} (hr : ∀ outcome s ids,
      (u.resume outcome).advance s ids = (.finished (outcome >>= lockOutcome), after s outcome, ids))
    (outcome : Outcome Reply) : p.step h (.answer n outcome) =
      { p.record u.request outcome with handle := { p.handle with
        state := after p.handle.state outcome, underWay := p.handle.underWay.eraseIdx n
        finished := p.handle.finished ++ [outcome >>= lockOutcome] } } := by
  simp only [step, hu, Interleaving.step, Interleaving.runSection, hr]

private theorem step_answer_of_none {n : Nat} (hu : p.handle.underWay[n]? = none) (outcome : Outcome Reply) :
    p.step h (.answer n outcome) = p := by
  simp only [step, hu]

/-- What an event comes to: an acquire or a release sends its request, an acquire is granted, a release succeeds, or
the state and the books stay. -/
inductive Stepped (p p' : Shared) : Use → Prop where
  | asked (u : UnderWay State (Outcome LockReply)) (lock : Lock) (belongs : Belongs u) (kind : u.request.kind = .lock)
      (lockId : u.request.lockId = lock.id) (again : ∀ old, p.handle.state.lock = some old → lock = old)
      (state : p'.handle.state = { p.handle.state with lock := some lock })
      (underWay : p'.handle.underWay = p.handle.underWay ++ [u]) (drawn : p.handle.ids.drawn < p'.handle.ids.drawn)
      (granted : p'.granted = p.granted) (returned : p'.returned = p.returned) : Stepped p p' .acquire
  | released (u : UnderWay State (Outcome LockReply)) (belongs : Belongs u) (kind : u.request.kind = .unlock)
      (state : p'.handle.state = p.handle.state) (underWay : p'.handle.underWay = p.handle.underWay ++ [u])
      (drawn : p.handle.ids.drawn < p'.handle.ids.drawn) (granted : p'.granted = p.granted)
      (returned : p'.returned = p.returned) : Stepped p p' .release
  | grants (n : Nat) (outcome : Outcome Reply) (u : UnderWay State (Outcome LockReply))
      (waiting : p.handle.underWay[n]? = some u) (kind : u.request.kind = .lock) (success : outcome.isGrant = true)
      (state : p'.handle.state = { p.handle.state with depth := p.handle.state.depth + 1 })
      (underWay : p'.handle.underWay = p.handle.underWay.eraseIdx n) (drawn : p'.handle.ids.drawn = p.handle.ids.drawn)
      (granted : p'.granted = p.granted ++ [u.request.lockId]) (returned : p'.returned = p.returned) :
      Stepped p p' (.answer n outcome)
  | takesBack (n : Nat) (outcome : Outcome Reply) (u : UnderWay State (Outcome LockReply))
      (waiting : p.handle.underWay[n]? = some u) (kind : u.request.kind = .unlock) (success : outcome.isGrant = true)
      (depth : p'.handle.state.depth = p.handle.state.depth - 1)
      (lock : p'.handle.state.lock = if p.handle.state.depth - 1 = 0 then none else p.handle.state.lock)
      (underWay : p'.handle.underWay = p.handle.underWay.eraseIdx n) (drawn : p'.handle.ids.drawn = p.handle.ids.drawn)
      (granted : p'.granted = p.granted) (returned : p'.returned = p.returned + 1) : Stepped p p' (.answer n outcome)
  | idle (use : Use) (calm : ¬ p.GrantsStale use) (state : p'.handle.state = p.handle.state)
      (underWay : p'.handle.underWay.Sublist p.handle.underWay) (drawn : p'.handle.ids.drawn = p.handle.ids.drawn)
      (granted : p'.granted = p.granted) (returned : p'.returned = p.returned) : Stepped p p' use

private theorem stepped_answer (hb : ∀ u ∈ p.handle.underWay, Belongs u) {n : Nat}
    {u : UnderWay State (Outcome LockReply)} (hu : p.handle.underWay[n]? = some u) (outcome : Outcome Reply) :
    Stepped p (p.step h (.answer n outcome)) (.answer n outcome) := by
  by_cases hg : outcome.isGrant = true
  · rcases hb u (List.mem_of_getElem? hu) with ⟨hk, hr⟩ | ⟨hk, hr⟩
    · rw [step_answer hu hr]
      refine .grants n outcome u hu hk hg ?_ rfl rfl ?_ ?_ <;> simp [State.afterAcquire, record, hg, hk]
    · rw [step_answer hu hr]
      refine .takesBack n outcome u hu hk hg ?_ ?_ rfl rfl ?_ ?_
      · exact (State.depth_afterRelease _ _).trans (if_pos hg)
      · simp [State.lock_afterRelease, hg]
      · simp [record, hg, hk]
      · simp [record, hg, hk]
  · have hcalm : ¬ p.GrantsStale (.answer n outcome) := fun ⟨_, _, _, hsuccess, _⟩ => hg hsuccess
    rcases hb u (List.mem_of_getElem? hu) with ⟨-, hr⟩ | ⟨-, hr⟩
    · rw [step_answer hu hr]
      refine .idle _ hcalm ?_ (List.eraseIdx_sublist _ n) rfl ?_ ?_ <;> simp [State.afterAcquire, record, hg]
    · rw [step_answer hu hr]
      refine .idle _ hcalm ?_ (List.eraseIdx_sublist _ n) rfl ?_ ?_ <;> simp [State.afterRelease, record, hg]

private theorem stepped (hb : ∀ u ∈ p.handle.underWay, Belongs u) (use : Use) : Stepped p (p.step h use) use := by
  cases use with
  | acquire =>
    obtain ⟨lock, request, resume, ids, hs, hu, hkind, hid, hold, hdrawn⟩ := step_acquire h p
    rw [hs]
    exact .asked ⟨request, resume⟩ lock hu hkind hid hold rfl rfl hdrawn rfl rfl
  | release =>
    cases hl : p.handle.state.lock with
    | none =>
      rw [step_release_of_none hl]
      exact .idle _ id rfl (List.Sublist.refl _) rfl rfl rfl
    | some lock =>
      obtain ⟨request, resume, hs, hu, hkind, -⟩ := step_release (h := h) hl
      rw [hs]
      exact .released ⟨request, resume⟩ hu hkind rfl rfl (Nat.lt_succ_self _) rfl rfl
  | answer n outcome =>
    cases hu : p.handle.underWay[n]? with
    | none =>
      rw [step_answer_of_none hu]
      refine .idle _ ?_ rfl (List.Sublist.refl _) rfl rfl rfl
      rintro ⟨u, hn, -⟩
      rw [hu] at hn
      cases hn
    | some u => exact stepped_answer hb hu outcome

/-! ### What every balanced use keeps -/

/-- What holds of the handle and its books as long as no more releases than acquires have succeeded. Every acquire that
was granted and every request under way has had an identifier drawn for it. -/
structure Regular (ids : IdSource) (p : Shared) : Prop where
  belongs : ∀ u ∈ p.handle.underWay, Belongs u
  depth : p.handle.state.depth + p.returned = p.granted.length
  drawn : ids.drawn + p.granted.length + p.handle.underWay.length ≤ p.handle.ids.drawn

private theorem Regular.length_outstanding (hp : p.Regular ids) : p.outstanding.length = p.handle.state.depth := by
  have := hp.depth
  rw [outstanding, List.length_drop]
  omega

private theorem regular_fresh (ids : IdSource) : (fresh ids).Regular ids :=
  ⟨fun _ hu => absurd hu List.not_mem_nil, rfl, Nat.le_refl _⟩

private theorem Stepped.regular {use : Use} (hs : Stepped p p' use) (hp : p.Regular ids)
    (hb : p'.returned ≤ p'.granted.length) : p'.Regular ids := by
  have hd := hp.depth
  have hi := hp.drawn
  have appended : ∀ {u : UnderWay State (Outcome LockReply)}, Belongs u → p'.handle.underWay = p.handle.underWay ++ [u] →
      ∀ v ∈ p'.handle.underWay, Belongs v := by
    intro u hu he v hv
    rw [he] at hv
    exact (List.mem_append.mp hv).elim (hp.belongs v) fun hv => List.mem_singleton.mp hv ▸ hu
  have remaining : p'.handle.underWay.Sublist p.handle.underWay → ∀ v ∈ p'.handle.underWay, Belongs v :=
    fun he v hv => hp.belongs v (he.subset hv)
  cases hs with
  | asked u lock belongs kind lockId again state underWay drawn granted returned =>
    refine ⟨appended belongs underWay, by rw [state, granted, returned]; exact hd, ?_⟩
    rw [granted, underWay, List.length_append, List.length_singleton]
    omega
  | released u belongs kind state underWay drawn granted returned =>
    refine ⟨appended belongs underWay, by rw [state, granted, returned]; exact hd, ?_⟩
    rw [granted, underWay, List.length_append, List.length_singleton]
    omega
  | grants n outcome u waiting kind success state underWay drawn granted returned =>
    have hlength := List.length_eraseIdx_add_one (List.getElem?_eq_some_iff.mp waiting).1
    refine ⟨remaining (underWay ▸ List.eraseIdx_sublist _ n), ?_, ?_⟩
    · rw [state, granted, returned, List.length_append, List.length_singleton]
      show p.handle.state.depth + 1 + p.returned = p.granted.length + 1
      omega
    · rw [granted, underWay, drawn, List.length_append, List.length_singleton]
      omega
  | takesBack n outcome u waiting kind success depth lock underWay drawn granted returned =>
    have hlength := List.length_eraseIdx_add_one (List.getElem?_eq_some_iff.mp waiting).1
    rw [granted, returned] at hb
    refine ⟨remaining (underWay ▸ List.eraseIdx_sublist _ n), ?_, ?_⟩
    · rw [depth, granted, returned]
      omega
    · rw [granted, underWay, drawn]
      omega
  | idle _ calm state underWay drawn granted returned =>
    have hlength := underWay.length_le
    refine ⟨remaining underWay, by rw [state, granted, returned]; exact hd, ?_⟩
    rw [granted, drawn]
    omega

/-! ### Knowing the identifier of the outstanding acquires -/

/-- The lock in use is the one that all outstanding acquires were granted under. -/
def Known (p : Shared) : Prop :=
  0 < p.handle.state.depth → ∃ lock, p.handle.state.lock = some lock ∧ ∀ id ∈ p.outstanding, id = lock.id

/-- A handle that knows its outstanding acquires knows one more that is granted under the lock in use. -/
private theorem Known.grant (hk : p.Known) (hp : p.Regular ids) {id : Ident}
    (hid : p.handle.state.lock.map (·.id) = some id) :
    ∃ lock, p.handle.state.lock = some lock ∧ ∀ other ∈ (p.granted ++ [id]).drop p.returned, other = lock.id := by
  have hd := hp.depth
  obtain ⟨lock, hl, hlid⟩ := Option.map_eq_some_iff.mp hid
  refine ⟨lock, hl, fun other hm => ?_⟩
  rw [List.drop_append_of_le_length (by omega)] at hm
  rcases List.mem_append.mp hm with hm | hm
  · have hpos : 0 < p.handle.state.depth := hp.length_outstanding ▸ List.length_pos_of_mem hm
    obtain ⟨lock', hl', hall⟩ := hk hpos
    cases hl.symm.trans hl'
    exact hall other hm
  · rw [List.mem_singleton.mp hm, hlid]

/-- Only a stale grant makes a handle forget its outstanding acquires. -/
private theorem Stepped.known {use : Use} (hs : Stepped p p' use) (hk : p.Known) (hp : p.Regular ids)
    (hstale : ¬ p.GrantsStale use) : p'.Known := by
  intro hpos
  cases hs with
  | asked u lock belongs kind lockId again state underWay drawn granted returned =>
    rw [state] at hpos ⊢
    rw [outstanding, granted, returned]
    obtain ⟨old, ho, hall⟩ := hk hpos
    exact ⟨lock, rfl, again old ho ▸ hall⟩
  | released u belongs kind state underWay drawn granted returned =>
    rw [state] at hpos ⊢
    rw [outstanding, granted, returned]
    exact hk hpos
  | grants n outcome u waiting kind success state underWay drawn granted returned =>
    have hid : p.handle.state.lock.map (·.id) = some u.request.lockId :=
      Decidable.byContradiction fun hne => hstale ⟨u, waiting, kind, success, hne⟩
    rw [outstanding, state, granted, returned]
    exact hk.grant hp hid
  | takesBack n outcome u waiting kind success depth lock underWay drawn granted returned =>
    rw [depth] at hpos
    obtain ⟨held, hl, hall⟩ := hk (by omega)
    rw [lock, if_neg (by omega)]
    refine ⟨held, hl, fun id hm => hall id ?_⟩
    rw [outstanding, granted, returned, ← List.drop_drop] at hm
    exact List.mem_of_mem_drop hm
  | idle _ calm state underWay drawn granted returned =>
    rw [state] at hpos ⊢
    rw [outstanding, granted, returned]
    exact hk hpos

/-- The lock in use is the one that all acquires on their way were sent under. -/
def Current (p : Shared) : Prop :=
  ∀ u ∈ p.handle.underWay, u.request.kind = .lock → p.handle.state.lock.map (·.id) = some u.request.lockId

/-- An acquire that is sent under the lock in use cannot be granted under another. -/
theorem Current.not_grantsStale (hc : p.Current) (use : Use) : ¬ p.GrantsStale use := by
  cases use with
  | acquire => exact id
  | release => exact id
  | answer n outcome =>
    rintro ⟨u, hu, hkind, -, hne⟩
    exact hne (hc u (List.mem_of_getElem? hu) hkind)

/-- Only a release that overtakes an acquire changes the lock while acquires are on their way. -/
private theorem Stepped.current {use : Use} (hs : Stepped p p' use) (hc : p.Current) (ho : ¬ p.Overtakes use) :
    p'.Current := by
  intro v hv hkind
  cases hs with
  | asked u lock belongs kind lockId again state underWay drawn granted returned =>
    rw [underWay] at hv
    rw [state]
    rcases List.mem_append.mp hv with hv | hv
    · obtain ⟨old, hl, hid⟩ := Option.map_eq_some_iff.mp (hc v hv hkind)
      rw [again old hl, ← hid]
      rfl
    · rw [List.mem_singleton.mp hv, lockId]
      rfl
  | released u belongs kind state underWay drawn granted returned =>
    rw [underWay] at hv
    rw [state]
    rcases List.mem_append.mp hv with hv | hv
    · exact hc v hv hkind
    · rw [List.mem_singleton.mp hv, kind] at hkind
      cases hkind
  | grants n outcome u waiting kind success state underWay drawn granted returned =>
    rw [underWay] at hv
    rw [state]
    exact hc v (List.mem_of_mem_eraseIdx hv) hkind
  | takesBack n outcome u waiting kind success depth lock underWay drawn granted returned =>
    rw [underWay] at hv
    have hv := List.mem_of_mem_eraseIdx hv
    -- an acquire is still on its way, so a release that succeeds cannot be the last one
    have hdepth : ¬ p.handle.state.depth - 1 = 0 := fun hzero =>
      ho ⟨u, waiting, kind, success, by omega, v, hv, hkind⟩
    rw [lock, if_neg hdepth]
    exact hc v hv hkind
  | idle _ calm state underWay drawn granted returned =>
    rw [state]
    exact hc v (underWay.subset hv) hkind

/-- After a stale grant the handle counts an acquire whose identifier it does not know. -/
private theorem Stepped.not_known {use : Use} (hs : Stepped p p' use) (hp : p.Regular ids)
    (hstale : p.GrantsStale use) : ¬ p'.Known := by
  have hd := hp.depth
  intro hk
  cases hs with
  | asked => exact hstale
  | released => exact hstale
  | grants n outcome u waiting kind success state underWay drawn granted returned =>
    obtain ⟨_, hn, -, -, hne⟩ := hstale
    cases waiting.symm.trans hn
    rw [Known, outstanding, state, granted, returned] at hk
    obtain ⟨lock, hl, hall⟩ := hk (Nat.succ_pos _)
    rw [List.drop_append_of_le_length (by omega)] at hall
    have hid := hall u.request.lockId (List.mem_append_right _ List.mem_cons_self)
    exact hne (by rw [hl, hid]; rfl)
  | takesBack n outcome u waiting kind =>
    obtain ⟨_, hn, hlock, -⟩ := hstale
    cases waiting.symm.trans hn
    rw [kind] at hlock
    cases hlock
  | idle _ calm => exact calm hstale

end Step

/-! ### A whole use -/

/-- At no time have more releases than acquires been answered with success. -/
def Balanced (h : ReentrantLock) (ids : IdSource) (uses : List Use) : Prop :=
  ∀ before, before <+: uses → ((fresh ids).run h before).returned ≤ ((fresh ids).run h before).granted.length

instance (h : ReentrantLock) (ids : IdSource) (uses : List Use) : Decidable (Balanced h ids uses) :=
  decidable_of_iff
    (∀ before ∈ uses.inits, ((fresh ids).run h before).returned ≤ ((fresh ids).run h before).granted.length)
    (by simp only [Balanced, List.mem_inits])

/-- The handle knows the lock of its outstanding acquires, so that a release can be sent for them. -/
structure Keeps (h : ReentrantLock) (p : Shared) : Prop where
  known : p.Known
  releasable : p.outstanding ≠ [] → ∃ request, (p.step h .release).handle.sent = p.handle.sent ++ [request] ∧
    request.kind = .unlock ∧ ∀ id ∈ p.outstanding, request.lockId = id

/-- The depth is the number of the outstanding acquires. An identifier was drawn for each of them, so that a word of 32
bits holds the depth as long as fewer than 2³² have been drawn. -/
structure Counts (ids : IdSource) (p : Shared) : Prop where
  depth : p.handle.state.depth = p.outstanding.length
  bound : p.handle.state.depth ≤ p.handle.ids.drawn - ids.drawn

section Run

variable {p : Shared} {ids : IdSource} {uses : List Use}

private theorem Regular.keeps (hp : p.Regular ids) (hk : p.Known) : p.Keeps h where
  known := hk
  releasable ho := by
    have hpos : 0 < p.handle.state.depth := by
      rw [← hp.length_outstanding]
      exact List.length_pos_iff.mpr ho
    obtain ⟨lock, hl, hall⟩ := hk hpos
    obtain ⟨request, resume, hs, -, hkind, hid⟩ := step_release (h := h) hl
    refine ⟨request, by rw [hs], hkind, fun id hm => ?_⟩
    rw [hid, hall id hm]

private theorem Regular.counts (hp : p.Regular ids) : p.Counts ids where
  depth := hp.length_outstanding.symm
  bound := by
    have := hp.depth
    have := hp.drawn
    omega

private theorem Balanced.shorter (hb : Balanced h ids uses) {before : List Use} (hp : before <+: uses) :
    Balanced h ids before :=
  fun first hf => hb first (hf.trans hp)

private theorem run_concat (h : ReentrantLock) (p : Shared) (uses : List Use) (use : Use) :
    p.run h (uses ++ [use]) = (p.run h uses).step h use := by
  rw [run_append, run_cons, run_nil]

/-- Every balanced use keeps the books regular. -/
private theorem regular_run (hb : Balanced h ids uses) : ((fresh ids).run h uses).Regular ids := by
  induction uses using List.reverseRecOn with
  | nil => exact regular_fresh ids
  | append_singleton uses use ih =>
    have hlast := hb _ (List.prefix_refl _)
    have hp := ih (hb.shorter (List.prefix_append _ _))
    rw [run_concat] at hlast ⊢
    exact (stepped hp.belongs use).regular hp hlast

/-- Without a stale grant, the handle knows its outstanding acquires at the end of a use. -/
private theorem known_run (hb : Balanced h ids uses)
    (hs : ∀ before use, before ++ [use] <+: uses → ¬ ((fresh ids).run h before).GrantsStale use) :
    ((fresh ids).run h uses).Known := by
  induction uses using List.reverseRecOn with
  | nil => exact fun hpos => absurd hpos (Nat.lt_irrefl 0)
  | append_singleton uses use ih =>
    have hpre : uses <+: uses ++ [use] := List.prefix_append _ _
    have hp := regular_run (hb.shorter hpre)
    rw [run_concat]
    exact (stepped hp.belongs use).known (ih (hb.shorter hpre) fun before use hp => hs before use (hp.trans hpre)) hp
      (hs uses use (List.prefix_refl _))

private theorem keeps_of_not_grantsStale (hb : Balanced h ids uses)
    (hs : ∀ before use, before ++ [use] <+: uses → ¬ ((fresh ids).run h before).GrantsStale use)
    {before : List Use} (hp : before <+: uses) : ((fresh ids).run h before).Keeps h := by
  have hbefore := hb.shorter hp
  exact (regular_run hbefore).keeps (known_run hbefore fun first use hf => hs first use (hf.trans hp))

private theorem current_run (hb : Balanced h ids uses)
    (ho : ∀ before use, before ++ [use] <+: uses → ¬ ((fresh ids).run h before).Overtakes use) :
    ((fresh ids).run h uses).Current := by
  induction uses using List.reverseRecOn with
  | nil => exact fun _ hu => absurd hu List.not_mem_nil
  | append_singleton uses use ih =>
    have hpre : uses <+: uses ++ [use] := List.prefix_append _ _
    have hbefore := hb.shorter hpre
    rw [run_concat]
    exact (stepped (regular_run hbefore).belongs use).current
      (ih hbefore fun before use hp => ho before use (hp.trans hpre)) (ho uses use (List.prefix_refl _))

/-- The handle keeps its lock as long as no release gives it up while an acquire is on its way. -/
theorem keeps_of_not_overtakes (hb : Balanced h ids uses)
    (ho : ∀ before use, before ++ [use] <+: uses → ¬ ((fresh ids).run h before).Overtakes use)
    {before : List Use} (hp : before <+: uses) : ((fresh ids).run h before).Keeps h := by
  refine keeps_of_not_grantsStale hb (fun first use hf => ?_) hp
  have hpre := (List.prefix_append first [use]).trans hf
  exact (current_run (hb.shorter hpre) fun start use hs => ho start use (hs.trans hpre)).not_grantsStale use

end Run

/-- In any use by any number of callers, in which at no time more releases than acquires have succeeded, the depth is
at all times the number of outstanding acquires. The handle keeps the lock of its outstanding acquires at all times, and
a release that starts while there is one is sent for it, exactly if no acquire is granted under another identifier than
that of the lock then in use. -/
theorem keeps_lock_iff (h : ReentrantLock) (ids : IdSource) (uses : List Use) (hb : Balanced h ids uses) :
    (∀ before, before <+: uses → ((fresh ids).run h before).Counts ids) ∧
      ((∀ before, before <+: uses → ((fresh ids).run h before).Keeps h) ↔
        ∀ before use, before ++ [use] <+: uses → ¬ ((fresh ids).run h before).GrantsStale use) := by
  refine ⟨fun before hp => (regular_run (hb.shorter hp)).counts, fun hk before use hp hs => ?_,
    fun hs before hp => keeps_of_not_grantsStale hb hs hp⟩
  have hbefore := regular_run (hb.shorter ((List.prefix_append before [use]).trans hp))
  refine (stepped (h := h) hbefore.belongs use).not_known hbefore hs ?_
  rw [← run_concat]
  exact (hk _ hp).known

/-- A lock on the zero key. -/
def zeroKeyed : ReentrantLock := ⟨0, default, default, default⟩

/-- A source of identifiers that starts at zero. -/
def zeroSeeded : IdSource := .seeded 0 fun _ => default

/-- An answer of success. -/
def success : Outcome Reply := .ok (.lock { (default : LockReply) with result := ResultCode.success })

/-- An acquire is on its way while a release brings the depth to zero, and is granted after that. -/
def overtakenAcquire : List Use :=
  [.acquire, .answer 0 success, .acquire, .release, .answer 1 success, .answer 0 success]

/-- Then the handle counts an outstanding acquire and has no lock in use, and a release fails at once. -/
theorem overtakenAcquire_loses_lock : Balanced zeroKeyed zeroSeeded overtakenAcquire ∧
    ((fresh zeroSeeded).run zeroKeyed overtakenAcquire).handle.state.depth = 1 ∧
    ((fresh zeroSeeded).run zeroKeyed overtakenAcquire).handle.state.lock = none ∧
    ((fresh zeroSeeded).run zeroKeyed (overtakenAcquire ++ [.release])).handle.sent =
      ((fresh zeroSeeded).run zeroKeyed overtakenAcquire).handle.sent ∧
    ((fresh zeroSeeded).run zeroKeyed (overtakenAcquire ++ [.release])).handle.finished.getLast? =
      some (.error .notHeld) :=
  ⟨by decide, rfl, rfl, rfl, rfl⟩

/-- Two nested acquires and their releases. -/
def nested : List Use :=
  [.acquire, .acquire, .answer 1 success, .answer 0 success, .release, .answer 0 success, .release, .answer 0 success]

/-- In a nested use no grant is stale, so the handle keeps its lock and counts its acquires. -/
theorem nested_keeps_lock : Balanced zeroKeyed zeroSeeded nested ∧
    (∀ before, before <+: nested → ((fresh zeroSeeded).run zeroKeyed before).Counts zeroSeeded) ∧
    ∀ before, before <+: nested → ((fresh zeroSeeded).run zeroKeyed before).Keeps zeroKeyed := by
  have hb : Balanced zeroKeyed zeroSeeded nested := by decide
  obtain ⟨hcounts, hkeeps⟩ := keeps_lock_iff zeroKeyed zeroSeeded nested hb
  exact ⟨hb, hcounts, hkeeps.mpr (forall_of_positions (by decide))⟩

end Shared

end LockService.ReentrantLock
