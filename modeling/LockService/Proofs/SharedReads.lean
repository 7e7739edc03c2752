import LockService.Primitive.ReadUse
import LockService.Proofs.Idents
import Mathlib.Data.List.Induction
import Mathlib.Data.List.Infix
import Mathlib.Data.List.Perm.Subperm

/-!
# The queue of reads that several callers share

No read is lost and none is held twice: each one that was granted and is not over stands in the queue or is being
released, and it does so once. The queue keeps the order of the grants as long as no failed release puts its read back
in front of an older one, which two releases that fail in the order in which they were sent do
(`Readers.keeps_order_iff`).
-/

namespace LockService.ReadWriteLock

variable {h : ReadWriteLock}

/-! ### Sections of the calls -/

/-- The state after an acquire for a lock has got its answer. -/
def State.afterAcquire (s : State) (lock : Lock) (outcome : Outcome Reply) : State :=
  if outcome.isGrant then { s with reads := s.reads ++ [lock] } else s

/-- The state after a release of a lock has got its answer. -/
def State.afterRelease (s : State) (lock : Lock) (outcome : Outcome Reply) : State :=
  if outcome.isOver then s else { s with reads := lock :: s.reads }

/-- A request under way belongs to an acquire or to a release of a read, which goes on accordingly. -/
inductive Belongs (u : UnderWay State (Outcome LockReply)) : Prop where
  | acquire (kind : u.request.kind = .lock) (lock : Lock) (id : lock.id = u.request.lockId)
      (resume : ∀ outcome s ids, (u.resume outcome).advance s ids =
        (.finished (outcome >>= lockOutcome), s.afterAcquire lock outcome, ids))
  | release (kind : u.request.kind = .unlock) (lock : Lock) (id : lock.id = u.request.lockId)
      (resume : ∀ outcome s ids, (u.resume outcome).advance s ids =
        (.finished (outcome >>= lockOutcome), s.afterRelease lock outcome, ids))

/-- A read draws an identifier for its lock and one for its request, and joins the queue if it is granted. -/
theorem advance_acquireRead (s : State) (ids : IdSource) : ∃ resume,
    h.acquireRead.outcome.advance s ids =
      (.waiting ((h.readAs ids.upcoming).requestWith .lock 0 ids.advance.upcoming) resume, s, ids.advance.advance) ∧
    ∀ outcome s' ids', (resume outcome).advance s' ids' =
      (.finished (outcome >>= lockOutcome), s'.afterAcquire (h.readAs ids.upcoming) outcome, ids') := by
  refine ⟨_, rfl, ?_⟩
  intro outcome s ids
  unfold State.afterAcquire Outcome.isGrant
  generalize ho : outcome >>= lockOutcome = o
  dsimp only
  show Call.advance (Call.bind (Call.done (outcome >>= lockOutcome)) _) s ids = _
  rw [ho]
  cases o <;> rfl

/-- A release takes the oldest read off the queue before it asks, and puts it back in front if that fails. -/
theorem advance_releaseRead {s : State} {lock : Lock} {rest : List Lock} (hs : s.reads = lock :: rest)
    (ids : IdSource) : ∃ resume,
    h.releaseRead.outcome.advance s ids =
      (.waiting (lock.requestWith .unlock 0 ids.upcoming) resume, { s with reads := rest }, ids.advance) ∧
    ∀ outcome s' ids', (resume outcome).advance s' ids' =
      (.finished (outcome >>= lockOutcome), s'.afterRelease lock outcome, ids') := by
  obtain ⟨w, r⟩ := s
  cases hs
  refine ⟨_, rfl, ?_⟩
  intro outcome s ids
  unfold State.afterRelease Outcome.isOver
  generalize ho : outcome >>= lockOutcome = o
  dsimp only
  show Call.advance (Call.bind (Call.done (outcome >>= lockOutcome)) _) s ids = _
  rw [ho]
  cases o with
  | ok reply => rfl
  | error failure =>
    cases hf : failure.isUnlocked with
    | false =>
      simp only [Call.bind, hf]
      rfl
    | true =>
      simp only [Call.bind, hf]
      rfl

/-- Without a read a release fails at once and asks nothing. -/
theorem advance_releaseRead_of_nil {s : State} (hs : s.reads = []) (ids : IdSource) :
    h.releaseRead.outcome.advance s ids = (.finished (.error .notHeld), s, ids) := by
  obtain ⟨w, r⟩ := s
  cases hs
  rfl

namespace Readers

/-! ### What every use keeps -/

section LockIds

variable {underWay : List (UnderWay State (Outcome LockReply))} {u : UnderWay State (Outcome LockReply)}

private theorem count_lockIds_append (kind : CommandKind) (id : Ident) :
    (UnderWay.lockIds kind (underWay ++ [u])).count id =
      (UnderWay.lockIds kind underWay).count id + if u.request.kind = kind ∧ u.request.lockId = id then 1 else 0 := by
  by_cases hk : u.request.kind = kind <;> simp [UnderWay.lockIds, hk, List.count_cons]

private theorem count_lockIds_eraseIdx {n : Nat} (hu : underWay[n]? = some u) (kind : CommandKind) (id : Ident) :
    (UnderWay.lockIds kind (underWay.eraseIdx n)).count id +
        (if u.request.kind = kind ∧ u.request.lockId = id then 1 else 0) =
      (UnderWay.lockIds kind underWay).count id := by
  obtain ⟨hn, rfl⟩ := List.getElem?_eq_some_iff.mp hu
  have hperm : (underWay.eraseIdx n ++ [underWay[n]]).Perm underWay :=
    List.perm_append_comm.trans (List.getElem_cons_eraseIdx_perm hn)
  rw [← count_lockIds_append]
  exact ((hperm.filter _).map _).count_eq id

end LockIds

/-- Each read that was granted stands in the queue, is being released or is over, as often as it was granted, and those
granted or asked for have identifiers that were drawn for them. -/
structure Regular (ids : IdSource) (p : Readers) : Prop where
  belongs : ∀ u ∈ p.handle.underWay, Belongs u
  conserved : ∀ id, p.queue.count id + p.releasing.count id + p.ended.count id = p.granted.count id
  drawn : ∃ k, p.handle.ids = IdSource.advance^[k] ids ∧
    ∀ id, p.granted.count id + p.acquiring.count id ≤ (ids.take k).count id

private theorem regular_fresh (ids : IdSource) : (fresh ids).Regular ids :=
  ⟨fun _ hu => absurd hu List.not_mem_nil, fun _ => rfl, 0, rfl, fun _ => Nat.le_refl 0⟩

section Step

variable {p p' : Readers} {ids : IdSource}

/-- Starting an acquire asks for a read with a new identifier. -/
private theorem step_acquire (h : ReadWriteLock) (p : Readers) : ∃ request resume,
    p.step h .acquire = { p with handle := { p.handle with
      ids := p.handle.ids.advance.advance, underWay := p.handle.underWay ++ [⟨request, resume⟩]
      sent := p.handle.sent ++ [request] } } ∧
    Belongs ⟨request, resume⟩ ∧ request.kind = .lock ∧ request.lockId = p.handle.ids.upcoming := by
  obtain ⟨resume, ha, hr⟩ := advance_acquireRead (h := h) p.handle.state p.handle.ids
  have hb : Belongs ⟨(h.readAs p.handle.ids.upcoming).requestWith .lock 0 p.handle.ids.advance.upcoming, resume⟩ :=
    .acquire rfl (h.readAs p.handle.ids.upcoming) rfl hr
  refine ⟨_, resume, ?_, hb, rfl, rfl⟩
  simp only [step, Interleaving.step, Interleaving.runSection, ha]

/-- Starting a release takes the first read out of the queue and sends an unlock request for it. -/
private theorem step_release {lock : Lock} {rest : List Lock} (hs : p.handle.state.reads = lock :: rest) :
    ∃ request resume, p.step h .release = { p with handle := { p.handle with
      state := { p.handle.state with reads := rest }, ids := p.handle.ids.advance
      underWay := p.handle.underWay ++ [⟨request, resume⟩], sent := p.handle.sent ++ [request] } } ∧
    Belongs ⟨request, resume⟩ ∧ request.kind = .unlock ∧ request.lockId = lock.id := by
  obtain ⟨resume, ha, hr⟩ := advance_releaseRead (h := h) hs p.handle.ids
  have hb : Belongs ⟨lock.requestWith .unlock 0 p.handle.ids.upcoming, resume⟩ := .release rfl lock rfl hr
  refine ⟨_, resume, ?_, hb, rfl, rfl⟩
  simp only [step, Interleaving.step, Interleaving.runSection, ha]

/-- With nothing in the queue, a release is over at once. -/
private theorem step_release_of_nil (hs : p.handle.state.reads = []) : p.step h .release =
    { p with handle := { p.handle with finished := p.handle.finished ++ [.error .notHeld] } } := by
  simp only [step, Interleaving.step, Interleaving.runSection, advance_releaseRead_of_nil hs]

private theorem step_answer_of_none {n : Nat} (hu : p.handle.underWay[n]? = none) (outcome : Outcome Reply) :
    p.step h (.answer n outcome) = p := by
  simp only [step, hu]

/-- What the answer to a request comes to: a read is granted or refused, or it is over or returns to the queue. -/
inductive Answered (p : Readers) (u : UnderWay State (Outcome LockReply)) (outcome : Outcome Reply) (p' : Readers) :
    Prop where
  | granted (kind : u.request.kind = .lock) (success : outcome.isGrant = true)
      (queue : p'.queue = p.queue ++ [u.request.lockId]) (granted : p'.granted = p.granted ++ [u.request.lockId])
      (ended : p'.ended = p.ended)
  | refused (kind : u.request.kind = .lock) (queue : p'.queue = p.queue) (granted : p'.granted = p.granted)
      (ended : p'.ended = p.ended)
  | finished (kind : u.request.kind = .unlock) (gone : outcome.isOver = true) (queue : p'.queue = p.queue)
      (granted : p'.granted = p.granted) (ended : p'.ended = p.ended ++ [u.request.lockId])
  | returned (kind : u.request.kind = .unlock) (held : outcome.isOver = false)
      (queue : p'.queue = u.request.lockId :: p.queue) (granted : p'.granted = p.granted) (ended : p'.ended = p.ended)

/-- An answer ends the call that waits for it. -/
theorem step_answer {n : Nat} {u : UnderWay State (Outcome LockReply)} (hu : p.handle.underWay[n]? = some u)
    (hb : Belongs u) (outcome : Outcome Reply) : Answered p u outcome (p.step h (.answer n outcome)) ∧
      (p.step h (.answer n outcome)).handle.underWay = p.handle.underWay.eraseIdx n ∧
      (p.step h (.answer n outcome)).handle.ids = p.handle.ids := by
  rcases hb with ⟨hkind, lock, hid, hr⟩ | ⟨hkind, lock, hid, hr⟩
  all_goals simp only [step, hu, Interleaving.step, Interleaving.runSection, hr]
  · refine ⟨?_, trivial, trivial⟩
    by_cases hg : outcome.isGrant = true
    · refine .granted hkind hg ?_ ?_ ?_
      · simp [queue, State.afterAcquire, hg, hid]
      · simp [record, hkind, hg]
      · simp [record, hkind, hg]
    · refine .refused hkind ?_ ?_ ?_
      · simp [queue, State.afterAcquire, hg]
      · simp [record, hkind, hg]
      · simp [record, hkind, hg]
  · refine ⟨?_, trivial, trivial⟩
    by_cases ho : outcome.isOver = true
    · refine .finished hkind ho ?_ ?_ ?_
      · simp [queue, State.afterRelease, ho]
      · simp [record, hkind, ho]
      · simp [record, hkind, ho]
    · refine .returned hkind (by simpa using ho) ?_ ?_ ?_
      · simp [queue, State.afterRelease, ho, hid]
      · simp [record, hkind, ho]
      · simp [record, hkind, ho]

/-- An answer moves its read between the queue, what is over and what is under way, and loses or doubles none. -/
private theorem Answered.counts {u : UnderWay State (Outcome LockReply)} {outcome : Outcome Reply}
    (ha : Answered p u outcome p') (id : Ident) :
    p'.queue.count id + p'.ended.count id + p.granted.count id = p.queue.count id + p.ended.count id +
        p'.granted.count id + (if u.request.kind = .unlock ∧ u.request.lockId = id then 1 else 0) ∧
      p'.granted.count id ≤ p.granted.count id + if u.request.kind = .lock ∧ u.request.lockId = id then 1 else 0 := by
  cases ha with
  | granted kind success queue granted ended =>
    simp only [kind, queue, granted, ended, List.count_append, List.count_singleton, beq_iff_eq, reduceCtorEq, true_and,
      false_and, if_false]
    omega
  | refused kind queue granted ended =>
    simp only [kind, queue, granted, ended, reduceCtorEq, true_and, false_and, if_false]
    omega
  | finished kind gone queue granted ended =>
    simp only [kind, queue, granted, ended, List.count_append, List.count_singleton, beq_iff_eq, reduceCtorEq, true_and,
      false_and, if_false]
    omega
  | returned kind held queue granted ended =>
    simp only [kind, queue, granted, ended, List.count_cons, beq_iff_eq, reduceCtorEq, true_and, false_and, if_false]
    omega

/-- What an event comes to: a read is asked for, a release is sent for the first read of the queue, a request is
answered, or nothing happens. -/
inductive Stepped (p p' : Readers) : ReadUse → Prop where
  | asked (u : UnderWay State (Outcome LockReply)) (belongs : Belongs u) (kind : u.request.kind = .lock)
      (lockId : u.request.lockId = p.handle.ids.upcoming) (underWay : p'.handle.underWay = p.handle.underWay ++ [u])
      (ids : p'.handle.ids = p.handle.ids.advance.advance) (queue : p'.queue = p.queue)
      (granted : p'.granted = p.granted) (ended : p'.ended = p.ended) : Stepped p p' .acquire
  | released (u : UnderWay State (Outcome LockReply)) (belongs : Belongs u) (kind : u.request.kind = .unlock)
      (underWay : p'.handle.underWay = p.handle.underWay ++ [u]) (ids : p'.handle.ids = p.handle.ids.advance)
      (queue : p.queue = u.request.lockId :: p'.queue) (granted : p'.granted = p.granted)
      (ended : p'.ended = p.ended) : Stepped p p' .release
  | answered (n : Nat) (outcome : Outcome Reply) (u : UnderWay State (Outcome LockReply))
      (waiting : p.handle.underWay[n]? = some u) (answered : Answered p u outcome p')
      (underWay : p'.handle.underWay = p.handle.underWay.eraseIdx n) (ids : p'.handle.ids = p.handle.ids) :
      Stepped p p' (.answer n outcome)
  | idle (use : ReadUse) (calm : ¬ p.ReturnsOutOfTurn use) (underWay : p'.handle.underWay = p.handle.underWay)
      (ids : p'.handle.ids = p.handle.ids) (queue : p'.queue = p.queue) (granted : p'.granted = p.granted)
      (ended : p'.ended = p.ended) : Stepped p p' use

private theorem stepped (hb : ∀ u ∈ p.handle.underWay, Belongs u) (use : ReadUse) : Stepped p (p.step h use) use := by
  cases use with
  | acquire =>
    obtain ⟨request, resume, hs, hu, hkind, hid⟩ := step_acquire h p
    rw [hs]
    exact .asked ⟨request, resume⟩ hu hkind hid rfl rfl rfl rfl rfl
  | release =>
    cases hreads : p.handle.state.reads with
    | nil =>
      rw [step_release_of_nil hreads]
      exact .idle _ id rfl rfl rfl rfl rfl
    | cons lock rest =>
      obtain ⟨request, resume, hs, hu, hkind, hid⟩ := step_release (h := h) hreads
      have hqueue : p.queue = request.lockId :: rest.map (·.id) := by rw [queue, hreads, List.map_cons, hid]
      rw [hs]
      exact .released ⟨request, resume⟩ hu hkind rfl rfl hqueue rfl rfl
  | answer n outcome =>
    cases hu : p.handle.underWay[n]? with
    | none =>
      rw [step_answer_of_none hu]
      refine .idle _ ?_ rfl rfl rfl rfl rfl
      rintro ⟨u, hn, -⟩
      rw [hu] at hn
      cases hn
    | some u =>
      obtain ⟨ha, hunder, hids⟩ := step_answer (h := h) hu (hb u (List.mem_of_getElem? hu)) outcome
      exact .answered n outcome u hu ha hunder hids

/-- After every event, each request under way belongs to an acquire or to a release. -/
private theorem Stepped.belongs {use : ReadUse} (hs : Stepped p p' use) (hb : ∀ u ∈ p.handle.underWay, Belongs u) :
    ∀ u ∈ p'.handle.underWay, Belongs u := by
  intro v hv
  cases hs with
  | asked u belongs kind lockId underWay =>
    rw [underWay] at hv
    exact (List.mem_append.mp hv).elim (hb v) fun hv => List.mem_singleton.mp hv ▸ belongs
  | released u belongs kind underWay =>
    rw [underWay] at hv
    exact (List.mem_append.mp hv).elim (hb v) fun hv => List.mem_singleton.mp hv ▸ belongs
  | answered n outcome u waiting answered underWay =>
    rw [underWay] at hv
    exact hb v (List.mem_of_mem_eraseIdx hv)
  | idle _ calm underWay =>
    rw [underWay] at hv
    exact hb v hv

/-- No event loses or doubles a read. -/
private theorem Stepped.conserved {use : ReadUse} (hs : Stepped p p' use) {id : Ident}
    (hc : p.queue.count id + p.releasing.count id + p.ended.count id = p.granted.count id) :
    p'.queue.count id + p'.releasing.count id + p'.ended.count id = p'.granted.count id := by
  cases hs with
  | asked u belongs kind lockId underWay advanced queue granted ended =>
    rw [releasing] at hc
    rw [queue, granted, ended, releasing, underWay, count_lockIds_append]
    simpa [kind] using hc
  | released u belongs kind underWay advanced queue granted ended =>
    rw [queue, releasing, List.count_cons] at hc
    rw [granted, ended, releasing, underWay, count_lockIds_append]
    simp only [kind, true_and, beq_iff_eq] at hc ⊢
    omega
  | answered n outcome u waiting answered underWay =>
    have hr := count_lockIds_eraseIdx waiting .unlock id
    have hcounts := (answered.counts id).1
    rw [releasing] at hc
    rw [releasing, underWay]
    omega
  | idle _ calm underWay same queue granted ended =>
    rw [queue, granted, ended, releasing, underWay]
    exact hc

/-- A read that is granted or asked for has an identifier that was drawn for it. -/
private theorem Stepped.drawn {use : ReadUse} (hs : Stepped p p' use) {k : Nat}
    (hk : p.handle.ids = IdSource.advance^[k] ids)
    (hd : ∀ id, p.granted.count id + p.acquiring.count id ≤ (ids.take k).count id) :
    ∃ k, p'.handle.ids = IdSource.advance^[k] ids ∧
      ∀ id, p'.granted.count id + p'.acquiring.count id ≤ (ids.take k).count id := by
  cases hs with
  | asked u belongs kind lockId underWay advanced queue granted ended =>
    refine ⟨k + 2, ?_, fun id => ?_⟩
    · rw [advanced, Function.iterate_succ_apply', Function.iterate_succ_apply', ← hk]
    · -- two identifiers are drawn, and the read gets the first of them
      have hle := hd id
      have htake : ids.take (k + 2) = ids.take k ++ [p.handle.ids.upcoming, p.handle.ids.advance.upcoming] := by
        rw [IdSource.take_add, hk]
        rfl
      rw [acquiring] at hle
      rw [granted, acquiring, underWay, count_lockIds_append, htake]
      rw [List.count_append, List.count_cons, List.count_cons]
      simp only [kind, lockId, true_and, beq_iff_eq]
      omega
  | released u belongs kind underWay advanced queue granted ended =>
    refine ⟨k + 1, ?_, fun id => ?_⟩
    · rw [advanced, Function.iterate_succ_apply', ← hk]
    · have hle := hd id
      rw [acquiring] at hle
      rw [granted, acquiring, underWay, count_lockIds_append, IdSource.take_add, List.count_append]
      simp only [kind, reduceCtorEq, false_and, if_false]
      exact Nat.le_add_right_of_le hle
  | answered n outcome u waiting answered underWay same =>
    refine ⟨k, same.trans hk, fun id => ?_⟩
    have hle := hd id
    have hr := count_lockIds_eraseIdx waiting .lock id
    have hcounts := (answered.counts id).2
    rw [acquiring] at hle
    rw [acquiring, underWay]
    omega
  | idle _ calm underWay same queue granted ended =>
    refine ⟨k, same.trans hk, fun id => ?_⟩
    rw [granted, acquiring, underWay]
    exact hd id

/-- No use of the handle upsets its books. -/
private theorem Stepped.regular {use : ReadUse} (hs : Stepped p p' use) (hp : p.Regular ids) : p'.Regular ids := by
  obtain ⟨k, hk, hd⟩ := hp.drawn
  exact ⟨hs.belongs hp.belongs, fun id => hs.conserved (hp.conserved id), hs.drawn hk hd⟩

private theorem Stepped.drawn_le {use : ReadUse} (hs : Stepped p p' use) :
    p.handle.ids.drawn ≤ p'.handle.ids.drawn := by
  cases hs with
  | asked u belongs kind lockId underWay advanced =>
    rw [advanced]
    exact Nat.le_add_right _ 2
  | released u belongs kind underWay advanced =>
    rw [advanced]
    exact Nat.le_succ _
  | answered n outcome u waiting answered underWay same => rw [same]
  | idle _ calm underWay same => rw [same]

/-! ### Reads with identifiers of their own -/

/-- No two reads are granted under one identifier while identifiers do not come round. -/
private theorem Regular.nodup_granted (hp : p.Regular ids) (hd : p.handle.ids.drawn ≤ ids.drawn + 2147483648) :
    p.granted.Nodup := by
  obtain ⟨k, hk, hle⟩ := hp.drawn
  rw [hk, IdSource.drawn_iterate] at hd
  have hn : (ids.take k).Nodup := IdSource.nodup_take (by omega) ids
  refine List.nodup_iff_count_le_one.mpr fun id => ?_
  have hone := List.nodup_iff_count_le_one.mp hn id
  have hid := hle id
  omega

/-- Every read that was granted and is not over has one place: in the queue, or with a release under way. -/
structure Conserves (p : Readers) : Prop where
  distinct : p.queue.Nodup
  placed : ∀ id ∈ p.granted, id ∉ p.ended →
    (id ∈ p.queue ∧ id ∉ p.releasing) ∨ (id ∉ p.queue ∧ p.releasing.count id = 1)
  known : ∀ id ∈ p.queue, id ∈ p.granted ∧ id ∉ p.ended ∧ id ∉ p.releasing

private theorem Regular.conserves (hp : p.Regular ids) (hn : p.granted.Nodup) : p.Conserves := by
  have hone := List.nodup_iff_count_le_one.mp hn
  refine ⟨List.nodup_iff_count_le_one.mpr fun id => ?_, fun id hg he => ?_, fun id hq => ?_⟩
  · have hc := hp.conserved id
    have hid := hone id
    omega
  · have hc := hp.conserved id
    have hid := hone id
    have hpos := List.count_pos_iff.mpr hg
    have hzero := List.count_eq_zero.mpr he
    simp only [← List.count_pos_iff]
    omega
  · have hc := hp.conserved id
    have hid := hone id
    have hpos := List.count_pos_iff.mpr hq
    simp only [← List.count_pos_iff]
    omega

/-- The reads in the queue stand in the order in which they were granted. -/
def InOrder (p : Readers) : Prop := p.queue.Pairwise p.Precedes

private theorem inOrder_iff (p : Readers) :
    p.InOrder ↔ p.queue.Pairwise fun id id' => p.granted.idxOf id < p.granted.idxOf id' := Iff.rfl

private theorem Regular.not_mem_queue (hp : p.Regular ids) (hn : p.granted.Nodup) {n : Nat}
    {u : UnderWay State (Outcome LockReply)} (hu : p.handle.underWay[n]? = some u) (hkind : u.request.kind = .unlock) :
    u.request.lockId ∈ p.granted ∧ u.request.lockId ∉ p.queue := by
  have hc := hp.conserved u.request.lockId
  have hone := List.nodup_iff_count_le_one.mp hn u.request.lockId
  have hr := count_lockIds_eraseIdx hu .unlock u.request.lockId
  rw [if_pos ⟨hkind, rfl⟩] at hr
  rw [releasing] at hc
  rw [← List.count_pos_iff, ← List.count_eq_zero]
  omega

/-- A read that is granted now comes after all others. -/
private theorem ordered_concat {queue granted : List Ident} {new : Ident}
    (hi : queue.Pairwise fun id id' => granted.idxOf id < granted.idxOf id') (hmem : ∀ id ∈ queue, id ∈ granted)
    (hnew : new ∉ granted) :
    (queue ++ [new]).Pairwise fun id id' => (granted ++ [new]).idxOf id < (granted ++ [new]).idxOf id' := by
  have hlast : (granted ++ [new]).idxOf new = granted.length := by
    rw [List.idxOf_append_of_notMem hnew, List.idxOf_cons_self]
    rfl
  refine List.pairwise_append.mpr ⟨hi.imp_of_mem ?_, List.pairwise_singleton _ _, ?_⟩
  · intro id id' hq hq' hlt
    rwa [List.idxOf_append_of_mem (hmem id hq), List.idxOf_append_of_mem (hmem id' hq')]
  · intro id hq id' hid
    rw [List.mem_singleton.mp hid, hlast, List.idxOf_append_of_mem (hmem id hq)]
    exact List.idxOf_lt_length_of_mem (hmem id hq)

/-- The queue stays in the order of the grants unless a failed release puts a read in front of an older one. -/
private theorem Stepped.inOrder {use : ReadUse} (hs : Stepped p p' use) (hp : p.Regular ids) (hi : p.InOrder)
    (hn : p'.granted.Nodup) (ho : ¬ p.ReturnsOutOfTurn use) : p'.InOrder := by
  have hmem : ∀ id ∈ p.queue, id ∈ p.granted := by
    intro id hq
    have hc := hp.conserved id
    have hpos := List.count_pos_iff.mpr hq
    exact List.count_pos_iff.mp (by omega)
  rw [inOrder_iff]
  cases hs with
  | asked u belongs kind lockId underWay advanced queue granted =>
    rw [queue, granted]
    exact hi
  | released u belongs kind underWay advanced queue granted =>
    rw [inOrder_iff, queue] at hi
    rw [granted]
    exact (List.pairwise_cons.mp hi).2
  | idle _ calm underWay same queue granted =>
    rw [queue, granted]
    exact hi
  | answered n outcome u waiting answered =>
    cases answered with
    | granted kind success queue granted ended =>
      rw [granted, List.nodup_append] at hn
      rw [queue, granted]
      exact ordered_concat hi hmem fun hm => hn.2.2 _ hm _ List.mem_cons_self rfl
    | refused kind queue granted ended =>
      rw [queue, granted]
      exact hi
    | finished kind gone queue granted ended =>
      rw [queue, granted]
      exact hi
    | returned kind held queue granted ended =>
      -- what is in the queue does not precede the read that returns, and differs from it
      rw [granted] at hn
      obtain ⟨hgranted, hqueue⟩ := hp.not_mem_queue hn waiting kind
      rw [queue, granted]
      refine List.pairwise_cons.mpr ⟨fun id hq => ?_, hi⟩
      have hle : ¬ p.Precedes id u.request.lockId := fun hlt => ho ⟨u, waiting, kind, held, id, hq, hlt⟩
      have hne : p.granted.idxOf u.request.lockId ≠ p.granted.idxOf id := by
        rw [Ne, List.idxOf_inj hgranted]
        rintro rfl
        exact hqueue hq
      unfold Precedes at hle
      omega

/-- A read that returns in front of an older one breaks the order. -/
theorem Stepped.not_inOrder {use : ReadUse} (hs : Stepped p p' use) (ho : p.ReturnsOutOfTurn use) : ¬ p'.InOrder := by
  cases hs with
  | asked => exact absurd ho id
  | released => exact absurd ho id
  | idle _ calm => exact absurd ho calm
  | answered n outcome u waiting answered =>
    obtain ⟨v, hv, hkind, hheld, id, hq, hlt⟩ := ho
    cases waiting.symm.trans hv
    intro hi
    cases answered with
    | granted kind => cases hkind.symm.trans kind
    | refused kind => cases hkind.symm.trans kind
    | finished kind gone => cases hheld.symm.trans gone
    | returned kind held queue granted ended =>
      rw [inOrder_iff, queue, granted] at hi
      exact Nat.lt_asymm hlt ((List.pairwise_cons.mp hi).1 id hq)

/-- The queue is in order, and a release that starts now is sent for the oldest read that is not over or being
released. -/
structure Fair (h : ReadWriteLock) (p : Readers) : Prop where
  inOrder : p.InOrder
  oldest : ∀ id ∈ p.granted, id ∉ p.ended → id ∉ p.releasing →
    ∃ request, (p.step h .release).handle.sent = p.handle.sent ++ [request] ∧ request.kind = .unlock ∧
      request.lockId ∈ p.queue ∧ (request.lockId = id ∨ p.Precedes request.lockId id)

/-- With the queue in order the read that is given back is the oldest one not yet being released. -/
private theorem Conserves.fair (hc : p.Conserves) (hi : p.InOrder) : p.Fair h where
  inOrder := hi
  oldest id hg he hr := by
    have hq : id ∈ p.queue := by
      rcases hc.placed id hg he with ⟨hq, -⟩ | ⟨-, hone⟩
      · exact hq
      · rw [List.count_eq_zero.mpr hr] at hone
        cases hone
    cases hreads : p.handle.state.reads with
    | nil =>
      rw [queue, hreads] at hq
      cases hq
    | cons lock rest =>
      obtain ⟨request, resume, hs, -, hkind, hid⟩ := step_release (h := h) hreads
      have hqueue : p.queue = lock.id :: rest.map (·.id) := by rw [queue, hreads, List.map_cons]
      rw [InOrder, hqueue] at hi
      rw [hqueue] at hq ⊢
      refine ⟨request, by rw [hs], hkind, hid ▸ List.mem_cons_self, ?_⟩
      rw [hid]
      exact (List.mem_cons.mp hq).imp Eq.symm ((List.pairwise_cons.mp hi).1 id)

end Step

/-! ### A whole use -/

variable {ids : IdSource} {uses : List ReadUse}

private theorem regular_run (uses : List ReadUse) : ((fresh ids).run h uses).Regular ids := by
  induction uses using List.reverseRecOn with
  | nil => exact regular_fresh ids
  | append_singleton uses use ih =>
    rw [run_concat]
    exact (stepped ih.belongs use).regular ih

private theorem stepped_run (before : List ReadUse) (use : ReadUse) :
    Stepped ((fresh ids).run h before) (((fresh ids).run h before).step h use) use :=
  stepped (regular_run before).belongs use

private theorem drawn_le_run {before : List ReadUse} (hb : before <+: uses) :
    ((fresh ids).run h before).handle.ids.drawn ≤ ((fresh ids).run h uses).handle.ids.drawn := by
  obtain ⟨after, rfl⟩ := hb
  induction after using List.reverseRecOn with
  | nil => rw [List.append_nil]
  | append_singleton after use ih =>
    rw [← List.append_assoc, run_concat]
    exact Nat.le_trans ih (stepped_run _ use).drawn_le

section Distinct

variable (hd : ((fresh ids).run h uses).handle.ids.drawn ≤ ids.drawn + 2147483648)
include hd

private theorem nodup_granted_run {before : List ReadUse} (hb : before <+: uses) :
    ((fresh ids).run h before).granted.Nodup :=
  (regular_run before).nodup_granted (Nat.le_trans (drawn_le_run hb) hd)

private theorem inOrder_run
    (ho : ∀ before use, before ++ [use] <+: uses → ¬ ((fresh ids).run h before).ReturnsOutOfTurn use)
    {before : List ReadUse} (hb : before <+: uses) : ((fresh ids).run h before).InOrder := by
  induction before using List.reverseRecOn with
  | nil => exact List.Pairwise.nil
  | append_singleton before use ih =>
    have hn := nodup_granted_run hd hb
    rw [run_concat] at hn ⊢
    have hi := ih ((List.prefix_append before [use]).trans hb)
    exact (stepped_run before use).inOrder (regular_run before) hi hn (ho before use hb)

end Distinct

/-- In any use by any number of callers, each read is in the queue, with a release or over as often as it was granted.
If the use draws no more than 2³¹ identifiers, no read is in the queue twice, and each read that was granted has one
place until it is over. Then the queue lists its reads in the order of their grants at all times, and each release
gives the oldest of them back, exactly if no read whose release fails returns in front of an older one. -/
theorem keeps_order_iff (h : ReadWriteLock) (ids : IdSource) (uses : List ReadUse) :
    (∀ id, ((fresh ids).run h uses).queue.count id + ((fresh ids).run h uses).releasing.count id +
      ((fresh ids).run h uses).ended.count id = ((fresh ids).run h uses).granted.count id) ∧
    (((fresh ids).run h uses).handle.ids.drawn ≤ ids.drawn + 2147483648 →
      (∀ before, before <+: uses → ((fresh ids).run h before).Conserves) ∧
      ((∀ before, before <+: uses → ((fresh ids).run h before).Fair h) ↔
        ∀ before use, before ++ [use] <+: uses → ¬ ((fresh ids).run h before).ReturnsOutOfTurn use)) := by
  refine ⟨(regular_run uses).conserved, fun hd => ?_⟩
  have conserves : ∀ before, before <+: uses → ((fresh ids).run h before).Conserves := fun before hb =>
    (regular_run before).conserves (nodup_granted_run hd hb)
  refine ⟨conserves, ⟨fun hf before use hb ho => ?_, fun ho before hb => ?_⟩⟩
  · refine (stepped_run before use).not_inOrder ho ?_
    rw [← run_concat]
    exact (hf _ hb).inOrder
  · exact (conserves before hb).fair (inOrder_run hd ho hb)

/-- Reads of the zero key. -/
def zeroKeyed : ReadWriteLock := ⟨0, default, default, default⟩

/-- A source of identifiers that starts at zero. -/
def zeroSeeded : IdSource := .seeded 0 fun _ => default

def success : Outcome Reply := .ok (.lock { (default : LockReply) with result := ResultCode.success })

def failure : Outcome Reply := .error .connectionClosed

/-- Two reads are granted, and the releases of both fail in the order in which they were sent. -/
def failedInTurn : List ReadUse :=
  [.acquire, .acquire, .answer 0 success, .answer 0 success, .release, .release, .answer 0 failure, .answer 0 failure]

/-- Then the reads stand in the queue the wrong way round, and the next release is sent for the one granted last. -/
theorem failedInTurn_reverses_queue :
    ((fresh zeroSeeded).run zeroKeyed failedInTurn).granted.Nodup ∧
    ((fresh zeroSeeded).run zeroKeyed failedInTurn).granted.length = 2 ∧
    ((fresh zeroSeeded).run zeroKeyed failedInTurn).queue =
      ((fresh zeroSeeded).run zeroKeyed failedInTurn).granted.reverse ∧
    ((fresh zeroSeeded).run zeroKeyed (failedInTurn ++ [.release])).handle.sent.getLast?.map (·.lockId) =
      ((fresh zeroSeeded).run zeroKeyed failedInTurn).granted.getLast? := by
  decide +kernel

/-- The releases of both reads fail in the other order, and after that one succeeds. -/
def failedInReverse : List ReadUse :=
  [.acquire, .acquire, .answer 0 success, .answer 0 success, .release, .release, .answer 1 failure, .answer 0 failure,
    .release, .answer 0 success]

/-- The queue keeps its order, and the last release gives back the oldest read. -/
theorem failedInReverse_keeps_order :
    ((fresh zeroSeeded).run zeroKeyed failedInReverse).handle.ids.drawn ≤ zeroSeeded.drawn + 2147483648 ∧
    ((fresh zeroSeeded).run zeroKeyed failedInReverse).queue.length = 1 ∧
    ∀ before, before <+: failedInReverse → ((fresh zeroSeeded).run zeroKeyed before).Conserves ∧
      ((fresh zeroSeeded).run zeroKeyed before).Fair zeroKeyed := by
  have hd : ((fresh zeroSeeded).run zeroKeyed failedInReverse).handle.ids.drawn ≤ zeroSeeded.drawn + 2147483648 := by
    decide +kernel
  obtain ⟨hconserves, hfair⟩ := (keeps_order_iff zeroKeyed zeroSeeded failedInReverse).2 hd
  refine ⟨hd, by decide +kernel, fun before hb => ⟨hconserves before hb, ?_⟩⟩
  exact hfair.mpr (forall_of_positions (by decide +kernel)) before hb

end Readers

end LockService.ReadWriteLock
