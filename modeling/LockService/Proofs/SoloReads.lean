import LockService.Primitive.ReadWriteSolo
import LockService.Proofs.SharedReads
import LockService.Proofs.SoloIds

/-!
# The queue of reads and the writer with a single caller

The queue lists the reads that were granted and are not over, in the order of their grants: every release is sent for
the first of them, which leaves the queue only if it is over. The writer has one identifier for good. Calls for reading
leave the writer alone, and calls for writing the queue (`single_caller_keeps_queue`).
-/

namespace LockService.ReadWriteLock

variable {h : ReadWriteLock} {p : Solo State ReadWriteCall}

/-! ### One call -/

private theorem step_acquireRead (answer : Outcome Reply) : p.step h.attempt .acquireRead answer =
    ⟨{ p.state with reads := p.state.reads ++ if answer.isGrant then [h.readAs p.ids.upcoming] else [] },
      p.ids.advance.advance, p.past ++ [.asking .acquireRead answer
        ((h.readAs p.ids.upcoming).requestWith .lock 0 p.ids.advance.upcoming)]⟩ := by
  obtain ⟨resume, ha, hr⟩ := advance_acquireRead (h := h) p.state p.ids
  have hstep : p.step h.attempt .acquireRead answer = _ := Solo.step_of_answered ha (hr answer _ _)
  rw [hstep, State.afterAcquire]
  split
  · rfl
  · rw [List.append_nil]
    rfl

private theorem step_releaseRead {lock : Lock} {rest : List Lock} (hs : p.state.reads = lock :: rest)
    (answer : Outcome Reply) : p.step h.attempt .releaseRead answer =
      ⟨{ p.state with reads := if answer.isOver then rest else lock :: rest }, p.ids.advance,
        p.past ++ [.asking .releaseRead answer (lock.requestWith .unlock 0 p.ids.upcoming)]⟩ := by
  obtain ⟨resume, ha, hr⟩ := advance_releaseRead (h := h) hs p.ids
  have hstep : p.step h.attempt .releaseRead answer = _ := Solo.step_of_answered ha (hr answer _ _)
  rw [hstep, State.afterRelease]
  split <;> rfl

private theorem step_releaseRead_of_nil (hs : p.state.reads = []) (answer : Outcome Reply) :
    p.step h.attempt .releaseRead answer = { p with past := p.past ++ [.unheld .releaseRead answer] } :=
  Solo.step_of_finished (advance_releaseRead_of_nil (h := h) hs p.ids)

private theorem step_acquireWrite {lock : Lock} (hl : p.state.write = some lock) (answer : Outcome Reply) :
    p.step h.attempt .acquireWrite answer = ⟨p.state, p.ids.advance,
      p.past ++ [.asking .acquireWrite answer (lock.requestWith .lock 0 p.ids.upcoming)]⟩ := by
  obtain ⟨⟨w, r⟩, ids, past⟩ := p
  cases hl
  rfl

private theorem step_acquireWrite_of_none (hl : p.state.write = none) (answer : Outcome Reply) :
    p.step h.attempt .acquireWrite answer =
      ⟨{ p.state with write := some (h.writeAs p.ids.upcoming) }, p.ids.advance.advance,
        p.past ++ [.asking .acquireWrite answer
          ((h.writeAs p.ids.upcoming).requestWith .lock 0 p.ids.advance.upcoming)]⟩ := by
  obtain ⟨⟨w, r⟩, ids, past⟩ := p
  cases hl
  rfl

private theorem step_releaseWrite {lock : Lock} (hl : p.state.write = some lock) (answer : Outcome Reply) :
    p.step h.attempt .releaseWrite answer = ⟨p.state, p.ids.advance,
      p.past ++ [.asking .releaseWrite answer (lock.requestWith .unlock 0 p.ids.upcoming)]⟩ := by
  obtain ⟨⟨w, r⟩, ids, past⟩ := p
  cases hl
  rfl

private theorem step_releaseWrite_of_none (hl : p.state.write = none) (answer : Outcome Reply) :
    p.step h.attempt .releaseWrite answer = { p with past := p.past ++ [.unheld .releaseWrite answer] } := by
  obtain ⟨⟨w, r⟩, ids, past⟩ := p
  cases hl
  rfl

/-! ### The books of the calls -/

section Past

variable {past : List (PastCall ReadWriteCall)} {m : PastCall ReadWriteCall} (answer : Outcome Reply)
  (request : LockRequest)

private theorem granted_concat (past : List (PastCall ReadWriteCall)) (m : PastCall ReadWriteCall) :
    granted (past ++ [m]) = granted past ++
      if m.call = .acquireRead ∧ m.answer.isGrant then m.sent.map (·.lockId) else [] := by
  rw [granted, List.flatMap_append, List.flatMap_singleton]
  rfl

private theorem ended_concat (past : List (PastCall ReadWriteCall)) (m : PastCall ReadWriteCall) :
    ended (past ++ [m]) = ended past ++
      if m.call = .releaseRead ∧ m.answer.isOver then m.sent.map (·.lockId) else [] := by
  rw [ended, List.flatMap_append, List.flatMap_singleton]
  rfl

private theorem granted_concat_of_ne (hm : m.call ≠ .acquireRead) : granted (past ++ [m]) = granted past := by
  rw [granted_concat, if_neg fun hc => hm hc.1, List.append_nil]

private theorem ended_concat_of_ne (hm : m.call ≠ .releaseRead) : ended (past ++ [m]) = ended past := by
  rw [ended_concat, if_neg fun hc => hm hc.1, List.append_nil]

private theorem granted_acquireRead : granted (past ++ [.asking .acquireRead answer request]) =
    granted past ++ if answer.isGrant then [request.lockId] else [] := by
  rw [granted_concat]
  by_cases hg : answer.isGrant = true <;> simp [hg]

private theorem ended_releaseRead : ended (past ++ [.asking .releaseRead answer request]) =
    ended past ++ if answer.isOver then [request.lockId] else [] := by
  rw [ended_concat]
  by_cases ho : answer.isOver = true <;> simp [ho]

end Past

/-! ### What every call keeps -/

/-- The queue has the handle's reads that were granted and are not over. -/
structure QueueKept (h : ReadWriteLock) (reads : List Lock) (past : List (PastCall ReadWriteCall)) : Prop where
  locks : ∀ lock ∈ reads, lock = h.readAs lock.id
  reads : granted past = ended past ++ reads.map (·.id)

/-- The writer's lock is made by the first acquire for writing, and all requests for writing are for it. -/
structure WriterKept (h : ReadWriteLock) (write : Option Lock) (past : List (PastCall ReadWriteCall)) : Prop where
  made : write = none ↔ ∀ m ∈ past, m.call ≠ .acquireWrite
  lock : ∀ lock ∈ write, lock = h.writeAs lock.id
  sent : ∀ m ∈ past, m.call.isWrite = true → ∀ request ∈ m.sent,
    ∃ lock ∈ write, request.lockId = lock.id ∧ request.lockKey = h.key ∧ request.count = 0

section Kept

variable {reads : List Lock} {write : Option Lock} {past : List (PastCall ReadWriteCall)} {m : PastCall ReadWriteCall}
  {request : LockRequest}

/-- A call for writing leaves the queue alone. -/
theorem QueueKept.extend (hq : QueueKept h reads past) (hm : m.call.isWrite = true) :
    QueueKept h reads (past ++ [m]) := by
  refine ⟨hq.locks, ?_⟩
  have hacquire : m.call ≠ .acquireRead := fun he => by cases he ▸ hm
  have hrelease : m.call ≠ .releaseRead := fun he => by cases he ▸ hm
  rw [granted_concat_of_ne hacquire, ended_concat_of_ne hrelease, hq.reads]

/-- A granted read goes to the end of the queue, and a refused one leaves no trace there. -/
private theorem QueueKept.acquireRead (hq : QueueKept h reads past) {id : Ident} (answer : Outcome Reply)
    (hid : request.lockId = id) :
    QueueKept h (reads ++ if answer.isGrant then [h.readAs id] else [])
      (past ++ [.asking .acquireRead answer request]) := by
  constructor
  · intro lock hl
    rcases List.mem_append.mp hl with hl | hl
    · exact hq.locks lock hl
    · split at hl
      · rw [List.mem_singleton.mp hl]
        rfl
      · cases hl
  · rw [granted_acquireRead, ended_concat_of_ne (by simp), hq.reads, hid, List.map_append, List.append_assoc]
    split <;> rfl

/-- The oldest read is over with its release, or stays the oldest. -/
private theorem QueueKept.releaseRead {lock : Lock} {rest : List Lock} (hq : QueueKept h (lock :: rest) past)
    (answer : Outcome Reply) (hid : request.lockId = lock.id) :
    QueueKept h (if answer.isOver then rest else lock :: rest)
      (past ++ [.asking .releaseRead answer request]) := by
  constructor
  · intro lock' hl
    split at hl
    · exact hq.locks lock' (List.mem_cons_of_mem _ hl)
    · exact hq.locks lock' hl
  · rw [granted_concat_of_ne (by simp), ended_releaseRead, hq.reads, hid, List.append_assoc]
    split <;> rfl

/-- Without a read there is nothing to release, and nothing is sent. -/
private theorem QueueKept.releaseRead_of_nil (hq : QueueKept h [] past) (answer : Outcome Reply) :
    QueueKept h [] (past ++ [.unheld .releaseRead answer]) := by
  refine ⟨hq.locks, ?_⟩
  rw [granted_concat_of_ne (by simp), ended_concat, hq.reads]
  simp

/-- A call for reading leaves the writer alone. -/
theorem WriterKept.extend (hw : WriterKept h write past) (hm : m.call.isWrite = false) :
    WriterKept h write (past ++ [m]) where
  made := by
    have hacquire : m.call ≠ .acquireWrite := fun he => by cases he ▸ hm
    rw [hw.made, List.forall_mem_append, List.forall_mem_singleton, and_iff_left hacquire]
  lock := hw.lock
  sent := by
    rw [List.forall_mem_append, List.forall_mem_singleton]
    exact ⟨hw.sent, fun hwrite => by cases hm.symm.trans hwrite⟩

/-- A call for writing asks for the writer's lock. -/
private theorem WriterKept.ask {lock : Lock} (hw : WriterKept h (some lock) past) (hsent : ∀ request ∈ m.sent,
    request.lockId = lock.id ∧ request.lockKey = lock.key ∧ request.count = lock.count) :
    WriterKept h (some lock) (past ++ [m]) where
  made := by
    rw [List.forall_mem_append, ← hw.made]
    exact iff_of_false (Option.some_ne_none _) fun hn => Option.some_ne_none _ hn.1
  lock := hw.lock
  sent := by
    rw [List.forall_mem_append, List.forall_mem_singleton]
    refine ⟨hw.sent, fun _ request hr => ⟨lock, rfl, ?_⟩⟩
    have hlock := hw.lock lock rfl
    rw [hlock] at hsent ⊢
    exact hsent request hr

/-- The first acquire for writing makes the writer's lock. -/
private theorem WriterKept.make {id : Ident} (hw : WriterKept h none past) (hm : m.call = .acquireWrite)
    (hsent : ∀ request ∈ m.sent, request.lockId = id ∧ request.lockKey = h.key ∧ request.count = 0) :
    WriterKept h (some (h.writeAs id)) (past ++ [m]) where
  made := by
    rw [List.forall_mem_append, List.forall_mem_singleton]
    exact iff_of_false (Option.some_ne_none _) fun hn => hn.2 hm
  lock lock hl := by
    cases hl
    rfl
  sent := by
    rw [List.forall_mem_append, List.forall_mem_singleton]
    refine ⟨fun m' hm' hwrite request hr => ?_, fun _ request hr => ⟨_, rfl, hsent request hr⟩⟩
    obtain ⟨_, hnone, -⟩ := hw.sent m' hm' hwrite request hr
    cases hnone

/-- A release for writing before the first acquire sends nothing. -/
private theorem WriterKept.releaseWrite_of_none (hw : WriterKept h none past) (answer : Outcome Reply) :
    WriterKept h none (past ++ [.unheld .releaseWrite answer]) where
  made := by
    rw [List.forall_mem_append, List.forall_mem_singleton, and_iff_left (by simp)]
    exact hw.made
  lock := hw.lock
  sent := by
    rw [List.forall_mem_append, List.forall_mem_singleton]
    exact ⟨hw.sent, fun _ request hr => absurd hr List.not_mem_nil⟩

end Kept

/-- The identifiers of the writer's lock and of the reads in the queue. -/
def State.heldIds (s : State) : List Ident := (s.write.map (·.id)).toList ++ s.reads.map (·.id)

private theorem State.mem_heldIds {s : State} {id : Ident} : id ∈ s.heldIds ↔
    (∃ lock ∈ s.write, lock.id = id) ∨ ∃ lock ∈ s.reads, lock.id = id := by
  simp [heldIds]

structure Regular (h : ReadWriteLock) (ids : IdSource) (p : Solo State ReadWriteCall) : Prop where
  queue : QueueKept h p.state.reads p.past
  writer : WriterKept h p.state.write p.past
  draws : p.Draws State.heldIds ids

private theorem regular_alone (h : ReadWriteLock) (ids : IdSource) : Regular h ids (alone ids) where
  queue := ⟨fun _ hl => absurd hl List.not_mem_nil, rfl⟩
  writer := ⟨iff_of_true rfl fun _ hm => absurd hm List.not_mem_nil, fun _ hl => absurd hl (Option.not_mem_none _),
    fun _ hm => absurd hm List.not_mem_nil⟩
  draws := ⟨⟨0, rfl⟩, fun _ hid => absurd hid List.not_mem_nil, fun _ hm => absurd hm List.not_mem_nil⟩

namespace Regular

variable {ids : IdSource}

private theorem acquireRead (hp : Regular h ids p) (answer : Outcome Reply) :
    Regular h ids (p.step h.attempt .acquireRead answer) := by
  obtain ⟨hqueue, hwriter, hdraws⟩ := hp
  rw [step_acquireRead]
  refine ⟨hqueue.acquireRead answer rfl, hwriter.extend rfl, hdraws.anew _ _ (fun id hid => ?_) rfl rfl⟩
  rcases State.mem_heldIds.mp hid with hid | ⟨lock, hl, rfl⟩
  · exact .inl (State.mem_heldIds.mpr (.inl hid))
  · rcases List.mem_append.mp hl with hl | hl
    · exact .inl (State.mem_heldIds.mpr (.inr ⟨lock, hl, rfl⟩))
    · split at hl
      · exact .inr (congrArg Lock.id (List.mem_singleton.mp hl))
      · cases hl

private theorem releaseRead (hp : Regular h ids p) (answer : Outcome Reply) :
    Regular h ids (p.step h.attempt .releaseRead answer) := by
  obtain ⟨hqueue, hwriter, hdraws⟩ := hp
  cases hr : p.state.reads with
  | nil =>
    rw [step_releaseRead_of_nil hr]
    rw [hr] at hqueue
    exact ⟨hr ▸ hqueue.releaseRead_of_nil answer, hwriter.extend rfl, hdraws.unheld _ _⟩
  | cons lock rest =>
    have hheld : ∀ lock' ∈ lock :: rest, lock'.id ∈ p.state.heldIds := fun lock' hl =>
      State.mem_heldIds.mpr (.inr ⟨lock', hr ▸ hl, rfl⟩)
    rw [step_releaseRead hr]
    rw [hr] at hqueue
    refine ⟨hqueue.releaseRead answer rfl, hwriter.extend rfl,
      hdraws.again _ _ (fun id hid => ?_) (hheld lock List.mem_cons_self) rfl⟩
    rcases State.mem_heldIds.mp hid with hid | ⟨lock', hl, rfl⟩
    · exact State.mem_heldIds.mpr (.inl hid)
    · dsimp only at hl
      split at hl
      · exact hheld lock' (List.mem_cons_of_mem _ hl)
      · exact hheld lock' hl

private theorem acquireWrite (hp : Regular h ids p) (answer : Outcome Reply) :
    Regular h ids (p.step h.attempt .acquireWrite answer) := by
  obtain ⟨hqueue, hwriter, hdraws⟩ := hp
  cases hl : p.state.write with
  | some lock =>
    rw [step_acquireWrite hl]
    rw [hl] at hwriter
    exact ⟨hqueue.extend rfl, hl ▸ hwriter.ask (by simp [Lock.requestWith]),
      hdraws.again _ _ (fun _ hid => hid) (State.mem_heldIds.mpr (.inl ⟨lock, hl, rfl⟩)) rfl⟩
  | none =>
    rw [step_acquireWrite_of_none hl]
    rw [hl] at hwriter
    refine ⟨hqueue.extend rfl, hwriter.make rfl (by simp [Lock.requestWith, writeAs]),
      hdraws.anew _ _ (fun id hid => ?_) rfl rfl⟩
    rcases State.mem_heldIds.mp hid with ⟨lock, hlock, rfl⟩ | hid
    · cases hlock
      exact .inr rfl
    · exact .inl (State.mem_heldIds.mpr (.inr hid))

private theorem releaseWrite (hp : Regular h ids p) (answer : Outcome Reply) :
    Regular h ids (p.step h.attempt .releaseWrite answer) := by
  obtain ⟨hqueue, hwriter, hdraws⟩ := hp
  cases hl : p.state.write with
  | some lock =>
    rw [step_releaseWrite hl]
    rw [hl] at hwriter
    exact ⟨hqueue.extend rfl, hl ▸ hwriter.ask (by simp [Lock.requestWith]),
      hdraws.again _ _ (fun _ hid => hid) (State.mem_heldIds.mpr (.inl ⟨lock, hl, rfl⟩)) rfl⟩
  | none =>
    rw [step_releaseWrite_of_none hl]
    rw [hl] at hwriter
    exact ⟨hqueue.extend rfl, hl ▸ hwriter.releaseWrite_of_none answer, hdraws.unheld _ _⟩

/-- Every call keeps the queue, the writer's lock and the identifiers regular. -/
private theorem step (hp : Regular h ids p) (call : ReadWriteCall) (answer : Outcome Reply) :
    Regular h ids (p.step h.attempt call answer) :=
  match call with
  | .acquireRead => hp.acquireRead answer
  | .releaseRead => hp.releaseRead answer
  | .acquireWrite => hp.acquireWrite answer
  | .releaseWrite => hp.releaseWrite answer

end Regular

/-- What one call preserves a history does. -/
private theorem Regular.run {ids : IdSource} (hp : Regular h ids p) (calls : List (ReadWriteCall × Outcome Reply)) :
    Regular h ids (p.run h.attempt calls) :=
  Solo.keeps_run (fun _ call answer hq => hq.step call answer) hp calls

/-! ### The queue and the writer -/

/-- A request about one of the handle's reads. -/
structure IsForRead (h : ReadWriteLock) (kind : CommandKind) (id : Ident) (r : LockRequest) : Prop where
  kind : r.kind = kind
  lockId : r.lockId = id
  lockKey : r.lockKey = h.key
  count : r.count = unboundedCount

/-- What holds of a handle whose source of identifiers was `ids` when it was new. -/
structure KeepsQueue (h : ReadWriteLock) (ids : IdSource) (p : Solo State ReadWriteCall) : Prop where
  /-- The reads that were granted are, in order, those that are over and those in the queue. -/
  queue : granted p.past = ended p.past ++ p.state.reads.map (·.id)
  readCount : p.state.readCount = (granted p.past).length - (ended p.past).length
  /-- An acquire asks for a read under the identifier drawn next; if it is granted, it comes last in the queue. -/
  acquireRead : ∀ answer, ∃ request, IsForRead h .lock p.ids.upcoming request ∧
    p.step h.attempt .acquireRead answer =
      ⟨{ p.state with reads := p.state.reads ++ if answer.isGrant then [h.readAs p.ids.upcoming] else [] },
        p.ids.advance.advance, p.past ++ [.asking .acquireRead answer request]⟩
  /-- A release gives back the first read of the queue, which leaves it exactly if it is over. -/
  releaseRead : ∀ lock rest, p.state.reads = lock :: rest → ∀ answer, ∃ request,
    IsForRead h .unlock lock.id request ∧ p.step h.attempt .releaseRead answer =
      ⟨{ p.state with reads := if answer.isOver then rest else lock :: rest }, p.ids.advance,
        p.past ++ [.asking .releaseRead answer request]⟩
  /-- With nothing in the queue, a release fails, sends nothing and changes nothing. -/
  unheldRead : p.state.reads = [] → ∀ answer,
    p.step h.attempt .releaseRead answer = { p with past := p.past ++ [.unheld .releaseRead answer] }
  /-- All requests for writing have one identifier. -/
  write : ∃ id, ∀ m ∈ p.past, m.call.isWrite = true → ∀ request ∈ m.sent,
    request.lockId = id ∧ request.lockKey = h.key ∧ request.count = 0
  /-- An acquire for writing sends one request and leaves the queue alone. -/
  acquireWrite : ∀ answer, ∃ request write ids', request.kind = .lock ∧ p.step h.attempt .acquireWrite answer =
    ⟨{ p.state with write }, ids', p.past ++ [.asking .acquireWrite answer request]⟩
  /-- A release for writing sends one request once there has been an acquire. -/
  releaseWrite : (∃ m ∈ p.past, m.call = .acquireWrite) → ∀ answer, ∃ request, request.kind = .unlock ∧
    p.step h.attempt .releaseWrite answer =
      ⟨p.state, p.ids.advance, p.past ++ [.asking .releaseWrite answer request]⟩
  /-- Before that, it fails, sends nothing and changes nothing. -/
  unheldWrite : (∀ m ∈ p.past, m.call ≠ .acquireWrite) → ∀ answer,
    p.step h.attempt .releaseWrite answer = { p with past := p.past ++ [.unheld .releaseWrite answer] }
  /-- All identifiers in requests have been drawn. -/
  sent : ∀ m ∈ p.past, ∀ request ∈ m.sent,
    request.lockId ∈ p.earlier ids ∧ request.requestId ∈ p.earlier ids
  /-- The identifier that is drawn next differs from all that have been drawn. -/
  fresh : p.ids.drawn - ids.drawn < 2147483648 → p.ids.upcoming ∉ p.earlier ids

/-- All requests of the writer are about one lock on the key. -/
private theorem WriterKept.exists_id {write : Option Lock} {past : List (PastCall ReadWriteCall)}
    (hw : WriterKept h write past) : ∃ id, ∀ m ∈ past, m.call.isWrite = true → ∀ request ∈ m.sent,
      request.lockId = id ∧ request.lockKey = h.key ∧ request.count = 0 := by
  cases write with
  | none =>
    refine ⟨Ident.zero, fun m hm hwrite request hr => ?_⟩
    obtain ⟨_, hnone, -⟩ := hw.sent m hm hwrite request hr
    cases hnone
  | some lock =>
    refine ⟨lock.id, fun m hm hwrite request hr => ?_⟩
    obtain ⟨_, hl, hsent⟩ := hw.sent m hm hwrite request hr
    cases hl
    exact hsent

private theorem Regular.keepsQueue {ids : IdSource} (hp : Regular h ids p) : KeepsQueue h ids p where
  queue := hp.queue.reads
  readCount := by
    rw [hp.queue.reads, List.length_append, Nat.add_sub_cancel_left, List.length_map, State.readCount]
  acquireRead answer := ⟨_, ⟨rfl, rfl, rfl, rfl⟩, step_acquireRead answer⟩
  releaseRead lock rest hr answer := by
    have hlock := hp.queue.locks lock (hr ▸ List.mem_cons_self)
    refine ⟨_, ⟨rfl, rfl, ?_, ?_⟩, step_releaseRead hr answer⟩ <;> rw [hlock] <;> rfl
  unheldRead := step_releaseRead_of_nil
  write := hp.writer.exists_id
  acquireWrite answer := by
    cases hl : p.state.write with
    | some lock =>
      exact ⟨lock.requestWith .lock 0 p.ids.upcoming, p.state.write, _, rfl, step_acquireWrite hl answer⟩
    | none =>
      exact ⟨(h.writeAs p.ids.upcoming).requestWith .lock 0 p.ids.advance.upcoming, _, _, rfl,
        step_acquireWrite_of_none hl answer⟩
  releaseWrite hasked answer := by
    cases hl : p.state.write with
    | some lock =>
      exact ⟨lock.requestWith .unlock 0 p.ids.upcoming, rfl, step_releaseWrite hl answer⟩
    | none =>
      obtain ⟨m, hm, hcall⟩ := hasked
      exact absurd hcall (hp.writer.made.mp hl m hm)
  unheldWrite hunasked answer := step_releaseWrite_of_none (hp.writer.made.mpr hunasked) answer
  sent := hp.draws.sent
  fresh := hp.draws.upcoming_not_mem

/-- A single caller's calls, however they are answered, keep the queue and the writer of the handle. -/
theorem single_caller_keeps_queue (h : ReadWriteLock) (ids : IdSource)
    (calls : List (ReadWriteCall × Outcome Reply)) : KeepsQueue h ids ((alone ids).run h.attempt calls) :=
  ((regular_alone h ids).run calls).keepsQueue

/-- Two reads around an attempt to write, a release that gets no answer and one that succeeds. -/
def visit : List (ReadWriteCall × Outcome Reply) :=
  [(.acquireRead, Readers.success), (.acquireWrite, Readers.failure), (.acquireRead, Readers.success),
    (.releaseRead, Readers.failure), (.releaseRead, Readers.success)]

def afterVisit : Solo State ReadWriteCall := (alone Readers.zeroSeeded).run Readers.zeroKeyed.attempt visit

/-- The second read is left; the next release is sent for it and, refused, leaves it there. -/
theorem visit_leaves_second_read : ∃ lock, afterVisit.state.reads = [lock] ∧
    granted afterVisit.past = ended afterVisit.past ++ [lock.id] ∧ (granted afterVisit.past).length = 2 ∧
    (∃ request, IsForRead Readers.zeroKeyed .unlock lock.id request ∧
      afterVisit.step Readers.zeroKeyed.attempt .releaseRead Readers.failure =
        ⟨afterVisit.state, afterVisit.ids.advance,
          afterVisit.past ++ [.asking .releaseRead Readers.failure request]⟩) ∧
    afterVisit.ids.upcoming ∉ afterVisit.earlier Readers.zeroSeeded := by
  have hkept := single_caller_keeps_queue Readers.zeroKeyed Readers.zeroSeeded visit
  refine ⟨_, rfl, hkept.queue, by decide +kernel, ?_, hkept.fresh (by decide +kernel)⟩
  exact hkept.releaseRead _ [] rfl Readers.failure

end LockService.ReadWriteLock
