import LockService.Primitive.FlowCrowd
import LockService.Proofs.Chronicles
import LockService.Proofs.Idents

/-!
# Handles free only their own slots

Whichever call comes first on a handle makes its lock, and no call replaces it, so that all requests of the handle
carry one lock identifier. A lock that is made gets an identifier that the database has not given out before, as long as
the counter has not come round, so that no two handles have the same one
(`FlowLimit.Crowd.requests_keep_to_own_slots`).
-/

namespace LockService

/-! ### Calls on one component of a state -/

namespace Call

variable {ι σ α : Type} [DecidableEq ι] {call : Call σ α} {states : ι → σ} {i : ι} {s : σ} {ids ids' : IdSource}

private theorem advance_onComponent_of_finished {value : α}
    (h : call.advance (states i) ids = (.finished value, s, ids')) :
    (call.onComponent i).advance states ids = (.finished value, Function.update states i s, ids') := by
  induction call generalizing states ids with
  | done value =>
    cases h
    rw [Function.update_eq_self]
    rfl
  | look _ ih => exact ih (states i) h
  | put part next ih =>
    show (next.onComponent i).advance (Function.update states i part) ids = _
    rw [← Function.update_idem part s states]
    exact ih (by rwa [Function.update_self])
  | draw _ ih => exact ih ids.upcoming h
  | send _ _ => cases h

private theorem advance_onComponent_of_waiting {request : LockRequest} {resume : Outcome Reply → Call σ α}
    (h : call.advance (states i) ids = (.waiting request resume, s, ids')) :
    (call.onComponent i).advance states ids =
      (.waiting request fun outcome => (resume outcome).onComponent i, Function.update states i s, ids') := by
  induction call generalizing states ids with
  | done value => cases h
  | look _ ih => exact ih (states i) h
  | put part next ih =>
    show (next.onComponent i).advance (Function.update states i part) ids = _
    rw [← Function.update_idem part s states]
    exact ih (by rwa [Function.update_self])
  | draw _ ih => exact ih ids.upcoming h
  | send _ _ =>
    cases h
    rw [Function.update_eq_self]
    rfl

end Call

namespace FlowLimit

@[simp] theorem lockAs_id (h : FlowLimit) (id : Ident) : (h.lockAs id).id = id := by
  rw [lockAs]
  split <;> rfl

variable {ι : Type} {handles : ι → FlowLimit} {states : ι → State} {i : ι} {lock : Lock}

/-- The last section of a call, which tells of the answer to its request. -/
def told (outcome : Outcome Reply) : Call (ι → State) (Option (Outcome LockReply)) :=
  .done (some (outcome >>= lockOutcome))

namespace Crowd

abbrev Entry (ι : Type) := Chronicle.Entry (CrowdCall ι) (ι → State) (Option (Outcome LockReply))

/-! ### What holds of every call -/

/-- A call has sent requests of its handle's lock only, and when it goes on it just tells of the answer. -/
structure Orderly (states : ι → State) (entry : Entry ι) : Prop where
  waits : ∀ request resume, entry.stage = .waiting request resume → resume = told
  sent : ∀ i call, entry.call = .on i call → ∀ r ∈ entry.sent, ∃ lock requestId,
    states i = some lock ∧ r = lock.requestWith call.kind 0 requestId

private theorem Orderly.mono {states' : ι → State} {entry : Entry ι} (h : Orderly states entry)
    (hkept : ∀ i lock, states i = some lock → states' i = some lock) : Orderly states' entry := by
  refine ⟨h.waits, fun i call hcall r hr => ?_⟩
  obtain ⟨lock, requestId, hlock, rfl⟩ := h.sent i call hcall r hr
  exact ⟨lock, requestId, hkept i lock hlock, rfl⟩

/-- A call whose first request is one of its handle's lock is orderly. -/
private theorem orderly_waiting {found : ι → State} (hi : states i = some lock) (call : FlowCall) (requestId : Ident) :
    Orderly states ⟨.on i call, found, [], .waiting (lock.requestWith call.kind 0 requestId) told⟩ := by
  refine ⟨fun request resume hstage => by cases hstage; rfl, fun j call' hcall r hr => ?_⟩
  cases hcall
  cases List.mem_singleton.mp hr
  exact ⟨lock, requestId, hi, rfl⟩

/-- A call that is over without a request is orderly. -/
private theorem orderly_finished (states found : ι → State) (call : CrowdCall ι) (value : Option (Outcome LockReply)) :
    Orderly states ⟨call, found, [], .finished value⟩ :=
  ⟨fun _ _ hstage => (nomatch hstage), fun _ _ _ _ hr => absurd hr List.not_mem_nil⟩

/-- A call that hears the answer to its request and is over stays orderly. -/
private theorem Orderly.answered {call : CrowdCall ι} {found : ι → State} {exchanges : Exchanges}
    {request : LockRequest} {resume : Outcome Reply → Call (ι → State) (Option (Outcome LockReply))}
    (h : Orderly states ⟨call, found, exchanges, .waiting request resume⟩) (outcome : Outcome Reply)
    (value : Option (Outcome LockReply)) :
    Orderly states ⟨call, found, exchanges ++ [(request, outcome)], .finished value⟩ := by
  refine ⟨fun _ _ hstage => (nomatch hstage), fun i call' hcall r hr => h.sent i call' hcall r ?_⟩
  simpa [Chronicle.Entry.sent, Stage.pending] using hr

/-! ### The locks that are made -/

/-- Each lock is as its handle makes it, with one of the identifiers given out. -/
def Made (handles : ι → FlowLimit) (given : List Ident) (states : ι → State) : Prop :=
  ∀ i lock, states i = some lock → ∃ id ∈ given, lock = (handles i).lockAs id

/-- Different handles' locks have different identifiers. -/
def Apart (states : ι → State) : Prop :=
  ∀ i j lock lock', states i = some lock → states j = some lock' → lock.id = lock'.id → i = j

private theorem Made.mono {given given' : List Ident} (h : Made handles given states) (hsub : given ⊆ given') :
    Made handles given' states := by
  intro i lock hlock
  obtain ⟨id, hid, rfl⟩ := h i lock hlock
  exact ⟨id, hsub hid, rfl⟩

private theorem Made.id_mem {given : List Ident} (h : Made handles given states) (hlock : states i = some lock) :
    lock.id ∈ given := by
  obtain ⟨id, hid, rfl⟩ := h i lock hlock
  rwa [lockAs_id]

section

variable [DecidableEq ι] {new : Lock}

/-- After a handle's lock is made, the locks are the new one and the others. -/
private theorem eq_of_update_eq_some {j : ι} (h : Function.update states i (some new) j = some lock) :
    j = i ∧ lock = new ∨ states j = some lock := by
  rcases eq_or_ne j i with rfl | hj
  · rw [Function.update_self] at h
    exact .inl ⟨rfl, (Option.some.inj h).symm⟩
  · rw [Function.update_of_ne hj] at h
    exact .inr h

private theorem Made.update {given : List Ident} (h : Made handles given states) {id : Ident} (hid : id ∈ given) :
    Made handles given (Function.update states i (some ((handles i).lockAs id))) := by
  intro j lock hlock
  rcases eq_of_update_eq_some hlock with ⟨rfl, rfl⟩ | hlock
  · exact ⟨id, hid, rfl⟩
  · exact h j lock hlock

private theorem Apart.update (h : Apart states) (hnew : ∀ j lock, states j = some lock → lock.id ≠ new.id) :
    Apart (Function.update states i (some new)) := by
  intro j j' lock lock' hlock hlock' heq
  rcases eq_of_update_eq_some hlock with ⟨rfl, hmade⟩ | hold <;>
    rcases eq_of_update_eq_some hlock' with ⟨rfl, hmade'⟩ | hold'
  · rfl
  · exact absurd (heq.symm.trans (congrArg Lock.id hmade)) (hnew j' lock' hold')
  · exact absurd (heq.trans (congrArg Lock.id hmade')) (hnew j lock hold)
  · exact h j j' lock lock' hold hold' heq

/-- A lock that is made where there is none leaves the others. -/
private theorem update_of_none (hi : states i = none) {j : ι} (hlock : states j = some lock) :
    Function.update states i (some new) j = some lock := by
  rw [Function.update_of_ne, hlock]
  rintro rfl
  cases hi.symm.trans hlock

end

/-! ### Sections of the calls -/

section

variable [DecidableEq ι]

/-- On a handle with a lock, a call sends a request of that lock. -/
theorem advance_of_some (hi : states i = some lock) (call : FlowCall) (ids : IdSource) :
    (performIn handles (.on i call)).advance states ids =
      (.waiting (lock.requestWith call.kind 0 ids.upcoming) told, states, ids.advance) := by
  have h : (some <$> (handles i).call call).advance (states i) ids =
      (.waiting (lock.requestWith call.kind 0 ids.upcoming) fun outcome => .done (some (outcome >>= lockOutcome)),
        some lock, ids.advance) := by
    rw [hi]
    cases call <;> rfl
  refine (Call.advance_onComponent_of_waiting h).trans ?_
  rw [← hi, Function.update_eq_self]
  rfl

/-- On a handle without one, a call makes the lock and sends a request of it, unless it is a release that is
awaited. -/
theorem advance_of_none (hi : states i = none) {call : FlowCall} (hcall : call ≠ .release) (ids : IdSource) :
    (performIn handles (.on i call)).advance states ids =
      (.waiting (((handles i).lockAs ids.upcoming).requestWith call.kind 0 ids.advance.upcoming) told,
        Function.update states i (some ((handles i).lockAs ids.upcoming)), ids.advance.advance) := by
  have h : (some <$> (handles i).call call).advance (states i) ids =
      (.waiting (((handles i).lockAs ids.upcoming).requestWith call.kind 0 ids.advance.upcoming)
          fun outcome => .done (some (outcome >>= lockOutcome)),
        some ((handles i).lockAs ids.upcoming), ids.advance.advance) := by
    rw [hi]
    cases call with
    | release => exact absurd rfl hcall
    | acquire | postAcquire | postRelease => rfl
  exact Call.advance_onComponent_of_waiting h

/-- Such a release fails at once. -/
theorem advance_release_of_none (hi : states i = none) (ids : IdSource) :
    (performIn handles (.on i .release)).advance states ids =
      (.finished (some (.error .notHeld)), states, ids) := by
  have h : (some <$> (handles i).call .release).advance (states i) ids =
      (.finished (some (.error .notHeld)), none, ids) := by
    rw [hi]
    rfl
  refine (Call.advance_onComponent_of_finished h).trans ?_
  rw [← hi, Function.update_eq_self]

private theorem advance_prepare_of_some (hi : states i = some lock) (ids : IdSource) :
    (performIn handles (.prepare i)).advance states ids = (.finished none, states, ids) := by
  have h : ((fun _ => none) <$> (handles i).current : Call State (Option (Outcome LockReply))).advance (states i) ids =
      (.finished none, some lock, ids) := by
    rw [hi]
    rfl
  refine (Call.advance_onComponent_of_finished h).trans ?_
  rw [← hi, Function.update_eq_self]

private theorem advance_prepare_of_none (hi : states i = none) (ids : IdSource) :
    (performIn handles (.prepare i)).advance states ids =
      (.finished none, Function.update states i (some ((handles i).lockAs ids.upcoming)), ids.advance) := by
  have h : ((fun _ => none) <$> (handles i).current : Call State (Option (Outcome LockReply))).advance (states i) ids =
      (.finished none, some ((handles i).lockAs ids.upcoming), ids.advance) := by
    rw [hi]
    rfl
  exact Call.advance_onComponent_of_finished h

end

/-! ### What every event keeps -/

/-- After `k` draws from the source `ids`, all calls have been orderly, and each lock is as its handle makes it, with an
identifier from the source. As long as the counter has not come round, different handles' locks have different ones. -/
structure Regular (handles : ι → FlowLimit) (ids : IdSource) (k : Nat) (p : Crowd ι) : Prop where
  source : p.ids = IdSource.advance^[k] ids
  orderly : ∀ entry ∈ p.entries, Orderly p.state entry
  made : Made handles (ids.take k) p.state
  apart : k ≤ 2147483648 → Apart p.state

variable {ids : IdSource} {k : Nat} {p : Crowd ι} {entries : List (Entry ι)}

private theorem regular_fresh (handles : ι → FlowLimit) (ids : IdSource) : Regular handles ids 0 (fresh ids) where
  source := rfl
  orderly _ he := absurd he List.not_mem_nil
  made _ _ hlock := nomatch hlock
  apart _ _ _ _ _ hlock := nomatch hlock

namespace Regular

section

variable (hp : Regular handles ids k p)
include hp

private theorem source_add (n : Nat) : IdSource.advance^[n] p.ids = IdSource.advance^[k + n] ids := by
  rw [hp.source, Nat.add_comm, Function.iterate_add_apply]

theorem take_add (n : Nat) : ids.take (k + n) = ids.take k ++ p.ids.take n := by
  rw [IdSource.take_add, hp.source]

/-- Draws alone leave the locks as they are. -/
private theorem draws (n : Nat) (hentries : ∀ entry ∈ entries, Orderly p.state entry) :
    Regular handles ids (k + n) ⟨p.state, IdSource.advance^[n] p.ids, entries⟩ where
  source := hp.source_add n
  orderly := hentries
  made := hp.made.mono (hp.take_add n ▸ List.subset_append_left _ _)
  apart hk := hp.apart (by omega)

/-- No lock carries the identifier that is drawn next. -/
theorem id_ne_upcoming (hk : k < 2147483648) (hlock : p.state i = some lock) : lock.id ≠ p.ids.upcoming := by
  have hnot := IdSource.upcoming_not_mem_take hk ids
  rw [← hp.source] at hnot
  exact fun heq => hnot (heq ▸ hp.made.id_mem hlock)

/-- The entries after a call is started are orderly if its own is. -/
private theorem orderly_concat {states' : ι → State} (hkept : ∀ i lock, p.state i = some lock → states' i = some lock)
    {entry : Entry ι} (hentry : Orderly states' entry) : ∀ e ∈ p.entries ++ [entry], Orderly states' e := by
  intro e he
  rcases List.mem_append.mp he with he | he
  · exact (hp.orderly e he).mono hkept
  · cases List.mem_singleton.mp he
    exact hentry

end

variable [DecidableEq ι] (hp : Regular handles ids k p)
include hp

/-- A handle's lock may be made with the identifier that is drawn next, whether or not more are drawn then. -/
theorem makes (n : Nat) (hentries : ∀ entry ∈ entries,
      Orderly (Function.update p.state i (some ((handles i).lockAs p.ids.upcoming))) entry) :
    Regular handles ids (k + (n + 1)) ⟨Function.update p.state i (some ((handles i).lockAs p.ids.upcoming)),
      IdSource.advance^[n + 1] p.ids, entries⟩ where
  source := hp.source_add (n + 1)
  orderly := hentries
  made := by
    refine (hp.draws (n + 1) hp.orderly).made.update ?_
    rw [hp.take_add]
    exact List.mem_append_right _ List.mem_cons_self
  apart hk := (hp.apart (by omega)).update fun j lock hlock => by
    rw [lockAs_id]
    exact hp.id_ne_upcoming (by omega) hlock

private theorem start (call : CrowdCall ι) :
    ∃ k', Regular handles ids k' (p.step (performIn handles) (.start call)) := by
  cases call with
  | elsewhere =>
    rw [Chronicle.step_start rfl]
    exact ⟨k + 1, hp.draws 1 (hp.orderly_concat (fun _ _ hlock => hlock) (orderly_finished ..))⟩
  | prepare i =>
    cases hi : p.state i with
    | some lock =>
      rw [Chronicle.step_start (advance_prepare_of_some hi p.ids)]
      exact ⟨k, hp.draws 0 (hp.orderly_concat (fun _ _ hlock => hlock) (orderly_finished ..))⟩
    | none =>
      rw [Chronicle.step_start (advance_prepare_of_none hi p.ids)]
      exact ⟨k + 1, hp.makes 0 (hp.orderly_concat (fun _ _ hlock => update_of_none hi hlock) (orderly_finished ..))⟩
  | on i call =>
    cases hi : p.state i with
    | some lock =>
      rw [Chronicle.step_start (advance_of_some hi call p.ids)]
      exact ⟨k + 1, hp.draws 1 (hp.orderly_concat (fun _ _ hlock => hlock) (orderly_waiting hi ..))⟩
    | none =>
      rcases eq_or_ne call .release with rfl | hcall
      · rw [Chronicle.step_start (advance_release_of_none hi p.ids)]
        exact ⟨k, hp.draws 0 (hp.orderly_concat (fun _ _ hlock => hlock) (orderly_finished ..))⟩
      · rw [Chronicle.step_start (advance_of_none hi hcall p.ids)]
        exact ⟨k + 2, hp.makes 1 (hp.orderly_concat (fun _ _ hlock => update_of_none hi hlock)
          (orderly_waiting (Function.update_self ..) ..))⟩

private theorem answer (n : Nat) (outcome : Outcome Reply) :
    Regular handles ids k (p.step (performIn handles) (.answer n outcome)) := by
  cases ht : p.turn? (performIn handles) (.answer n outcome) with
  | none => rwa [Chronicle.step, ht]
  | some turn =>
    obtain ⟨_, hstart, -⟩ | ⟨_, _, call, found, exchanges, request, resume, heq, hn, -⟩ := Chronicle.turn?_cases ht
    · cases hstart
    · cases heq
      have horderly := hp.orderly _ (List.mem_of_getElem? hn)
      cases horderly.waits request resume rfl
      rw [Chronicle.step_answer hn rfl]
      refine hp.draws 0 fun entry he => ?_
      rcases List.mem_or_eq_of_mem_set he with he | rfl
      · exact hp.orderly entry he
      · exact horderly.answered outcome _

/-- No event upsets the locks of the handles, and the identifiers drawn are counted. -/
private theorem step (event : Chronicle.Event (CrowdCall ι)) :
    ∃ k', Regular handles ids k' (p.step (performIn handles) event) := by
  cases event with
  | start call => exact hp.start call
  | answer n outcome => exact ⟨k, hp.answer n outcome⟩

end Regular

private theorem regular_run [DecidableEq ι] (handles : ι → FlowLimit) (ids : IdSource)
    (events : List (Chronicle.Event (CrowdCall ι))) :
    ∃ k, Regular handles ids k ((fresh ids).run (performIn handles) events) := by
  induction events using List.reverseRecOn with
  | nil => exact ⟨0, regular_fresh handles ids⟩
  | append_singleton events event ih =>
    obtain ⟨k, hp⟩ := ih
    rw [Chronicle.run_concat]
    exact hp.step event

/-! ### What the requests carry -/

private theorem fits_requestWith (db : Database) (s : Settings) (id : Ident) (kind : CommandKind) (requestId : Ident) :
    s.Fits db (((s.make db).lockAs id).requestWith kind 0 requestId) := by
  have hcount : ((s.make db).permits - 1).toNat = max s.permits.toNat 1 - 1 := by
    have h := toNat_atLeastOne_sub_one s.permits
    show (atLeastOne s.permits - 1).toNat = _
    omega
  cases hpriority : s.priority with
  | none =>
    have hlock : (s.make db).lockAs id =
        { dbId := db.id, key := s.key, id, timeout := s.timeout, expire := s.expire,
          count := (s.make db).permits - 1 } := by
      simp [lockAs, Settings.make, Database.flowLimit, hpriority]
    rw [hlock]
    exact ⟨rfl, rfl, rfl, hcount, rfl, fun _ => ⟨rfl, rfl⟩, fun _ h => absurd (hpriority.symm.trans h) nofun⟩
  | some priority =>
    have hlock : (s.make db).lockAs id =
        { dbId := db.id, key := s.key, id, timeout := s.timeout.withModifiers TimeoutFlag.reentryIsPriority,
          expire := s.expire, count := (s.make db).permits - 1, reentry := priority } := by
      simp [lockAs, Settings.make, Database.flowLimit, hpriority]
    rw [hlock]
    refine ⟨rfl, rfl, rfl, hcount, rfl, fun h => absurd (hpriority.symm.trans h) nofun, fun _ h => ?_⟩
    cases hpriority.symm.trans h
    exact ⟨rfl, s.timeout.bits_withModifiers _⟩

/-- A request of a handle is one of the handle's lock. -/
private theorem Regular.exists_lock (hp : Regular handles ids k p) {r : LockRequest} (hr : r ∈ p.sentBy i) :
    ∃ lock kind requestId, p.state i = some lock ∧ r = lock.requestWith kind 0 requestId := by
  obtain ⟨entry, hentry, call, hcall, hr⟩ := hr
  obtain ⟨lock, requestId, hlock, rfl⟩ := (hp.orderly entry hentry).sent i call hcall r hr
  exact ⟨lock, call.kind, requestId, hlock, rfl⟩

/-- A request that has taken a slot has been sent. -/
private theorem mem_sentBy_of_mem_takenBy {r : LockRequest} (hr : r ∈ p.takenBy i) : r ∈ p.sentBy i := by
  obtain ⟨entry, hentry, call, hcall, -, outcome, hexchange, -⟩ := hr
  exact ⟨entry, hentry, call, hcall, List.mem_append_left _ (List.mem_map_of_mem hexchange)⟩

/-- Of whatever handles are made in a database, and in whatever order the sections of the calls on them run and answers
of whatever kind come in, all requests of a handle carry what the handle is made with, and two requests carry the same
lock identifier just if they are of one handle, as long as fewer than 2³¹ identifiers are drawn. A request that gives a
slot back therefore never names one that another handle has taken. -/
theorem requests_keep_to_own_slots [DecidableEq ι] (db : Database) (settings : ι → Settings) (ids : IdSource)
    (events : List (Chronicle.Event (CrowdCall ι))) :
    let p : Crowd ι := (fresh ids).run (performIn fun i => (settings i).make db) events
    p.ids.drawn - ids.drawn < 2147483648 →
      (∀ i, ∀ r ∈ p.sentBy i, (settings i).Fits db r) ∧
      (∀ i j, ∀ r ∈ p.sentBy i, ∀ r' ∈ p.sentBy j, r.lockId = r'.lockId ↔ i = j) ∧
      ∀ i j, i ≠ j → ∀ r ∈ p.sentBy i, r.kind = .unlock → ∀ taken ∈ p.takenBy j, r.lockId ≠ taken.lockId := by
  intro p hdrawn
  obtain ⟨k, hp⟩ := regular_run (fun i => (settings i).make db) ids events
  have hk : k < 2147483648 := by
    rwa [hp.source, IdSource.drawn_iterate, Nat.add_sub_cancel_left] at hdrawn
  have hsame : ∀ i j, ∀ r ∈ p.sentBy i, ∀ r' ∈ p.sentBy j, r.lockId = r'.lockId ↔ i = j := by
    intro i j r hr r' hr'
    obtain ⟨lock, kind, requestId, hlock, rfl⟩ := hp.exists_lock hr
    obtain ⟨lock', kind', requestId', hlock', rfl⟩ := hp.exists_lock hr'
    refine ⟨hp.apart (Nat.le_of_lt hk) i j lock lock' hlock hlock', ?_⟩
    rintro rfl
    cases hlock.symm.trans hlock'
    rfl
  refine ⟨fun i r hr => ?_, hsame, fun i j hij r hr _ taken htaken heq => ?_⟩
  · obtain ⟨lock, kind, requestId, hlock, rfl⟩ := hp.exists_lock hr
    obtain ⟨id, -, rfl⟩ := hp.made i lock hlock
    exact fits_requestWith ..
  · exact hij ((hsame i j r hr taken (mem_sentBy_of_mem_takenBy htaken)).mp heq)

/-- Two handles on one key with room for one holder, one of them with a priority. -/
def rivalSettings : Bool → Settings
  | false => { key := .ofBytes [107], permits := 0, timeout := .seconds 5, expire := .seconds 9, priority := none }
  | true => { key := .ofBytes [107], permits := 1, timeout := .seconds 5, expire := .seconds 9, priority := some 7 }

def rivalIds : IdSource := .seeded 0xfffffffe fun _ => ⟨1700000000000, 6⟩

/-- A call on the second is held up before its request, and the first takes its slot with a callback in the meantime.
The second fails to take its own, and nevertheless gives back twice. -/
def rivals : Crowd Bool := (fresh rivalIds).run (performIn fun i => (rivalSettings i).make ⟨2, 5, 5⟩) [
  .start (.on true .release), .start (.prepare true), .start (.on false .postAcquire), .start (.on true .acquire),
  .start .elsewhere, .answer 3 (.error .connectionClosed),
  .answer 2 (.ok (.lock { (default : LockReply) with result := ResultCode.success })),
  .start (.on true .postRelease), .start (.on true .release)]

/-- One handle never gives back what the other has taken. -/
theorem rivals_keep_to_own_slots :
    rivals.ids.drawn - rivalIds.drawn < 2147483648 ∧
      rivals.entries.map (fun entry => entry.sent.map (·.kind)) =
        [[], [], [.lock], [.lock], [], [.unlock], [.unlock]] ∧
      (rivals.takenBy false).Nonempty ∧
      ∀ r ∈ rivals.sentBy true, r.kind = .unlock → ∀ taken ∈ rivals.takenBy false, r.lockId ≠ taken.lockId := by
  have hdrawn : rivals.ids.drawn - rivalIds.drawn < 2147483648 := by decide
  have htaken : (rivals.takenBy false).Nonempty :=
    ⟨_, rivals.entries[2], List.getElem_mem _, .postAcquire, rfl, rfl, _, List.mem_cons_self, rfl⟩
  exact ⟨hdrawn, by decide, htaken,
    (requests_keep_to_own_slots ⟨2, 5, 5⟩ rivalSettings rivalIds _ hdrawn).2.2 true false (by decide)⟩

end Crowd

end FlowLimit

end LockService
