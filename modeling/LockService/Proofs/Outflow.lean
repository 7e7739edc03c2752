import LockService.Call.Interleaving
import LockService.Client.Outflow
import LockService.Proofs.Stream
import LockService.Proofs.Teardown
import Mathlib.Data.List.Induction
import Mathlib.Data.List.Infix
import Mathlib.Data.List.Perm.Basic

/-!
# The order in which frames leave

Frames leave a session whole and once each, and only after their requests have been entered into its table. They leave
in the order in which the requests were posted exactly if no task gets the writer before one whose request was posted
earlier (`Outflow.leaves_in_turn_iff`). Nothing but the scheduler sees to that: a request to give a lock back can leave
before the request to take it (`Outflow.unlock_leaves_before_lock`).
-/

namespace LockService

namespace Client

variable {c : Client} {i : Nat} {s : SessionId} {session : Session}

/-- A change to the live session that does not tear it down leaves it the live one. -/
theorem liveSession?_change (hl : c.liveSession? i = some (s, session)) {f : Session → Session}
    (hf : ∀ x, (f x).tornDown = x.tornDown) :
    (c.change i fun k => k.changeSession s f).liveSession? i = some (s, f session) := by
  unfold liveSession? Connection.liveSession? at hl
  simp only [Option.bind_eq_bind, Option.bind_eq_some_iff] at hl
  obtain ⟨k, hk, s', hs', session', hsession, halive⟩ := hl
  split at halive
  · cases halive
  · rename_i htorn
    cases halive
    simp [liveSession?, Connection.liveSession?, change, Connection.changeSession, hk, hs', hsession, hf, htorn]

end Client

namespace Outflow

variable {i : Nat} {p p' : Outflow} {s : SessionId} {t : TableId}

private theorem outbox_eq {session : Session} (hl : p.client.liveSession? i = some (s, session)) :
    p.outbox i = session.outbox := by
  rw [outbox, hl]
  rfl

private theorem written_eq {session : Session} (hl : p.client.liveSession? i = some (s, session)) :
    p.written i = session.written := by
  rw [written, hl]
  rfl

/-! ### What an event does -/

/-- The live session has an open table. -/
structure Live (i : Nat) (s : SessionId) (t : TableId) (p : Outflow) : Prop where
  session : ∃ session, p.client.liveSession? i = some (s, session) ∧ session.table = t
  isOpen : (p.client.board.table t).closed = false
  exists_table : t < p.client.board.tables.length

/-- What an event comes to: a request is posted, a task gets the writer, or bytes move on. -/
inductive Changes (i : Nat) (p p' : Outflow) : Event → Prop where
  | posted (now : Nat) (request : Request) (outbox : p'.outbox i = p.outbox i ++ [request])
      (written : p'.written i = p.written i) (registered : p'.registered = p.registered ++ [request])
      (unsent : p'.unsent = p.unsent) (stream : p'.stream = p.stream) : Changes i p p' (.post now request)
  | served (n : Nat) (request : Request) (free : p.unsent = none) (waiting : (p.outbox i)[n]? = some request)
      (outbox : p'.outbox i = (p.outbox i).eraseIdx n) (written : p'.written i = p.written i ++ [request])
      (registered : p'.registered = p.registered) (unsent : p'.unsent = some request.encode)
      (stream : p'.stream = p.stream) : Changes i p p' (.serve n)
  | moved (event : Event) (calm : event.request? = none) (fair : ¬ p.Overtakes i event)
      (outbox : p'.outbox i = p.outbox i) (written : p'.written i = p.written i)
      (registered : p'.registered = p.registered)
      (bytes : p'.stream ++ p'.unsent.getD [] = p.stream ++ p.unsent.getD []) : Changes i p p' event

/-- A posted request is in the table of the live session. -/
private theorem Live.post (hl : p.Live i s t) (now : Nat) (request : Request) :
    (p.step i (.post now request)).Live i s t ∧ Changes i p (p.step i (.post now request)) (.post now request) ∧
      ∃ e, (p.step i (.post now request)).client.board.holder? t request.requestId = some (.entry e) := by
  obtain ⟨session, hsession, rfl⟩ := hl.session
  let deferred := (p.client.board.defer now request.requestId (p.client.bound request) session.table).2
  let pending := Pending.entry p.client.board.entries.length
  let b := (deferred.register session.table request.requestId pending).2
  have hopen : (deferred.table session.table).closed = false := hl.isOpen
  have htable : session.table < deferred.tables.length := hl.exists_table
  have hstep : p.step i (.post now request) = { p with
      client := { p.client with board := b }.orderWrite i s request, registered := p.registered ++ [request] } := by
    simp only [step, Outflow.post, hsession, Client.postOn, Switchboard.deferRegistered_of_open hl.isOpen, hl.isOpen,
      Bool.false_eq_true, if_false]
    rfl
  have hafter : (p.step i (.post now request)).client.liveSession? i =
      some (s, { session with outbox := session.outbox ++ [request] }) := by
    rw [hstep]
    exact Client.liveSession?_change (c := { p.client with board := b }) hsession fun _ => rfl
  refine ⟨⟨⟨_, hafter, rfl⟩, ?_, ?_⟩, .posted now request ?_ ?_ ?_ ?_ ?_, p.client.board.entries.length, ?_⟩
  · rw [hstep]
    exact (Switchboard.closed_register deferred session.table _ pending session.table).trans hopen
  · rw [hstep]
    exact htable.trans_eq (Switchboard.length_tables_register deferred session.table _ pending).symm
  · rw [outbox_eq hafter, outbox_eq hsession]
  · rw [written_eq hafter, written_eq hsession]
  · rw [hstep]
  · rw [hstep]
  · rw [hstep]
  · rw [hstep]
    exact (Switchboard.holder?_register htable hopen _ pending session.table _).trans (if_pos ⟨rfl, rfl⟩)

/-- Nobody gets the writer while somebody has it, or when no such task waits. -/
theorem step_serve_of_not {session : Session} {n : Nat} (hl : p.client.liveSession? i = some (s, session))
    (hno : ¬ (p.unsent = none ∧ n < session.outbox.length)) : p.step i (.serve n) = p := by
  simp only [step, Outflow.serve, hl]
  split
  · rename_i hfree hsession
    cases hsession
    split
    · rename_i request hn
      exact absurd ⟨hfree, (List.getElem?_eq_some_iff.mp hn).1⟩ hno
    · rfl
  · rfl

private theorem Live.serve (hl : p.Live i s t) (n : Nat) :
    (p.step i (.serve n)).Live i s t ∧ Changes i p (p.step i (.serve n)) (.serve n) := by
  obtain ⟨session, hsession, rfl⟩ := hl.session
  by_cases hgo : p.unsent = none ∧ n < session.outbox.length
  · obtain ⟨hfree, hlt⟩ := hgo
    have hn : session.outbox[n]? = some session.outbox[n] := List.getElem?_eq_getElem hlt
    have hstep : p.step i (.serve n) = { p with
        client := p.client.write i s n, unsent := some session.outbox[n].encode } := by
      simp only [step, Outflow.serve, hfree, hsession, hn]
    have hafter : (p.step i (.serve n)).client.liveSession? i = some (s, { session with
        outbox := session.outbox.eraseIdx n, written := session.written ++ [session.outbox[n]] }) := by
      rw [hstep]
      refine (Client.liveSession?_change hsession fun x => ?_).trans ?_
      · split <;> rfl
      · rw [hn]
    refine ⟨⟨⟨_, hafter, rfl⟩, ?_, ?_⟩, .served n session.outbox[n] hfree ?_ ?_ ?_ ?_ ?_ ?_⟩
    · rw [hstep]
      exact hl.isOpen
    · rw [hstep]
      exact hl.exists_table
    · rw [outbox_eq hsession, hn]
    · rw [outbox_eq hafter, outbox_eq hsession]
    · rw [written_eq hafter, written_eq hsession]
    · rw [hstep]
    · rw [hstep]
    · rw [hstep]
  · rw [step_serve_of_not hsession hgo]
    refine ⟨hl, .moved _ rfl ?_ rfl rfl rfl rfl⟩
    rintro ⟨hfree, -, hlt⟩
    rw [outbox_eq hsession] at hlt
    exact hgo ⟨hfree, hlt⟩

private theorem Live.step (hl : p.Live i s t) (event : Event) :
    (p.step i event).Live i s t ∧ Changes i p (p.step i event) event := by
  cases event with
  | post now request => exact ⟨(hl.post now request).1, (hl.post now request).2.1⟩
  | serve n => exact hl.serve n
  | push count =>
    simp only [Outflow.step]
    split
    · rename_i bytes hunsent
      refine ⟨⟨hl.session, hl.isOpen, hl.exists_table⟩, .moved _ rfl id rfl rfl rfl ?_⟩
      simp [hunsent]
    · exact ⟨hl, .moved _ rfl id rfl rfl rfl rfl⟩
  | letGo =>
    simp only [Outflow.step]
    split
    · rename_i hunsent
      refine ⟨⟨hl.session, hl.isOpen, hl.exists_table⟩, .moved _ rfl id rfl rfl rfl ?_⟩
      simp [hunsent]
    · exact ⟨hl, .moved _ rfl id rfl rfl rfl rfl⟩

/-! ### Whole frames, once each -/

/-- Every request that was posted is written once or still waits, and the stream holds the frames of what is written. -/
structure Flows (i : Nat) (p : Outflow) : Prop where
  once : (p.written i ++ p.outbox i).Perm p.registered
  waiting : (p.outbox i).Sublist p.registered
  whole : p.stream ++ p.unsent.getD [] = ((p.written i).map Request.encode).flatten

private theorem Changes.flows {event : Event} (hc : Changes i p p' event) (hf : p.Flows i) : p'.Flows i := by
  cases hc with
  | posted now request outbox written registered unsent stream =>
    refine ⟨?_, ?_, ?_⟩
    · rw [outbox, written, registered, ← List.append_assoc]
      exact hf.once.append_right _
    · rw [outbox, registered]
      exact hf.waiting.append (List.Sublist.refl _)
    · rw [written, unsent, stream]
      exact hf.whole
  | served n request free waiting outbox written registered unsent stream =>
    obtain ⟨hn, rfl⟩ := List.getElem?_eq_some_iff.mp waiting
    refine ⟨?_, ?_, ?_⟩
    · rw [outbox, written, registered, List.append_assoc]
      exact ((List.getElem_cons_eraseIdx_perm hn).append_left _).trans hf.once
    · rw [outbox, registered]
      exact (List.eraseIdx_sublist _ _).trans hf.waiting
    · have hwhole := hf.whole
      rw [free, Option.getD_none, List.append_nil] at hwhole
      rw [written, unsent, stream, hwhole]
      simp
  | moved event calm fair outbox written registered bytes =>
    refine ⟨?_, ?_, ?_⟩
    · rw [outbox, written, registered]
      exact hf.once
    · rw [outbox, registered]
      exact hf.waiting
    · rw [bytes, written]
      exact hf.whole

private theorem Flows.frames (hf : p.Flows i) : (splitFrames p.stream).1 <+: (p.written i).map Request.encode ∧
    (p.unsent = none → splitFrames p.stream = ((p.written i).map Request.encode, [])) := by
  have hlength : ∀ frame ∈ (p.written i).map Request.encode, frame.length = frameSize := by simp
  have hall := splitFrames_flatten hlength
  rw [← hf.whole] at hall
  refine ⟨?_, fun hnone => ?_⟩
  · rw [splitFrames_append, Prod.mk.injEq] at hall
    exact ⟨_, hall.1⟩
  · rwa [hnone, Option.getD_none, List.append_nil] at hall

/-! ### Whose turn it is -/

/-- The requests are written in the order in which they were posted, those that wait last. -/
def InTurn (i : Nat) (p : Outflow) : Prop := p.written i ++ p.outbox i = p.registered

/-- Frames and waiting requests stay in turn unless a task overtakes an earlier one. -/
private theorem Changes.inTurn {event : Event} (hc : Changes i p p' event) (ht : p.InTurn i)
    (ho : ¬ p.Overtakes i event) : p'.InTurn i := by
  cases hc with
  | posted now request outbox written registered =>
    rw [InTurn, outbox, written, registered, ← List.append_assoc, ht]
  | served n request free waiting outbox written registered =>
    have hn := (List.getElem?_eq_some_iff.mp waiting).1
    have hzero : n = 0 := Nat.eq_zero_of_not_pos fun hpos => ho ⟨free, hpos, hn⟩
    subst hzero
    cases hq : p.outbox i with
    | nil =>
      rw [hq] at hn
      cases hn
    | cons first rest =>
      rw [hq] at waiting outbox
      cases waiting
      rw [InTurn, outbox, written, registered, List.append_assoc, ← ht, hq]
      rfl
  | moved event calm fair outbox written registered =>
    rw [InTurn, outbox, written, registered]
    exact ht

private theorem sublist_of_disjoint {xs ys zs : List Request} (h : xs.Sublist (ys ++ zs)) (hd : ∀ y ∈ ys, y ∉ xs) :
    xs.Sublist zs := by
  obtain ⟨l, r, rfl, hl, hr⟩ := List.sublist_append_iff.mp h
  cases l with
  | nil => exact hr
  | cons first rest => exact absurd List.mem_cons_self (hd first (hl.mem List.mem_cons_self))

/-- What is out of turn stays so, and whoever overtakes puts it out of turn. -/
private theorem Changes.of_inTurn {event : Event} (hc : Changes i p p' event) (hf : p.Flows i) (hd : p.registered.Nodup)
    (ht : p'.InTurn i) : p.InTurn i ∧ ¬ p.Overtakes i event := by
  cases hc with
  | posted now request outbox written registered =>
    rw [InTurn, outbox, written, registered, ← List.append_assoc] at ht
    exact ⟨List.append_cancel_right ht, id⟩
  | served n request free waiting outbox written registered =>
    obtain ⟨hn, hrequest⟩ := List.getElem?_eq_some_iff.mp waiting
    rw [InTurn, outbox, written, registered, List.append_assoc] at ht
    have hnodup := hf.once.nodup_iff.mpr hd
    obtain ⟨-, hqueue, hdisjoint⟩ := List.nodup_append.mp hnodup
    -- what waits is part of what comes behind the requests written so far, and as long
    have hsub : (p.outbox i).Sublist (request :: (p.outbox i).eraseIdx n) := by
      have hwaiting := hf.waiting
      rw [← ht] at hwaiting
      exact sublist_of_disjoint hwaiting fun first hw hq => hdisjoint first hw first hq rfl
    have heq : p.outbox i = request :: (p.outbox i).eraseIdx n := by
      refine hsub.eq_of_length ?_
      rw [List.length_cons, List.length_eraseIdx_of_lt hn]
      omega
    refine ⟨?_, fun ho => ?_⟩
    · rw [InTurn, heq]
      exact ht
    · have hfirst : (p.outbox i)[0]? = some request := by
        rw [heq]
        rfl
      have hzero : n = 0 := (List.getElem?_inj hn hqueue).mp (waiting.trans hfirst.symm)
      exact Nat.lt_irrefl 0 (hzero ▸ ho.2.1)
  | moved event calm fair outbox written registered =>
    rw [InTurn, outbox, written, registered] at ht
    exact ⟨ht, fair⟩

/-! ### A whole run -/

section Run

variable {events : List Event}

private theorem Changes.registered_eq {event : Event} (hc : Changes i p p' event) :
    p'.registered = p.registered ++ event.request?.toList := by
  cases hc with
  | posted now request outbox written registered => exact registered
  | served n request free waiting outbox written registered => rw [registered]; exact (List.append_nil _).symm
  | moved event calm fair outbox written registered => rw [registered, calm]; exact (List.append_nil _).symm

private theorem Live.run (hl : p.Live i s t) (events : List Event) : (p.run i events).Live i s t := by
  induction events using List.reverseRecOn with
  | nil => exact hl
  | append_singleton events event ih =>
    rw [run_concat]
    exact (ih.step event).1

private theorem Live.registered_run (hl : p.Live i s t) (events : List Event) :
    (p.run i events).registered = p.registered ++ events.filterMap (·.request?) := by
  induction events using List.reverseRecOn with
  | nil => exact (List.append_nil _).symm
  | append_singleton events event ih =>
    rw [run_concat, ((hl.run events).step event).2.registered_eq, ih, List.filterMap_append, List.append_assoc]
    cases hr : event.request? <;> simp [hr]

private theorem Flows.run (hf : p.Flows i) (hl : p.Live i s t) (events : List Event) : (p.run i events).Flows i := by
  induction events using List.reverseRecOn with
  | nil => exact hf
  | append_singleton events event ih =>
    rw [run_concat]
    exact ((hl.run events).step event).2.flows ih

private theorem Flows.inTurn_run_iff (hf : p.Flows i) (hl : p.Live i s t) (ht : p.InTurn i)
    (hd : (p.run i events).registered.Nodup) : (p.run i events).InTurn i ↔
      ∀ before event, before ++ [event] <+: events → ¬ (p.run i before).Overtakes i event := by
  induction events using List.reverseRecOn with
  | nil =>
    refine ⟨fun _ before event hb => ?_, fun _ => ht⟩
    exact absurd (List.prefix_nil.mp hb) (by simp)
  | append_singleton events event ih =>
    have hc := ((hl.run events).step event).2
    rw [run_concat] at hd ⊢
    have hd' : (p.run i events).registered.Nodup := by
      rw [hc.registered_eq] at hd
      exact (List.nodup_append.mp hd).1
    have hstep : ((p.run i events).step i event).InTurn i ↔
        (p.run i events).InTurn i ∧ ¬ (p.run i events).Overtakes i event :=
      ⟨hc.of_inTurn (hf.run hl events) hd', fun h => hc.inTurn h.1 h.2⟩
    rw [hstep, ih hd']
    constructor
    · rintro ⟨hall, hlast⟩ before event' hb
      rcases List.prefix_concat_iff.mp hb with he | hb
      · obtain ⟨rfl, hevent⟩ := List.append_inj' he rfl
        cases hevent
        exact hlast
      · exact hall before event' hb
    · intro hall
      exact ⟨fun before event' hb => hall before event' (hb.trans (List.prefix_append _ _)),
        hall events event (List.prefix_refl _)⟩

end Run

/-- In any run of posts on a live session that starts with nothing to write: every request that is posted is entered
into the table of the session at once, and then it is written once or waits. The stream holds whole frames of what is
written, and one that is being written. When no request is posted twice, the requests are written in the order in which
they were posted exactly if no task gets the writer before one whose request was posted earlier. -/
theorem leaves_in_turn_iff {c : Client} {i : Nat} {s : SessionId} {session : Session}
    (hl : c.liveSession? i = some (s, session)) (hopen : (c.board.table session.table).closed = false)
    (htable : session.table < c.board.tables.length) (hquiet : session.outbox = [] ∧ session.written = [])
    (events : List Event) :
    let p := run i { client := c } events
    p.registered = events.filterMap (·.request?) ∧
    (∀ now request, ∃ e, (p.step i (.post now request)).client.board.holder? session.table request.requestId =
      some (.entry e)) ∧
    (p.written i ++ p.outbox i).Perm p.registered ∧
    (splitFrames p.stream).1 <+: (p.written i).map Request.encode ∧
    (p.unsent = none → splitFrames p.stream = ((p.written i).map Request.encode, [])) ∧
    ((events.filterMap (·.request?)).Nodup → (p.written i ++ p.outbox i = p.registered ↔
      ∀ before event, before ++ [event] <+: events → ¬ (run i { client := c } before).Overtakes i event)) := by
  have hlive : Live i s session.table { client := c } := ⟨⟨session, hl, rfl⟩, hopen, htable⟩
  have hout : outbox i { client := c } = [] := (outbox_eq hl).trans hquiet.1
  have hwritten : written i { client := c } = [] := (written_eq hl).trans hquiet.2
  have hflows : Flows i { client := c } := by
    refine ⟨?_, ?_, ?_⟩
    · rw [hout, hwritten]
      rfl
    · rw [hout]
    · rw [hwritten]
      exact List.append_nil _
  have hturn : InTurn i { client := c } := by
    rw [InTurn, hout, hwritten]
    rfl
  have hregistered := hlive.registered_run events
  refine ⟨hregistered, fun now request => ((hlive.run events).post now request).2.2, (hflows.run hlive events).once,
    (hflows.run hlive events).frames.1, (hflows.run hlive events).frames.2, fun hd => ?_⟩
  exact hflows.inTurn_run_iff hlive hturn (by rw [hregistered]; exact hd)

/-! ### A lock and its release -/

open Exchange in
/-- A client whose only connection has just become live. -/
def liveClient : Client := ((fresh soloClient).run (opening 0 soloIds.advance.upcoming)).client

/-- A request on lock 2 of key 3. -/
def lockRequest (kind : CommandKind) (n : UInt64) : Request := .lock {
  kind
  requestId := .ofHalves n 0
  flag := 0
  dbId := 0
  lockId := .ofHalves 2 0
  lockKey := .ofBytes [3]
  timeout := .seconds 5
  expire := .seconds 5
  count := 0
  reentry := 0 }

/-- A task writes its frame in one go. -/
def turn (n : Nat) : List Event := [.serve n, .push 64, .letGo]

/-- A lock and its release are posted, and the task of the release has the first turn. -/
def releaseFirst : List Event := [.post 0 (lockRequest .lock 10), .post 0 (lockRequest .unlock 11)] ++ turn 1 ++ turn 0

/-- The frame of the Unlock leaves first although the Lock was registered first. -/
theorem unlock_leaves_before_lock :
    (liveClient.liveSession? 0).isSome = true ∧
    (run 0 { client := liveClient } releaseFirst).registered = [lockRequest .lock 10, lockRequest .unlock 11] ∧
    (run 0 { client := liveClient } releaseFirst).outbox 0 = [] ∧
    splitFrames (run 0 { client := liveClient } releaseFirst).stream =
      ([(lockRequest .unlock 11).encode, (lockRequest .lock 10).encode], []) := by
  decide +kernel

/-- The frame of the lock leaves in two pieces, and the release has its turn after that. -/
def lockFirst : List Event :=
  [.post 0 (lockRequest .lock 10), .serve 0, .push 40, .post 0 (lockRequest .unlock 11), .serve 0, .push 40, .letGo] ++
  turn 0

/-- Polled in the order of their registration, the frames leave in that order. -/
theorem lock_leaves_before_unlock :
    (run 0 { client := liveClient } lockFirst).unsent = none ∧
    (run 0 { client := liveClient } lockFirst).written 0 ++ (run 0 { client := liveClient } lockFirst).outbox 0 =
      [lockRequest .lock 10, lockRequest .unlock 11] ∧
    splitFrames (run 0 { client := liveClient } lockFirst).stream =
      ([(lockRequest .lock 10).encode, (lockRequest .unlock 11).encode], []) := by
  have hsome : (liveClient.liveSession? 0).map (fun found => ((liveClient.board.table found.2.table).closed,
      decide (found.2.table < liveClient.board.tables.length), found.2.outbox, found.2.written)) =
      some (false, true, [], []) := by decide +kernel
  obtain ⟨⟨s, session⟩, hl, he⟩ := Option.map_eq_some_iff.mp hsome
  simp only [Prod.mk.injEq, decide_eq_true_eq] at he
  obtain ⟨hopen, htable, hquiet⟩ := he
  obtain ⟨hregistered, -, -, -, hframes, hturn⟩ := leaves_in_turn_iff hl hopen htable hquiet lockFirst
  have hunsent : (run 0 { client := liveClient } lockFirst).unsent = none := by decide +kernel
  have horder := (hturn (by decide +kernel)).mpr (forall_of_positions (by decide +kernel))
  rw [hregistered] at horder
  refine ⟨hunsent, horder, ?_⟩
  have hout : (run 0 { client := liveClient } lockFirst).outbox 0 = [] := by decide +kernel
  rw [hout, List.append_nil] at horder
  rw [hframes hunsent, horder]
  rfl

end Outflow

end LockService
