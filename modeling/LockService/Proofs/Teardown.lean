import LockService.Proofs.Exchange

/-!
# The end of a session

The requests that are pending on a session when its table is drained fail with it, each once; those that have found the
session and come later are refused. No other session is touched, and a second teardown of the session does nothing
(`Exchange.requests_fail_once_with_their_session`).
-/

namespace LockService

private theorem Progress.outcomes_of_pending? {b : Switchboard} {progress : Progress} {p : Pending}
    (hp : progress.pending? = some p) : progress.outcomes b = b.outcomes p := by
  cases progress <;> cases hp <;> rfl

namespace Exchange

open Switchboard

/-- An event makes the next move of an operation on a connection. -/
def Makes (x : Exchange) (e : Event) (i : Nat) (m : Move) : Prop :=
  ∃ n rest, e = .play (.move n) ∧ x.play.underway[n]? = some (i, m :: rest)

/-- The `n`-th request has found a session and has still to be entered into its table. -/
def Approaches (x : Exchange) (n i : Nat) (s : SessionId) : Prop :=
  ∃ r session, x.underway? n = some (r, s, session) ∧ r.connection = i

/-- The `n`-th request is in the table of a session. -/
def Pends (x : Exchange) (n i : Nat) (s : SessionId) : Prop :=
  ∃ r t p, x.sent[n]? = some r ∧ r.connection = i ∧ r.session = some s ∧ r.progress.pending? = some p ∧
    x.client.table? i s = some t ∧ x.board.holder? t r.request.requestId = some p

/-- The `n`-th request has found the session that a supervisor reads. -/
def IsReadBy (x : Exchange) (n i : Nat) : Prop :=
  ∃ r k s, x.sent[n]? = some r ∧ r.connection = i ∧ r.session = some s ∧ x.client.connections[i]? = some k ∧
    k.supervisor = .reading s

variable {x x' : Exchange} {n i : Nat} {s : SessionId} {r : Sent} {p : Pending}

private theorem outcomes_eq (hn : x.sent[n]? = some r) : x.outcomes n = r.progress.outcomes x.board := by
  rw [Exchange.outcomes, hn]
  rfl

/-! ### Every request -/

/-- A request has one outcome, or it has none as long as it approaches its session or is pending there. -/
private theorem Inv.outcomes_cases (h : x.Inv []) (hn : n < x.sent.length) : (∃ o, x.outcomes n = [o]) ∨
    (x.outcomes n = [] ∧ ∃ i s, x.Approaches n i s ∨ x.Pends n i s) := by
  have hr : x.sent[n]? = some x.sent[n] := List.getElem?_eq_getElem hn
  generalize x.sent[n] = r at hr
  have hmem := List.mem_of_getElem? hr
  rw [outcomes_eq hr]
  cases hu : r.progress.isUnderway with
  | true =>
    right
    obtain ⟨t, s, hs, ht⟩ := h.underway r hmem hu
    obtain ⟨session, hsession, -⟩ := Option.map_eq_some_iff.mp ht
    refine ⟨?_, r.connection, s, .inl ⟨r, session, ?_, rfl⟩⟩
    · cases hp : r.progress <;> simp_all [Progress.isUnderway, Progress.outcomes]
    · simp [underway?, hr, hs, hsession, hu]
  | false =>
    cases hp : r.progress.pending? with
    | none =>
      left
      cases hpr : r.progress with
      | underway =>
        rw [hpr] at hu
        cases hu
      | failed failure => exact ⟨.error failure, rfl⟩
      | awaited a =>
        rw [hpr] at hp
        cases hp
      | posted e =>
        rw [hpr] at hp
        cases hp
    | some p =>
      rw [Progress.outcomes_of_pending? hp]
      rcases (h.status r hmem p hp).2 with ⟨t, ⟨s, hs, ht⟩, hheld⟩ | ⟨-, o, ho⟩
      · exact .inr ⟨h.clear.waiting _ _ _ hheld, r.connection, s, .inr ⟨r, t, p, hr, rfl, hs, hp, ht, hheld⟩⟩
      · exact .inl ⟨o, ho⟩

private theorem Inv.of_pends (h : x.Inv []) (hp : x.Pends n i s) : x.outcomes n = [] ∧
    ∃ t, x.client.table? i s = some t ∧ (x.board.table t).closed = false := by
  obtain ⟨r, t, p, hr, -, -, hp, ht, hheld⟩ := hp
  refine ⟨?_, t, ht, ?_⟩
  · rw [outcomes_eq hr, Progress.outcomes_of_pending? hp]
    exact h.clear.waiting _ _ _ hheld
  · refine Bool.eq_false_iff.mpr fun hc => ?_
    cases (h.clear.holder?_of_closed hc _).symm.trans hheld

/-! ### Teardown -/

private theorem step_of_makes {e : Event} {m : Move} (h : x.Makes e i m) :
    (x.step e).client = (m.make x.client i).2 ∧ (x.step e).sent = x.sent := by
  obtain ⟨k, rest, rfl, hk⟩ := h
  have hstep : x.play.step (.move k) = some ⟨(m.make x.client i).2,
      x.play.underway.set k (i, (m.make x.client i).1 ++ rest)⟩ := by
    simp only [Interplay.step, hk]
    rfl
  simp only [Exchange.step, hstep]
  exact ⟨rfl, trivial⟩

/-- Draining the table of a session fails everybody in it and closes it. -/
private theorem Inv.drain (h : x.Inv []) {e : Event} (he : x.Makes e i (.drain s)) {t : TableId}
    (ht : x.client.table? i s = some t) : ((x.step e).board.table t).closed = true ∧
      ∀ n, x.Pends n i s → (x.step e).outcomes n = [.error .connectionClosed] := by
  obtain ⟨hclient, hsent⟩ := step_of_makes he
  obtain ⟨session, hsession, rfl⟩ := Option.map_eq_some_iff.mp ht
  have hboard : (x.step e).board = (x.board.drainWith session.table (.error .connectionClosed)).2 := by
    rcases Client.drain_cases x.client i s with ⟨-, hnone⟩ | ⟨session', hsession', hdrain⟩
    · cases hnone.symm.trans hsession
    · cases hsession'.symm.trans hsession
      exact (congrArg Client.board hclient).trans (congrArg Client.board hdrain)
  rw [hboard]
  refine ⟨closed_drainWith (h.separate.placed _ _ _ ht) _, ?_⟩
  rintro n ⟨r, t, p, hr, -, -, hp, ht', hheld⟩
  cases ht.symm.trans ht'
  obtain ⟨hit, hs, hhit⟩ := h.clear.exists_settles_drainWith session.table (.error .connectionClosed)
  rw [outcomes_eq (hsent ▸ hr), hboard, Progress.outcomes_of_pending? hp, hs.outcomes, hhit p _ hheld,
    h.clear.waiting _ _ _ hheld]
  rfl

/-- A request that comes to a closed table is refused. -/
private theorem Inv.enter_of_closed (h : x.Inv []) (hd : x.requestIds.Nodup) (hn : x.Approaches n i s) {t : TableId}
    (ht : x.client.table? i s = some t) (hc : (x.board.table t).closed = true) (now : Nat) :
    (x.enter n now).outcomes n = [.error .connectionClosed] := by
  obtain ⟨r, session, hunderway, rfl⟩ := hn
  obtain ⟨hr, hs, hsession, hu⟩ := underway?_eq_some hunderway
  obtain ⟨hid, hfree⟩ := h.free hd hr hu
  have htable := Client.table?_of_session? hsession
  cases ht.symm.trans htable
  have hlt := h.separate.placed _ _ _ htable
  obtain ⟨hentry, -, hl⟩ := Client.admission_enter h.clear hlt hid (hfree _) now r.connection s r.manner
  have hset : ∀ progress : Progress, (x.sent.set n { r with progress })[n]? = some { r with progress } :=
    fun _ => List.getElem?_set_self (List.getElem?_eq_some_iff.mp hr).1
  simp only [Exchange.enter, hunderway]
  generalize x.client.enter now r.connection s session r.request r.manner = entered at hentry hl
  obtain ⟨progress, c⟩ := entered
  rw [outcomes_eq (hset progress)]
  cases hentry with
  | taken pending awaited adds held =>
    cases (adds.clear.holder?_of_closed (hl.closed _ hc) _).symm.trans held
  | refused closed settled lasts => rfl
  | refusedCallback closed adds free outcomes => exact outcomes

/-- Without a live session a request fails when it is issued. -/
private theorem outcomes_send (x : Exchange) (i : Nat) (request : Request) (manner : Manner)
    (hlive : ∀ k s, x.client.connections[i]? = some k → k.stored = some s → k.isTornDown s = true) :
    (x.send i request manner).outcomes x.sent.length = [.error .unconnected] := by
  have hnone : x.client.liveSession? i = none := by
    rw [Client.liveSession?]
    cases hk : x.client.connections[i]? with
    | none => rfl
    | some k =>
      refine Option.not_isSome_iff_eq_none.mp fun hsome => ?_
      obtain ⟨s, hs, halive⟩ := Connection.isSome_liveSession?_iff.mp hsome
      rw [hlive k s hk hs] at halive
      cases halive
  rw [Exchange.send, hnone]
  simp [Exchange.outcomes, Progress.outcomes]

/-- The mark on a session is there to stay, and a teardown that finds it does nothing. -/
private theorem wasTornDown_of_makes {e : Event} (he : x.Makes e i (.markTornDown s))
    (hs : (x.client.session? i s).isSome) : (x.step e).client.wasTornDown i s = true := by
  obtain ⟨hclient, -⟩ := step_of_makes he
  obtain ⟨session, hsession⟩ := Option.isSome_iff_exists.mp hs
  obtain ⟨k, hk, hks⟩ := Option.bind_eq_some_iff.mp hsession
  rw [hclient, Move.snd_make_markTornDown, Client.markTornDown, hk]
  dsimp only
  split
  · rename_i ht
    simpa [Client.wasTornDown, hsession, Connection.isTornDown, hks] using ht
  · simp [Client.wasTornDown, Client.session?_change, hk, Connection.changeSession, hks]

private theorem teardown_eq_self {c : Client} (h : c.wasTornDown i s = true) :
    c.teardown i s = c ∧ Move.make c i (.markTornDown s) = ([], c) := by
  cases hs : c.session? i s with
  | none => simp [Client.wasTornDown, hs] at h
  | some session =>
    obtain ⟨k, hk, hks⟩ := Option.bind_eq_some_iff.mp hs
    have ht : k.isTornDown s = true := by simpa [Client.wasTornDown, hs, Connection.isTornDown, hks] using h
    refine ⟨Client.teardown_of_isTornDown hk ht, ?_⟩
    simp only [Move.make, Client.markTornDown, hk, ht, if_true]

/-! ### Answers -/

/-- An answer that comes in on one session reaches no request on another. -/
private theorem Inv.outcomes_receive (h : x.Inv []) (bytes : List UInt8) (hn : ¬ x.IsReadBy n i) :
    (x.step (.receive i bytes)).outcomes n = x.outcomes n := by
  cases hr : x.sent[n]? with
  | none => simp [Exchange.outcomes, Exchange.step, withClient, hr]
  | some r =>
    have hr' : (x.step (.receive i bytes)).sent[n]? = some r := hr
    rw [outcomes_eq hr, outcomes_eq hr']
    cases hp : r.progress.pending? with
    | none => cases hpr : r.progress <;> simp_all [Progress.outcomes, Progress.pending?]
    | some p =>
      rw [Progress.outcomes_of_pending? hp, Progress.outcomes_of_pending? hp]
      rcases (h.status r (List.mem_of_getElem? hr) p hp).2 with ⟨t, ⟨s, hs, ht⟩, hheld⟩ | ⟨-, o, ho⟩
      · rcases Client.receive_cases x.client i bytes with hc | ⟨k, s', session, frames, unread, hk, hv, hks, hc⟩
        · exact congrArg (fun c => c.board.outcomes p) hc
        · -- it is pending in another table than that of the session which is read
          have hsession : x.client.session? i s' = some session := by simp [Client.session?, hk, hks]
          have htable := Client.table?_of_session? hsession
          have hne : t ≠ session.table := by
            rintro rfl
            obtain ⟨rfl, rfl⟩ := h.separate.apart _ _ _ _ _ ht htable
            exact hn ⟨r, k, s, hr, rfl, hs, hk, hv⟩
          have hfree : ∀ id, x.board.holder? session.table id ≠ some p := fun id hid =>
            hne (h.clear.apart _ _ _ _ p hheld hid).1
          have hboard : (x.step (.receive i bytes)).board = x.board.receiveFrames session.table frames :=
            congrArg Client.board hc
          rw [hboard, receiveFrames_eq_receiveAll, outcomes_receiveAll_of_not_held _ hfree]
      · exact (h.receive i bytes).2.heard p (by simp [ho])

/-! ### Every run -/

/-- A run that goes on. -/
private theorem Inv.keeps_run (h : x.Inv []) {events : List Event} (hd : (x.run events).requestIds.Nodup) :
    Inv [] (x.run events) ∧ x.Keeps (x.run events) :=
  h.run events (requestIds_run x events ▸ hd)

section Run

variable {config : Config} {replicated : Bool} {ids : IdSource} {c : Client} {events before after : List Event}
  {e : Event}
variable (hc : Client.start config replicated ids = .ok c) (hd : (events.filterMap (·.requestId?)).Nodup)
include hc hd

/-- What holds at every moment of the run. -/
theorem inv_of_run {rest : List Event} (he : events = before ++ rest) : Inv [] ((fresh c).run before) ∧
    ((fresh c).run before).requestIds.Nodup := by
  subst he
  have hids : ((fresh c).run before).requestIds.Nodup := by
    rw [requestIds_run]
    rw [List.filterMap_append] at hd
    exact (List.nodup_append.mp hd).1
  exact ⟨((inv_start hc).keeps_run hids).1, hids⟩

/-- What is kept from one moment of the run to a later one. -/
theorem keeps_of_run {mid rest : List Event} (he : events = before ++ e :: mid ++ rest) :
    (((fresh c).run before).step e).Keeps ((fresh c).run (before ++ e :: mid)) := by
  have hfirst : (fresh c).run (before ++ [e]) = ((fresh c).run before).step e := run_append _ before [e]
  have hmid : (fresh c).run (before ++ e :: mid) = (((fresh c).run before).step e).run mid := by
    rw [run_append, run_cons]
  have hsplit : events = before ++ [e] ++ (mid ++ rest) := by simp [he]
  obtain ⟨hinv, -⟩ := inv_of_run hc hd hsplit
  obtain ⟨-, hids⟩ := inv_of_run hc hd he
  rw [hfirst] at hinv
  rw [hmid] at hids ⊢
  exact (hinv.keeps_run hids).2

private theorem keeps_to_end (he : events = before ++ e :: after) :
    (((fresh c).run before).step e).Keeps ((fresh c).run events) := by
  have hend : events = before ++ e :: after ++ [] := by rw [List.append_nil, he]
  have hkeeps := keeps_of_run hc hd hend
  rwa [← he] at hkeeps

/-- A request that was pending when its session was drained has heard of the closed connection and of nothing else. -/
private theorem outcomes_of_drained (he : events = before ++ e :: after)
    (hmakes : ((fresh c).run before).Makes e i (.drain s))
    (hn : ((fresh c).run before).Pends n i s) : ((fresh c).run events).outcomes n = [.error .connectionClosed] := by
  obtain ⟨hinv, -⟩ := inv_of_run hc hd he
  obtain ⟨-, t, ht, -⟩ := hinv.of_pends hn
  have hone := (hinv.drain hmakes ht).2 n hn
  rw [(keeps_to_end hc hd he).outcomes (by simp [hone]), hone]

private theorem outcomes_of_refused {mid rest : List Event} {now : Nat}
    (he : events = before ++ e :: mid ++ .enter n now :: rest)
    (hmakes : ((fresh c).run before).Makes e i (.drain s))
    (hsession : (((fresh c).run before).client.session? i s).isSome)
    (hn : ((fresh c).run (before ++ e :: mid)).Approaches n i s) :
    ((fresh c).run events).outcomes n = [.error .connectionClosed] := by
  obtain ⟨session, hs⟩ := Option.isSome_iff_exists.mp hsession
  have ht := Client.table?_of_session? hs
  have hfirst : events = before ++ (e :: mid ++ .enter n now :: rest) := by rw [he, List.append_assoc]
  have hclosed := ((inv_of_run hc hd hfirst).1.drain hmakes ht).1
  obtain ⟨hinv, hids⟩ := inv_of_run hc hd he
  -- the table is closed when the request comes, and it is still that of the session
  have hkept := keeps_of_run hc hd he
  have htable : (((fresh c).run before).step e).client.table? i s = some session.table := by
    rw [(step_of_makes hmakes).1, (Move.follows_make _ i (.drain s)).table, ht]
  have hone := hinv.enter_of_closed hids hn (hkept.grows i s _ htable) (hkept.closed _ hclosed) now
  rw [(keeps_to_end hc hd he).outcomes (by simp [Exchange.step, hone]), Exchange.step, hone]

private theorem outcomes_of_unconnected {request : Request} {manner : Manner}
    (he : events = before ++ .send i request manner :: after)
    (hlive : ∀ k s, ((fresh c).run before).client.connections[i]? = some k → k.stored = some s →
      k.isTornDown s = true) :
    ((fresh c).run events).outcomes ((fresh c).run before).sent.length = [.error .unconnected] := by
  have hone := outcomes_send ((fresh c).run before) i request manner hlive
  rw [(keeps_to_end hc hd he).outcomes (by simp [Exchange.step, hone]), Exchange.step, hone]

private theorem teardown_of_marked (he : events = before ++ e :: after)
    (hmakes : ((fresh c).run before).Makes e i (.markTornDown s))
    (hsession : (((fresh c).run before).client.session? i s).isSome) :
    ((fresh c).run events).client.teardown i s = ((fresh c).run events).client ∧
      Move.make ((fresh c).run events).client i (.markTornDown s) = ([], ((fresh c).run events).client) :=
  teardown_eq_self ((keeps_to_end hc hd he).torn i s (wasTornDown_of_makes hmakes hsession))

end Run

/-- How a run accounts for the requests issued in it. -/
structure Accounts (c : Client) (events : List Event) : Prop where
  /-- A request has one outcome, or it has none while it approaches its session or is pending there. -/
  once : ∀ n < ((fresh c).run events).sent.length, (∃ o, ((fresh c).run events).outcomes n = [o]) ∨
    (((fresh c).run events).outcomes n = [] ∧
      ∃ i s, ((fresh c).run events).Approaches n i s ∨ ((fresh c).run events).Pends n i s)
  pending : ∀ n i s, ((fresh c).run events).Pends n i s → ((fresh c).run events).outcomes n = [] ∧
    ∃ t, ((fresh c).run events).client.table? i s = some t ∧ (((fresh c).run events).board.table t).closed = false
  /-- What is pending in a table when it is drained fails with it. -/
  drained : ∀ before e after i s, events = before ++ e :: after → ((fresh c).run before).Makes e i (.drain s) →
    ∀ n, ((fresh c).run before).Pends n i s → ((fresh c).run events).outcomes n = [.error .connectionClosed]
  /-- What comes to the table after that is refused. -/
  refused : ∀ before e mid n now after i s, events = before ++ e :: mid ++ .enter n now :: after →
    ((fresh c).run before).Makes e i (.drain s) → (((fresh c).run before).client.session? i s).isSome →
    ((fresh c).run (before ++ e :: mid)).Approaches n i s →
    ((fresh c).run events).outcomes n = [.error .connectionClosed]
  /-- Without a live session a request fails when it is issued. -/
  unconnected : ∀ before i request manner after, events = before ++ .send i request manner :: after →
    (∀ k s, ((fresh c).run before).client.connections[i]? = some k → k.stored = some s → k.isTornDown s = true) →
    ((fresh c).run events).outcomes ((fresh c).run before).sent.length = [.error .unconnected]
  /-- Once a teardown of a session has begun, no other one does anything. -/
  tornDownOnce : ∀ before e after i s, events = before ++ e :: after →
    ((fresh c).run before).Makes e i (.markTornDown s) → (((fresh c).run before).client.session? i s).isSome →
    ((fresh c).run events).client.teardown i s = ((fresh c).run events).client ∧
      Move.make ((fresh c).run events).client i (.markTornDown s) = ([], ((fresh c).run events).client)
  /-- An answer reaches no request on another session than the one that it comes in on. -/
  apart : ∀ n i bytes, ¬ ((fresh c).run events).IsReadBy n i →
    (((fresh c).run events).step (.receive i bytes)).outcomes n = ((fresh c).run events).outcomes n

/-- Every run in which the requests have identifiers of their own accounts for them, however sessions follow each other
and operations mix. -/
theorem requests_fail_once_with_their_session {config : Config} {replicated : Bool} {ids : IdSource} {c : Client}
    (hc : Client.start config replicated ids = .ok c) {events : List Event}
    (hd : (events.filterMap (·.requestId?)).Nodup) : Accounts c events := by
  obtain ⟨hinv, -⟩ := inv_of_run hc hd (List.append_nil events).symm
  exact {
    once := fun n hn => hinv.outcomes_cases hn
    pending := fun n i s hp => hinv.of_pends hp
    drained := fun before e after i s he hmakes n hn => outcomes_of_drained hc hd he hmakes hn
    refused := fun before e mid n now after i s he hmakes hsession hn =>
      outcomes_of_refused hc hd he hmakes hsession hn
    unconnected := fun before i request manner after he hlive => outcomes_of_unconnected hc hd he hlive
    tornDownOnce := fun before e after i s he hmakes hsession => teardown_of_marked hc hd he hmakes hsession
    apart := fun n i bytes hn => hinv.outcomes_receive bytes hn }

/-! ### Two sessions of one connection -/

def soloConfig : Config := Config.single 2 "a"

def soloIds : IdSource := IdSource.seeded 7 fun _ => ⟨0, 0⟩

/-- A client of one server that has just started. -/
def soloClient : Client where
  config := soloConfig
  clientId := soloIds.upcoming
  replicated := false
  connections := [{ address := ⟨['a'], defaultPort⟩ }]
  ids := soloIds.advance

theorem start_solo : Client.start soloConfig false soloIds = .ok soloClient := by
  have ha : Address.parse? "a" = some ⟨['a'], defaultPort⟩ := by decide +kernel
  have hf : soloConfig.fault? = none := by decide
  have hosts : soloConfig.hosts = ["a"] := rfl
  simp only [Client.start, hf, hosts, ha]
  rfl

def check (n : Nat) : Request := .ping ⟨.ofHalves n.toUInt64 0⟩

/-- The supervisor opens a session and reads on it; making it live is operation `n`. -/
def opening (n : Nat) (id : Ident) : List Event :=
  [.play (.turn 0 .attempt), .play (.turn 0 .introduce),
    .play (.turn 0 (.hear ⟨Reply.encode (.init ⟨id, ResultCode.success, 1⟩), false⟩)), .play (.turn 0 .goLive)] ++
  List.replicate 4 (.play (.move n)) ++ [.play (.turn 0 .check)]

/-- Three requests find the first session and two of them are entered; then its stream fails. -/
def upToMark : List Event :=
  opening 0 soloIds.advance.upcoming ++
  [.send 0 (check 1) .awaited, .send 0 (check 2) .callback, .send 0 (check 3) .awaited, .enter 0 100, .enter 1 100,
    .play (.turn 0 .stopReading), .play (.turn 0 .teardown)]

/-- The teardown begins, another request is issued, and the teardown comes to the drain. -/
def upToDrain : List Event :=
  upToMark ++ [.play (.move 1)] ++ [.send 0 (check 4) .callback] ++ List.replicate 3 (.play (.move 1))

/-- The second session opens. A late answer to the first request comes in on it, and then the owner closes the
connection while the supervisor tears the session down as well. -/
def afterDrain : List Event :=
  [.enter 2 101, .play (.move 1), .play (.move 1)] ++ opening 2 soloIds.advance.advance.upcoming ++
  [.send 0 (check 5) .awaited, .enter 4 102, .receive 0 (Reply.encode (.ping ⟨.ofHalves 1 0, 0⟩)),
    .play (.close 0), .play (.move 3), .play (.move 3), .play (.turn 0 .stopReading), .play (.turn 0 .teardown),
    .play (.move 4), .play (.move 3), .play (.move 4), .play (.move 4), .play (.move 4), .play (.move 4)]

def twoSessions : List Event := upToDrain ++ .play (.move 1) :: afterDrain

/-- What was pending on either session fails with it, and what is sent afterwards finds no session. -/
theorem two_sessions_fail_their_requests : (twoSessions.filterMap (·.requestId?)).Nodup ∧
    ((fresh soloClient).run twoSessions).outcomes 0 = [.error .connectionClosed] ∧
    ((fresh soloClient).run twoSessions).outcomes 1 = [.error .connectionClosed] ∧
    ((fresh soloClient).run twoSessions).outcomes 2 = [.error .connectionClosed] ∧
    ((fresh soloClient).run twoSessions).outcomes 3 = [.error .unconnected] ∧
    ((fresh soloClient).run twoSessions).client.teardown 0 0 = ((fresh soloClient).run twoSessions).client := by
  have hd : (twoSessions.filterMap (·.requestId?)).Nodup := by decide
  have haccounts := requests_fail_once_with_their_session start_solo hd
  have hmakes : ((fresh soloClient).run upToDrain).Makes (.play (.move 1)) 0 (.drain 0) := by
    refine ⟨1, [.leaveLive, .assign .waiting], rfl, ?_⟩
    decide +kernel
  have drained := haccounts.drained upToDrain (.play (.move 1)) afterDrain 0 0 rfl hmakes
  refine ⟨hd, drained 0 ?_, drained 1 ?_, ?_, ?_, ?_⟩
  · refine ⟨_, 0, .waiter 0, List.getElem?_eq_getElem (by decide +kernel), ?_, ?_, ?_, ?_, ?_⟩
    all_goals decide +kernel
  · refine ⟨_, 0, .entry 0, List.getElem?_eq_getElem (by decide +kernel), ?_, ?_, ?_, ?_, ?_⟩
    all_goals decide +kernel
  · refine haccounts.refused upToDrain (.play (.move 1)) [] 2 101 _ 0 0 rfl hmakes (by decide +kernel) ?_
    have hunderway : (((fresh soloClient).run (upToDrain ++ [.play (.move 1)])).underway? 2).map
        (fun (r, s, _) => (r.connection, s)) = some (0, 0) := by decide +kernel
    obtain ⟨⟨r, s, session⟩, h, he⟩ := Option.map_eq_some_iff.mp hunderway
    obtain ⟨hconnection, rfl⟩ := Prod.mk.inj he
    exact ⟨r, session, h, hconnection⟩
  · have hlength : ((fresh soloClient).run (upToMark ++ [.play (.move 1)])).sent.length = 3 := by decide +kernel
    have hone := haccounts.unconnected (upToMark ++ [.play (.move 1)]) 0 (check 4) .callback _ rfl ?_
    · rwa [hlength] at hone
    · intro k s hk hs
      have htorn : ((fresh soloClient).run (upToMark ++ [.play (.move 1)])).client.connections[0]?.map
          (fun k => (k.stored, k.isTornDown 0)) = some (some 0, true) := by decide +kernel
      rw [hk] at htorn
      simp_all
  · have hmark : ((fresh soloClient).run upToMark).Makes (.play (.move 1)) 0 (.markTornDown 0) := by
      refine ⟨1, [.assign .waiting], rfl, ?_⟩
      decide +kernel
    exact (haccounts.tornDownOnce upToMark (.play (.move 1)) _ 0 0 rfl hmark (by decide +kernel)).1

end Exchange

end LockService
