import LockService.Proofs.CourseSteps
import LockService.Proofs.Stages
import LockService.Proofs.Teardown

/-!
# The life cycle of a connection

Over any number of reconnects, and wherever its owner closes a connection or gives up its session in between, phase,
session in use and supervisor agree with one another, and every session that went live is drained once and reported
lost once (`life_cycle_holds`).
-/

namespace LockService.Course

variable {x x' : Course} {i : Nat} {k k' : Connection} {s : SessionId}

/-- What holds in every course. -/
structure Inv (x : Course) : Prop where
  separate : x.client.Separate
  orderly : x.client.board.IsOrderly
  standing : ∀ (i : Nat) (k : Connection), x.client.connections[i]? = some k → ∃ live lost,
    k.Standing live lost ∧ x.wentLive i = List.range live ∧ x.losses i = (List.range lost).flatMap Move.lossOf
  drained : ∀ i s t, .drain s ∈ x.losses i → x.client.table? i s = some t → (x.client.board.table t).closed = true

private theorem drain_mem_flatMap_lossOf {lost : Nat} :
    .drain s ∈ (List.range lost).flatMap Move.lossOf ↔ s < lost := by
  simp [Move.lossOf]

private theorem Inv.advances (h : x.Inv) (ha : x.Advances x') : x'.Inv := by
  refine ⟨h.separate.grows ha.grows ha.tables, ha.orderly h.orderly, fun i k' hk' => ?_, fun i s t hs ht => ?_⟩
  · obtain ⟨k, moves, hk, hmoves, hpasses, -⟩ := ha.passes i k' hk'
    obtain ⟨live, lost, hstanding, hlive, hlost⟩ := h.standing i k hk
    obtain ⟨live', lost', hstanding', hlive', hlost'⟩ := hstanding.passes hpasses
    refine ⟨live', lost', hstanding', ?_, ?_⟩
    · rw [wentLive, hmoves, List.filterMap_append, ← hlive', ← hlive]
      rfl
    · rw [losses, hmoves, List.filter_append, ← hlost', ← hlost]
      rfl
  · obtain ⟨session', hsession', -⟩ := Option.map_eq_some_iff.mp ht
    obtain ⟨k', hk', -⟩ := Option.bind_eq_some_iff.mp hsession'
    obtain ⟨k, moves, hk, hmoves, -, hdrained⟩ := ha.passes i k' hk'
    rw [losses, hmoves, List.filter_append, List.mem_append] at hs
    rcases hs with hs | hs
    · -- it was drained before, so its table is as it was
      obtain ⟨live, lost, hstanding, -, hlost⟩ := h.standing i k hk
      have hlt : s < lost := drain_mem_flatMap_lossOf.mp (hlost ▸ hs)
      have hexists := ((hstanding.stage.lt_lost_iff s).mp hlt).1
      have hsession : x.client.session? i s = some k.sessions[s] := by
        rw [Client.session?, hk]
        exact List.getElem?_eq_getElem hexists
      have hold := Client.table?_of_session? hsession
      have hsame := (ha.grows.kept i s _ hold).symm.trans ht
      rw [Option.some.inj hsame] at hold
      exact ha.closed t (h.drained i s t hs hold)
    · exact hdrained h.separate s t (List.mem_filter.mp hs).1 ht

/-- Whatever happens, each connection stays on its course. -/
theorem Inv.run (h : x.Inv) (events : List Exchange.Event) : (x.run events).Inv := by
  induction events generalizing x with
  | nil => exact h
  | cons e events ih => exact ih (h.advances (advances_step x e))

theorem inv_start {config : Config} {replicated : Bool} {ids : IdSource} {c : Client}
    (hc : Client.start config replicated ids = .ok c) : (fresh c).Inv := by
  refine ⟨(Exchange.inv_start hc).separate, ?_, fun i k hk => ?_, fun i s t hs => absurd hs List.not_mem_nil⟩
  · have hboard : (fresh c).client.board = {} := Client.board_start hc
    rw [hboard]
    exact Switchboard.sound_empty.orderly
  · obtain ⟨address, rfl⟩ := (Client.start_fresh hc).2 k (List.mem_of_getElem? hk)
    refine ⟨0, 0, ⟨by simp, nofun, ?_⟩, rfl, rfl⟩
    exact .atRest rfl rfl (fun s => Connection.isTornDown_of_length_le (Nat.zero_le s)) (by simp)

/-! ### Closing -/

/-- After closing, the connection is closed. -/
private theorem Inv.phase_close (h : x.Inv) (hk' : (x.step (.play (.close i))).client.connections[i]? = some k') :
    k'.phase = .closed := by
  obtain ⟨k, -, hk, -⟩ := (advances_step x (.play (.close i))).passes i k' hk'
  rw [step_close hk] at hk'
  cases (Move.getElem?_connections_carryOut hk Move.closing).2.symm.trans hk'
  cases hs : k.stored with
  | none =>
    rw [Connection.carryOut_closing hs, Connection.setPhase_closed]
  | some s =>
    obtain ⟨live, lost, hstanding, -⟩ := h.standing i k hk
    obtain ⟨-, -, ht, -⟩ := hstanding.closesSession hs
    rw [Connection.carryOut_closing_of_stored hs ht, Connection.setPhase_closed]

private theorem phase_run_of_closed (hc : ∀ k, x.client.connections[i]? = some k → k.phase = .closed)
    (events : List Exchange.Event) (hk' : (x.run events).client.connections[i]? = some k') : k'.phase = .closed := by
  induction events generalizing x with
  | nil => exact hc k' hk'
  | cons e events ih =>
    refine ih (fun k₁ hk₁ => ?_) hk'
    obtain ⟨k, moves, hk, -, hpasses, -⟩ := (advances_step x e).passes i k₁ hk₁
    exact hpasses.phase_of_closed (hc k hk)

private theorem Inv.phase_run_of_close (h : x.Inv) {events : List Exchange.Event} (he : .play (.close i) ∈ events)
    (hk' : (x.run events).client.connections[i]? = some k') : k'.phase = .closed := by
  obtain ⟨before, after, rfl⟩ := List.append_of_mem he
  rw [Course.run, List.foldl_append, List.foldl_cons] at hk'
  exact phase_run_of_closed (fun k hk => (h.run before).phase_close hk) after hk'

/-! ### What holds of a connection at any time -/

/-- The life cycle of a connection, as it stands between two events. -/
structure LifeCycle (x : Course) (i : Nat) (k : Connection) : Prop where
  live : k.phase = .live → ∃ s, k.stored = some s ∧ k.isTornDown s = false
  /-- A session that is in use is live, unless the connection was closed before the session went live. -/
  inUse : ∀ s, k.stored = some s → k.isTornDown s = false →
    k.phase = .live ∨ (k.phase = .closed ∧ k.OwesTeardown s)
  single : ∀ s ∈ x.wentLive i, ∀ s' ∈ x.wentLive i, k.isTornDown s = false → k.isTornDown s' = false → s = s'
  /-- No session goes live twice. -/
  distinct : (x.wentLive i).Nodup
  /-- Whatever was torn down was drained and reported lost, once each, and nothing else was. -/
  lost : x.losses i = ((x.wentLive i).filter fun s => k.isTornDown s).flatMap Move.lossOf
  ended : k.supervisor = .ended → k.stored = none ∧ x.losses i = (x.wentLive i).flatMap Move.lossOf ∧
    ∀ session ∈ k.sessions, (x.client.board.table session.table).entries = []

private theorem Inv.lifeCycle (h : x.Inv) (hk : x.client.connections[i]? = some k) : x.LifeCycle i k := by
  obtain ⟨live, lost, hstanding, hlive, hlost⟩ := h.standing i k hk
  refine ⟨hstanding.stage.stored_of_live, fun s hs _ => (hstanding.stage.of_stored hs).2.2.2.1, ?_, ?_, ?_, ?_⟩
  · exact fun s _ s' _ ht ht' => hstanding.stage.eq_of_not_isTornDown ht ht'
  · rw [hlive]
    exact List.nodup_range
  · rw [hlive, hlost, hstanding.stage.filter_range]
  · intro hv
    obtain ⟨hs, ht, -, hl, hl'⟩ := hstanding.stage.of_isAtRest (by rw [hv]; rfl)
    refine ⟨hs, ?_, fun session hsession => ?_⟩
    · rw [hlive, hlost, hl, hl']
    · obtain ⟨s, hlt, rfl⟩ := List.mem_iff_getElem.mp hsession
      have hfound : x.client.session? i s = some k.sessions[s] := by
        rw [Client.session?, hk]
        exact List.getElem?_eq_getElem hlt
      have hdrained : .drain s ∈ x.losses i := by
        rw [hlost, hl']
        exact drain_mem_flatMap_lossOf.mpr hlt
      exact (h.orderly _).empty (h.drained i s _ hdrained (Client.table?_of_session? hfound))

/-- Whatever happens to a client from its start: a connection whose owner closed it is closed for ever, and the life
cycle of every connection holds. -/
theorem life_cycle_holds {config : Config} {replicated : Bool} {ids : IdSource} {c : Client}
    (hc : Client.start config replicated ids = .ok c) (events : List Exchange.Event) {i : Nat} {k : Connection}
    (hk : ((fresh c).run events).client.connections[i]? = some k) :
    (.play (.close i) ∈ events → k.phase = .closed) ∧ ((fresh c).run events).LifeCycle i k :=
  ⟨fun he => (inv_start hc).phase_run_of_close he hk, ((inv_start hc).run events).lifeCycle hk⟩

/-! ### A connection that is closed before its second session goes live -/

open Exchange (soloConfig soloIds soloClient start_solo check)

/-- The supervisor opens a session. -/
def opening (id : Ident) : List Exchange.Event :=
  [.play (.turn 0 .attempt), .play (.turn 0 .introduce),
    .play (.turn 0 (.hear ⟨Reply.encode (.init ⟨id, ResultCode.success, 1⟩), false⟩))]

/-- The owner gives up the first session while a request is pending on it, and closes the connection when the second
session is open and has still to go live. -/
def closedBeforeLive : List Exchange.Event :=
  opening soloIds.advance.upcoming ++ [.play (.turn 0 .goLive), .play (.turn 0 .check), .send 0 (check 1) .awaited,
    .enter 0 100, .play (.disconnect 0), .play (.turn 0 .stopReading), .play (.turn 0 .teardown)] ++
  opening soloIds.advance.advance.upcoming ++ [.play (.close 0), .play (.turn 0 .goLive)]

/-- The supervisor finds the connection closed, tears the second session down and ends. -/
def endedAfterLive : List Exchange.Event := closedBeforeLive ++ [.play (.turn 0 .check), .play (.turn 0 .teardown)]

/-- The session goes live on a closed connection, and its supervisor tears it down and ends. -/
theorem closedBeforeLive_ends : Client.start soloConfig false soloIds = .ok soloClient ∧
    (∃ k, ((fresh soloClient).run closedBeforeLive).client.connections[0]? = some k ∧ k.stored = some 1 ∧
      k.isTornDown 1 = false ∧ k.phase = .closed ∧ k.OwesTeardown 1) ∧
    ∃ k, ((fresh soloClient).run endedAfterLive).client.connections[0]? = some k ∧ k.supervisor = .ended ∧
      k.phase = .closed ∧ k.stored = none ∧
      ((fresh soloClient).run endedAfterLive).wentLive 0 = [0, 1] ∧
      ((fresh soloClient).run endedAfterLive).losses 0 = [.drain 0, .leaveLive, .drain 1, .leaveLive] ∧
      ∀ session ∈ k.sessions,
        (((fresh soloClient).run endedAfterLive).client.board.table session.table).entries = [] := by
  refine ⟨start_solo, ?_, ?_⟩
  · have hfound : (((fresh soloClient).run closedBeforeLive).client.connections[0]?).map
        (fun k => (k.stored, k.isTornDown 1)) = some (some 1, false) := by decide +kernel
    obtain ⟨k, hk, he⟩ := Option.map_eq_some_iff.mp hfound
    obtain ⟨hs, ht⟩ := Prod.mk.inj he
    obtain ⟨hclosed, hcycle⟩ := life_cycle_holds start_solo closedBeforeLive hk
    have hphase := hclosed (by simp [closedBeforeLive])
    refine ⟨k, hk, hs, ht, hphase, ?_⟩
    rcases hcycle.inUse 1 hs ht with hlive | ⟨-, howes⟩
    · cases hphase.symm.trans hlive
    · exact howes
  · have hfound : (((fresh soloClient).run endedAfterLive).client.connections[0]?).map (·.supervisor) =
        some .ended := by decide +kernel
    have hlive : ((fresh soloClient).run endedAfterLive).wentLive 0 = [0, 1] := by decide +kernel
    obtain ⟨k, hk, hv⟩ := Option.map_eq_some_iff.mp hfound
    obtain ⟨hclosed, hcycle⟩ := life_cycle_holds start_solo endedAfterLive hk
    obtain ⟨hs, hlost, hempty⟩ := hcycle.ended hv
    rw [hlive] at hlost
    exact ⟨k, hk, hv, hclosed (by simp [endedAfterLive, closedBeforeLive]), hs, hlive, hlost, hempty⟩

end LockService.Course
