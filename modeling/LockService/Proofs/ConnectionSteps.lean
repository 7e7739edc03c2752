import LockService.Client.Course
import LockService.Proofs.Interplay

/-!
# What an event of a course does to a connection

Requests, and giving up the session in use, leave a connection as it is in all that its life cycle consists of
(`Connection.Alike`). A supervisor's turn may change the phase, open a session or go on to what comes next; going live,
teardown and closing are operations that begin (`Connection.Begins`) and are carried out to their end.
`Connection.Passes` says all that an event can do, with the moves that are made.
-/

namespace LockService

variable {k k' k'' : Connection} {s s' : SessionId}

/-! ### An operation on a connection -/

namespace Connection

/-- The moves of an operation as they are made on its connection, at most `n` of them. -/
def makeUpTo (k : Connection) : Nat → List Move → List Move × Connection
  | n + 1, m :: rest =>
    let (made, k') := makeUpTo (m.onConnection k).2 n ((m.onConnection k).1 ++ rest)
    (m :: made, k')
  | _, _ => ([], k)

def carryOut (k : Connection) (moves : List Move) : List Move × Connection := k.makeUpTo (Move.weights moves) moves

end Connection

/-- Moves carried out on the client are carried out on their connection. -/
theorem Move.getElem?_connections_carryOut {c : Client} {i : Nat} (hk : c.connections[i]? = some k)
    (moves : List Move) : (carryOut c i moves).1 = (k.carryOut moves).1 ∧
      (carryOut c i moves).2.connections[i]? = some (k.carryOut moves).2 := by
  have all : ∀ (n : Nat) (moves : List Move) (c : Client) (k : Connection), c.connections[i]? = some k →
      (makeUpTo c i n moves).1 = (k.makeUpTo n moves).1 ∧
        (makeUpTo c i n moves).2.connections[i]? = some (k.makeUpTo n moves).2 := by
    intro n
    induction n with
    | zero =>
      intro moves c k hk
      exact ⟨rfl, hk⟩
    | succ n ih =>
      intro moves c k hk
      cases moves with
      | nil => exact ⟨rfl, hk⟩
      | cons m rest =>
        obtain ⟨hmore, hk'⟩ := getElem?_connections_make hk m
        obtain ⟨hmade, hend⟩ := ih ((m.onConnection k).1 ++ rest) _ _ hk'
        simp only [makeUpTo, Connection.makeUpTo, hmore]
        exact ⟨congrArg (m :: ·) hmade, hend⟩
  exact all _ moves c k hk

theorem Move.getElem?_connections_carryOut_of_ne {c : Client} {i j : Nat} (hj : j ≠ i) (moves : List Move) :
    (carryOut c i moves).2.connections[j]? = c.connections[j]? := by
  have all : ∀ (n : Nat) (moves : List Move) (c : Client),
      (makeUpTo c i n moves).2.connections[j]? = c.connections[j]? := by
    intro n
    induction n with
    | zero => exact fun _ _ => rfl
    | succ n ih =>
      intro moves c
      cases moves with
      | nil => rfl
      | cons m rest => exact (ih _ _).trans ((frame_make c i m).2.1 j hj)
  exact all _ moves c

namespace Connection

/-- Once closed, a connection stays closed, whatever moves are made. -/
theorem phase_carryOut_of_closed (h : k.phase = .closed) (moves : List Move) :
    (k.carryOut moves).2.phase = .closed := by
  have one : ∀ (k : Connection) (m : Move), k.phase = .closed → (m.onConnection k).2.phase = .closed := by
    intro k m h
    cases m with
    | setPhase phase => rwa [Move.onConnection, setPhase_of_closed h]
    | markTornDown s =>
      simp only [Move.onConnection]
      split <;> exact h
    | clearStored s =>
      simp only [Move.onConnection]
      split <;> exact h
    | _ => exact h
  have all : ∀ (n : Nat) (moves : List Move) (k : Connection), k.phase = .closed →
      (k.makeUpTo n moves).2.phase = .closed := by
    intro n
    induction n with
    | zero => exact fun _ _ h => h
    | succ n ih =>
      intro moves k h
      cases moves with
      | nil => exact h
      | cons m rest => exact ih _ _ (one k m h)
  exact all _ moves k h

/-- A connection whose session was torn down for the first time. -/
def afterTeardown (k : Connection) (s : SessionId) : Connection :=
  let k' := (k.changeSession s fun session => { session with tornDown := true }).changeSession s
    fun session => { session with cancelled := true }
  (if k.stored = some s then { k' with stored := none } else k').setPhase .disconnected

theorem isTornDown_afterTeardown (k : Connection) (s s' : SessionId) :
    (k.afterTeardown s).isTornDown s' = (k.isTornDown s' || decide (s' = s)) := by
  rw [afterTeardown, isTornDown_setPhase, ← isTornDown_tearDown]
  have hcancel := isTornDown_changeSession (k := k.changeSession s fun session => { session with tornDown := true })
    s s' (fun session => { session with cancelled := true }) fun _ => rfl
  split <;> exact hcancel

@[simp] theorem length_sessions_afterTeardown (k : Connection) (s : SessionId) :
    (k.afterTeardown s).sessions.length = k.sessions.length := by
  rw [afterTeardown, sessions_setPhase]
  split <;> simp [changeSession]

theorem stored_afterTeardown (k : Connection) (s : SessionId) :
    (k.afterTeardown s).stored = if k.stored = some s then none else k.stored := by
  rw [afterTeardown, stored_setPhase]
  split <;> rfl

@[simp] theorem shutdown_afterTeardown (k : Connection) (s : SessionId) :
    (k.afterTeardown s).shutdown = k.shutdown := by
  rw [afterTeardown, shutdown_setPhase]
  split <;> rfl

@[simp] theorem supervisor_afterTeardown (k : Connection) (s : SessionId) :
    (k.afterTeardown s).supervisor = k.supervisor := by
  rw [afterTeardown, supervisor_setPhase]
  split <;> rfl

theorem phase_setPhase_eq (k : Connection) (phase : Phase) :
    (k.setPhase phase).phase = if k.phase = .closed then .closed else phase := by
  unfold setPhase
  split
  · rename_i h
    exact h
  · rfl

theorem setPhase_closed (k : Connection) : k.setPhase .closed = { k with phase := .closed } := by
  unfold setPhase
  split
  · rename_i h
    rw [← h]
  · rfl

theorem phase_afterTeardown (k : Connection) (s : SessionId) :
    (k.afterTeardown s).phase = if k.phase = .closed then .closed else .disconnected := by
  rw [afterTeardown, phase_setPhase_eq]
  split <;> rfl

end Connection

namespace Move

/-- The moves of a teardown that is the first of its session. -/
def tearingDown (s : SessionId) : List Move :=
  [.markTornDown s, .cancelSession s, .clearStored s, .setPhase .disconnected, .drain s, .leaveLive]

/-- What a supervisor does after a teardown. -/
def parting (last : Bool) : List Move := if last then [.setPhase .closed, .assign .ended] else [.assign .waiting]

end Move

namespace Connection

open Move (goingLive teardown closing tearingDown parting)

/-- A connection whose supervisor is done with a session. -/
def afterParting (k : Connection) (last : Bool) : Connection :=
  if last then { k.setPhase .closed with supervisor := .ended } else { k with supervisor := .waiting }

/-- Going live stores the session, marks the connection live and has it checked. -/
theorem carryOut_goingLive (k : Connection) (s : SessionId) :
    k.carryOut (goingLive s ++ [.assign (.checking s)]) = (goingLive s ++ [.assign (.checking s)],
      { ({ k with stored := some s } : Connection).setPhase .live with supervisor := .checking s }) := rfl

/-- The first teardown of a session carries out all its moves. -/
theorem carryOut_teardown (ht : k.isTornDown s = false) (last : Bool) :
    k.carryOut (teardown s ++ parting last) =
      (tearingDown s ++ parting last, (k.afterTeardown s).afterParting last) := by
  cases last <;>
    simp [carryOut, makeUpTo, Move.weights, Move.weight, teardown, parting, tearingDown, Move.onConnection, ht,
      afterTeardown, afterParting, changeSession]

/-- When a session is torn down already, only what follows the teardown has an effect. -/
theorem carryOut_teardown_of_isTornDown (ht : k.isTornDown s = true) (last : Bool) :
    k.carryOut (teardown s ++ parting last) = (teardown s ++ parting last, k.afterParting last) := by
  cases last <;>
    simp [carryOut, makeUpTo, Move.weights, Move.weight, teardown, parting, Move.onConnection, ht, afterParting]

/-- Closing a connection without a session cancels it and marks it closed. -/
theorem carryOut_closing (hs : k.stored = none) :
    k.carryOut closing = (closing, ({ k with shutdown := true } : Connection).setPhase .closed) := by
  obtain ⟨address, phase, stored, shutdown, supervisor, sessions⟩ := k
  subst hs
  rfl

/-- Closing a connection with a session tears that down as well. -/
theorem carryOut_closing_of_stored (hs : k.stored = some s) (ht : k.isTornDown s = false) :
    k.carryOut closing = (.cancelShutdown :: .takeStored :: (tearingDown s ++ [.setPhase .closed]),
      (({ k with shutdown := true, stored := none } : Connection).afterTeardown s).setPhase .closed) := by
  have ht' : ({ k with shutdown := true, stored := none } : Connection).isTornDown s = false := ht
  simp [carryOut, makeUpTo, Move.weights, Move.weight, closing, teardown, tearingDown, Move.onConnection, hs, ht',
    afterTeardown, changeSession]

/-! ### Alike connections -/

/-- Two connections with the same phase, the same session in use, the same supervisor, and the same sessions torn
down. -/
structure Alike (k k' : Connection) : Prop where
  phase : k'.phase = k.phase
  stored : k'.stored = k.stored
  shutdown : k'.shutdown = k.shutdown
  supervisor : k'.supervisor = k.supervisor
  length : k'.sessions.length = k.sessions.length
  tornDown : ∀ s, k'.isTornDown s = k.isTornDown s

theorem Alike.refl (k : Connection) : k.Alike k := ⟨rfl, rfl, rfl, rfl, rfl, fun _ => rfl⟩

theorem Alike.trans (h : k.Alike k') (h' : k'.Alike k'') : k.Alike k'' where
  phase := h'.phase.trans h.phase
  stored := h'.stored.trans h.stored
  shutdown := h'.shutdown.trans h.shutdown
  supervisor := h'.supervisor.trans h.supervisor
  length := h'.length.trans h.length
  tornDown s := (h'.tornDown s).trans (h.tornDown s)

theorem alike_changeSession (k : Connection) (s : SessionId) {f : Session → Session}
    (hf : ∀ session, (f session).tornDown = session.tornDown) : k.Alike (k.changeSession s f) where
  phase := rfl
  stored := rfl
  shutdown := rfl
  supervisor := rfl
  length := by simp [changeSession]
  tornDown s' := isTornDown_changeSession s s' f hf

/-! ### Events -/

/-- An operation that begins on a connection: how the connection then stands, and the moves to be made. -/
inductive Begins (k : Connection) : Connection → List Move → Prop where
  | goesLive {s : SessionId} (hv : k.supervisor = .engaged s) :
    k.Begins { k with supervisor := .busy } (goingLive s ++ [.assign (.checking s)])
  | tearsDown {s : SessionId} {last : Bool} (hv : k.supervisor = .leaving s last) :
    k.Begins { k with supervisor := .busy } (teardown s ++ parting last)
  | closes : k.Begins k closing

/-- What an event does to a connection, with the moves that are made. -/
inductive Passes (k : Connection) : List Move → Connection → Prop where
  | alike {k' : Connection} (h : k.Alike k') : k.Passes [] k'
  | turns {k' : Connection} (h : k.Turns k') : k.Passes [] k'
  | carriesOut {k' : Connection} {moves : List Move} (h : k.Begins k' moves) :
    k.Passes (k'.carryOut moves).1 (k'.carryOut moves).2

private theorem Turns.phase_of_closed (h : k.Turns k') (hc : k.phase = .closed) : k'.phase = .closed := by
  cases h with
  | attempts => rwa [setPhase_of_closed hc]
  | retires => rwa [setPhase_of_closed hc]
  | engages => exact hc
  | checks => exact hc
  | stopsReading => exact hc

/-- A closed connection stays closed, whatever moves it passes through. -/
theorem Passes.phase_of_closed {moves : List Move} (h : k.Passes moves k') (hc : k.phase = .closed) :
    k'.phase = .closed := by
  cases h with
  | alike h => exact h.phase.trans hc
  | turns h => exact h.phase_of_closed hc
  | carriesOut h =>
    refine phase_carryOut_of_closed ?_ _
    cases h <;> exact hc

end Connection

end LockService
