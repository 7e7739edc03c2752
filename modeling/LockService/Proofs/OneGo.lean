import LockService.Client.LiveWatch
import LockService.Proofs.CourseSteps

/-!
# An operation carried out in one go

Although a course carries out operations move by move, a supervisor's turn comes to the turn of the client there, and so
do closing and giving up a session (`Course.client_step_play`).
-/

namespace LockService

variable {x : Course} {c : Client} {i : Nat} {k : Connection} {s : SessionId} {v : Supervisor}

/-! ### What the supervisor is about makes no difference to a move -/

namespace Client

theorem change_change (c : Client) (i : Nat) (f g : Connection → Connection) :
    (c.change i f).change i g = c.change i (g ∘ f) := by
  simp only [change, List.modify_modify_eq]

private theorem assign_assign (c : Client) (i : Nat) (v v' : Supervisor) :
    (c.assign i v).assign i v' = c.assign i v' := by
  simp only [assign, change_change]
  rfl

private theorem change_assign (c : Client) (i : Nat) (v : Supervisor) {f : Connection → Connection}
    (hf : ∀ k, f { k with supervisor := v } = { f k with supervisor := v }) :
    (c.assign i v).change i f = (c.change i f).assign i v := by
  simp only [assign, change_change]
  exact congrArg (c.change i) (funext hf)

private theorem change_of_none (h : c.connections[i]? = none) (f : Connection → Connection) : c.change i f = c := by
  rw [change, List.modify_eq_self (List.getElem?_eq_none_iff.mp h)]

private theorem closeConnection_of_none (h : c.connections[i]? = none) : c.closeConnection i = c := by
  have hcancel : c.cancelShutdown i = c := change_of_none h _
  have htake : c.takeStored i = (none, c) := by
    rw [takeStored, h, change_of_none h]
    rfl
  rw [closeConnection, hcancel, htake]
  exact change_of_none h _

private theorem bind_connections_assign (c : Client) (i : Nat) (v : Supervisor) {α : Type} {f : Connection → Option α}
    (hf : ∀ k, f { k with supervisor := v } = f k) :
    (c.assign i v).connections[i]?.bind f = c.connections[i]?.bind f := by
  rw [assign, getElem?_connections_change, if_pos rfl]
  cases c.connections[i]? with
  | none => rfl
  | some k => exact hf k

end Client

namespace Move

private theorem make_assign (c : Client) (i : Nat) (v : Supervisor) {m : Move} (hm : m.isAssign = false) :
    m.make (c.assign i v) i = ((m.make c i).1, (m.make c i).2.assign i v) := by
  have sessions : ∀ s : SessionId, (c.assign i v).connections[i]?.bind (·.sessions[s]?) =
      c.connections[i]?.bind (·.sessions[s]?) := fun s => c.bind_connections_assign i v fun _ => rfl
  cases m with
  | store s => exact congrArg (Prod.mk []) (c.change_assign i v fun _ => rfl)
  | setPhase phase =>
    refine congrArg (Prod.mk []) (c.change_assign i v fun k => ?_)
    simp only [Connection.setPhase]
    split <;> rfl
  | joinLive s =>
    simp only [make, Client.joinLive, sessions]
    rw [show (c.assign i v).replicated = c.replicated from rfl]
    split <;> rfl
  | cancelShutdown => exact congrArg (Prod.mk []) (c.change_assign i v fun _ => rfl)
  | takeStored =>
    have hstored : (c.assign i v).connections[i]?.bind (·.stored) = c.connections[i]?.bind (·.stored) :=
      c.bind_connections_assign i v fun _ => rfl
    have htaken := c.change_assign i v (f := fun k => { k with stored := none }) fun _ => rfl
    simp only [make, Client.takeStored, hstored, htaken]
    cases c.connections[i]?.bind (·.stored) <;> rfl
  | markTornDown s =>
    have hconnection : (c.assign i v).connections[i]? =
        (c.connections[i]?).map fun k => { k with supervisor := v } := by
      rw [Client.assign, Client.getElem?_connections_change, if_pos rfl]
    simp only [make, Client.markTornDown, hconnection]
    cases hk : c.connections[i]? with
    | none => rfl
    | some k =>
      have htorn : ({ k with supervisor := v } : Connection).isTornDown s = k.isTornDown s := rfl
      simp only [Option.map_some, htorn]
      by_cases ht : k.isTornDown s = true
      · simp only [ht, if_true]
      · simp only [ht, if_false, Bool.false_eq_true]
        exact congrArg (Prod.mk _) (c.change_assign i v fun _ => rfl)
  | cancelSession s => exact congrArg (Prod.mk []) (c.change_assign i v fun _ => rfl)
  | clearStored s =>
    refine congrArg (Prod.mk []) (c.change_assign i v fun k => ?_)
    dsimp only
    split <;> rfl
  | drain s =>
    simp only [make, Client.drain, sessions]
    split <;> rfl
  | leaveLive =>
    simp only [make, Client.leaveLive]
    rw [show (c.assign i v).replicated = c.replicated from rfl]
    split <;> rfl
  | assign => cases hm

/-- What a move leads to ends no operation of a supervisor. -/
private theorem isAssign_of_mem_make {m m' : Move} (h : m' ∈ (m.make c i).1) : m'.isAssign = false := by
  cases m with
  | takeStored =>
    simp only [make] at h
    split at h
    · cases List.mem_singleton.mp h
      rfl
    · cases h
  | markTornDown s =>
    simp only [make] at h
    split at h
    · simp only [List.mem_cons, List.not_mem_nil, or_false] at h
      rcases h with rfl | rfl | rfl | rfl | rfl <;> rfl
    · cases h
  | _ => cases h

/-- Moves that end with what a supervisor is then about. -/
theorem carryOut_assign (i : Nat) (v v' : Supervisor) : ∀ (moves : List Move) (c : Client),
    (∀ m ∈ moves, m.isAssign = false) →
    (carryOut (c.assign i v) i (moves ++ [.assign v'])).2 = (carryOut c i (moves ++ [.assign v'])).2
  | [], c, _ => Client.assign_assign c i v v'
  | m :: rest, c, hm => by
    have hmake := make_assign c i v (hm m List.mem_cons_self)
    have hmore : ∀ m' ∈ (m.make c i).1 ++ rest, m'.isAssign = false := by
      intro m' hm'
      rcases List.mem_append.mp hm' with hm' | hm'
      · exact isAssign_of_mem_make hm'
      · exact hm m' (List.mem_cons_of_mem _ hm')
    have hrest := carryOut_assign i v v' ((m.make c i).1 ++ rest) (m.make c i).2 hmore
    rw [List.cons_append, carryOut_cons, carryOut_cons, hmake]
    simpa only [List.append_assoc] using hrest
termination_by moves => weights moves
decreasing_by
  rw [weights_append, weights_cons]
  have := weights_make_lt c i m
  omega

end Move

/-! ### The operations of a client -/

namespace Move

private theorem snd_carryOut_cons {c c' : Client} {m : Move} {more : List Move} (h : m.make c i = (more, c'))
    (rest : List Move) : (carryOut c i (m :: rest)).2 = (carryOut c' i (more ++ rest)).2 := by
  rw [carryOut_cons, h]

private theorem carryOut_append_teardown (c : Client) (i : Nat) (s : SessionId) (rest : List Move) :
    (carryOut c i (teardown s ++ rest)).2 = (carryOut (c.teardown i s) i rest).2 := by
  rw [teardown, List.singleton_append]
  rcases hmark : c.markTornDown i s with ⟨_ | _, c'⟩
  · have hmake : make c i (.markTornDown s) = ([], c') := by rw [make, hmark]
    rw [snd_carryOut_cons hmake, Client.teardown, hmark, List.nil_append]
  · have hmake : make c i (.markTornDown s) =
        ([.cancelSession s, .clearStored s, .setPhase .disconnected, .drain s, .leaveLive], c') := by
      rw [make, hmark]
    rw [snd_carryOut_cons hmake, Client.teardown, hmark]
    exact (snd_carryOut_cons rfl _).trans <| (snd_carryOut_cons rfl _).trans <| (snd_carryOut_cons rfl _).trans <|
      (snd_carryOut_cons rfl _).trans (snd_carryOut_cons rfl _)

private theorem carryOut_closing (c : Client) (i : Nat) : (carryOut c i closing).2 = c.closeConnection i := by
  have hcancel : make c i .cancelShutdown = ([], c.cancelShutdown i) := rfl
  rw [closing, snd_carryOut_cons hcancel, Client.closeConnection, List.nil_append]
  rcases htake : (c.cancelShutdown i).takeStored i with ⟨_ | s, c'⟩
  · have hmake : make (c.cancelShutdown i) i .takeStored = ([], c') := by rw [make, htake]
    rw [snd_carryOut_cons hmake]
    rfl
  · have hmake : make (c.cancelShutdown i) i .takeStored = (teardown s, c') := by rw [make, htake]
    rw [snd_carryOut_cons hmake]
    exact carryOut_append_teardown c' i s [.setPhase .closed]

end Move

/-- What an event of supervisors and owners does to a client on which every operation is carried out in one go. -/
def Client.act (c : Client) : Interplay.Event → Client
  | .turn i t => (c.turn i t).getD c
  | .close i => c.closeConnection i
  | .disconnect i => c.disconnect i
  | .move _ => c

namespace Course

/-- The client takes part in an event as it does on its own. -/
theorem client_step_play (x : Course) (e : Interplay.Event) : (x.step (.play e)).client = x.client.act e := by
  have hplays := plays_step x e
  generalize x.step (.play e) = x' at hplays ⊢
  cases hplays with
  | skips ht hc hd =>
    cases e with
    | turn i t => rw [Client.act, ht i t rfl, Option.getD_none]; rfl
    | close i => exact (Client.closeConnection_of_none (hc i rfl)).symm
    | disconnect i => exact absurd rfl (hd i)
    | move n => rfl
  | turns _ ht => rw [Client.act, ht, Option.getD_some]; rfl
  | @goesLive i k s hk hv =>
    have ht : x.client.turn i .goLive = some ((x.client.goLive i s).assign i (.checking s)) := by
      simp [Client.turn, hk, hv]
    have hno : ∀ m ∈ Move.goingLive s, m.isAssign = false := by simp [Move.goingLive, Move.isAssign]
    rw [Client.act, ht]
    exact Move.carryOut_assign i .busy (.checking s) _ x.client hno
  | @tearsDown i k s last hk hv =>
    rw [Client.act]
    cases last with
    | false =>
      have ht : x.client.turn i .teardown = some ((x.client.teardown i s).assign i .waiting) := by
        simp [Client.turn, hk, hv]
      have hno : ∀ m ∈ Move.teardown s, m.isAssign = false := by simp [Move.teardown, Move.isAssign]
      rw [ht]
      exact (Move.carryOut_assign i .busy .waiting _ x.client hno).trans
        (Move.carryOut_append_teardown x.client i s [.assign .waiting])
    | true =>
      have ht : x.client.turn i .teardown = some (((x.client.teardown i s).setPhase i .closed).assign i .ended) := by
        simp [Client.turn, hk, hv]
      have hno : ∀ m ∈ Move.teardown s ++ [.setPhase .closed], m.isAssign = false := by
        simp [Move.teardown, Move.isAssign]
      rw [ht]
      exact (Move.carryOut_assign i .busy .ended _ x.client hno).trans
        (Move.carryOut_append_teardown x.client i s [.setPhase .closed, .assign .ended])
  | closes => exact Move.carryOut_closing x.client _
  | disconnects => rfl

end Course

end LockService
