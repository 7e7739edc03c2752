import LockService.Client.LiveWatch
import Mathlib.Logic.Function.Basic

/-!
# The sessions of one connection under interleaved operations

Going live, teardown and closing are carried out move by move, and the moves of several operations mix. Here the
operations under way on a connection are given as the moves that each has still to make. `SessionFacts` says what then
holds of the sessions of the connection, of the one in use, and of whether the connection is due to be in the live set,
and there is a lemma for every move.
-/

namespace LockService

variable {k k' : Connection} {ops ops' : Nat → List Move} {due : Bool}

/-! ### Torn down and in use -/

namespace Connection

theorem isTornDown_of_length_le {s : SessionId} (h : k.sessions.length ≤ s) : k.isTornDown s = true := by
  simp [isTornDown, List.getElem?_eq_none h]

theorem lt_of_not_isTornDown {s : SessionId} (h : k.isTornDown s = false) : s < k.sessions.length := by
  refine Nat.lt_of_not_le fun hle => ?_
  rw [isTornDown_of_length_le hle] at h
  cases h

theorem isTornDown_changeSession (s s' : SessionId) (f : Session → Session)
    (hf : ∀ session, (f session).tornDown = session.tornDown) :
    (k.changeSession s f).isTornDown s' = k.isTornDown s' := by
  simp only [isTornDown, changeSession, List.getElem?_modify]
  cases k.sessions[s']? with
  | none => rfl
  | some session =>
    by_cases h : s = s'
    · simp [h, hf]
    · simp [h]

theorem isTornDown_tearDown (s s' : SessionId) :
    (k.changeSession s fun session => { session with tornDown := true }).isTornDown s' =
      (k.isTornDown s' || decide (s' = s)) := by
  simp only [isTornDown, changeSession, List.getElem?_modify]
  by_cases h : s' = s
  · subst h
    cases k.sessions[s']? <;> simp
  · cases k.sessions[s']? <;> simp [h, Ne.symm h]

/-- A new session that is not torn down. -/
theorem isTornDown_concat {session : Session} (hnew : session.tornDown = false) (supervisor : Supervisor)
    (s : SessionId) :
    ({ k with sessions := k.sessions ++ [session], supervisor } : Connection).isTornDown s =
      (k.isTornDown s && decide (s ≠ k.sessions.length)) := by
  simp only [isTornDown]
  by_cases hl : s < k.sessions.length
  · rw [List.getElem?_append_left hl, decide_eq_true (Nat.ne_of_lt hl), Bool.and_true]
  · by_cases he : s = k.sessions.length
    · simp [he, hnew]
    · have hlt : k.sessions.length < s := Nat.lt_of_le_of_ne (Nat.le_of_not_lt hl) (Ne.symm he)
      rw [List.getElem?_eq_none (Nat.le_of_not_lt hl), List.getElem?_eq_none (by rw [List.length_append]; exact hlt),
        decide_eq_true he]
      rfl

@[simp] theorem sessions_setPhase (phase : Phase) : (k.setPhase phase).sessions = k.sessions := by
  unfold setPhase
  split <;> rfl

@[simp] theorem stored_setPhase (phase : Phase) : (k.setPhase phase).stored = k.stored := by
  unfold setPhase
  split <;> rfl

@[simp] theorem shutdown_setPhase (phase : Phase) : (k.setPhase phase).shutdown = k.shutdown := by
  unfold setPhase
  split <;> rfl

@[simp] theorem supervisor_setPhase (phase : Phase) : (k.setPhase phase).supervisor = k.supervisor := by
  unfold setPhase
  split <;> rfl

theorem isTornDown_setPhase (phase : Phase) (s : SessionId) :
    (k.setPhase phase).isTornDown s = k.isTornDown s := by
  rw [isTornDown, sessions_setPhase, isTornDown]

/-- A live session is in use exactly when the stored one is not torn down. -/
theorem isSome_liveSession?_iff : k.liveSession?.isSome = true ↔ ∃ s, k.stored = some s ∧ k.isTornDown s = false := by
  unfold liveSession? isTornDown
  cases hs : k.stored with
  | none => simp
  | some s =>
    cases hx : k.sessions[s]? with
    | none => simp [hx]
    | some session => cases ht : session.tornDown <;> simp [hx, ht]

end Connection

/-! ### What a move does to its connection -/

/-- What a move does to its connection, and what it leads to. -/
def Move.onConnection (k : Connection) : Move → List Move × Connection
  | .store s => ([], { k with stored := some s })
  | .setPhase phase => ([], k.setPhase phase)
  | .joinLive _ => ([], k)
  | .cancelShutdown => ([], { k with shutdown := true })
  | .takeStored => ((k.stored.map Move.teardown).getD [], { k with stored := none })
  | .markTornDown s =>
    if k.isTornDown s then ([], k)
    else ([.cancelSession s, .clearStored s, .setPhase .disconnected, .drain s, .leaveLive],
      k.changeSession s fun session => { session with tornDown := true })
  | .cancelSession s => ([], k.changeSession s fun session => { session with cancelled := true })
  | .clearStored s => ([], if k.stored = some s then { k with stored := none } else k)
  | .drain _ => ([], k)
  | .leaveLive => ([], k)
  | .assign supervisor => ([], { k with supervisor })

/-- A change to one connection leaves the others as they are. -/
theorem Client.getElem?_connections_change (c : Client) (i j : Nat) (f : Connection → Connection) :
    (c.change i f).connections[j]? = if i = j then (c.connections[j]?).map f else c.connections[j]? := by
  simp only [Client.change, List.getElem?_modify]
  split <;> simp

/-- A move on the client is that move on its connection. -/
theorem Move.getElem?_connections_make {c : Client} {i : Nat} (hk : c.connections[i]? = some k) (m : Move) :
    (m.make c i).1 = (m.onConnection k).1 ∧ (m.make c i).2.connections[i]? = some (m.onConnection k).2 := by
  have change : ∀ f : Connection → Connection, (c.change i f).connections[i]? = some (f k) := by
    intro f
    rw [Client.getElem?_connections_change, if_pos rfl, hk]
    rfl
  cases m with
  | store s => exact ⟨rfl, change _⟩
  | setPhase phase => exact ⟨rfl, change _⟩
  | joinLive s =>
    refine ⟨rfl, ?_⟩
    simp only [Move.make, Client.joinLive]
    split <;> exact hk
  | cancelShutdown => exact ⟨rfl, change _⟩
  | takeStored =>
    simp only [Move.make, Client.takeStored, hk, Option.bind_some, Move.onConnection]
    cases k.stored with
    | none => exact ⟨rfl, change _⟩
    | some s => exact ⟨rfl, change _⟩
  | markTornDown s =>
    simp only [Move.make, Client.markTornDown, hk, Move.onConnection]
    by_cases ht : k.isTornDown s = true
    · simp only [ht, if_true]
      exact ⟨trivial, hk⟩
    · simp only [ht, if_false, Bool.false_eq_true]
      exact ⟨trivial, change _⟩
  | cancelSession s => exact ⟨rfl, change _⟩
  | clearStored s => exact ⟨rfl, change _⟩
  | drain s =>
    refine ⟨rfl, ?_⟩
    simp only [Move.make, Client.drain]
    split <;> exact hk
  | leaveLive =>
    refine ⟨rfl, ?_⟩
    simp only [Move.make, Client.leaveLive]
    split <;> exact hk
  | assign supervisor => exact ⟨rfl, change _⟩

/-- No move takes a shutdown back. -/
theorem Move.shutdown_onConnection (hd : k.shutdown = true) (m : Move) : (m.onConnection k).2.shutdown = true := by
  cases m with
  | setPhase phase => exact (Connection.shutdown_setPhase phase).trans hd
  | cancelShutdown => rfl
  | markTornDown s =>
    simp only [Move.onConnection]
    split <;> exact hd
  | clearStored s =>
    simp only [Move.onConnection]
    split <;> exact hd
  | _ => exact hd

/-! ### What holds of the sessions -/

/-- A move is still to be made by one of the operations. -/
def Move.IsAhead (m : Move) (ops : Nat → List Move) : Prop := ∃ n, m ∈ ops n

/-- A session is open that has still to be stored. -/
def Unstored (k : Connection) (ops : Nat → List Move) (s : SessionId) : Prop :=
  k.supervisor = .engaged s ∨ (Move.store s).IsAhead ops

/-- A session is open with which the connection has still to join the live set. -/
def Unjoined (k : Connection) (ops : Nat → List Move) (s : SessionId) : Prop :=
  k.supervisor = .engaged s ∨ (Move.joinLive s).IsAhead ops

/-- What holds of the sessions of a connection, and of whether it is due to be in the live set. -/
structure SessionFacts (k : Connection) (ops : Nat → List Move) (due : Bool) : Prop where
  latest : ∀ s, k.isTornDown s = false → s + 1 = k.sessions.length
  storedExists : ∀ s, k.stored = some s → s < k.sessions.length
  unstored : ∀ s, Unstored k ops s → k.stored ≠ some s
  inUse : ∀ s, k.isTornDown s = false →
    Unstored k ops s ∨ k.stored = some s ∨ (Move.markTornDown s).IsAhead ops
  isDue : due = true → (∃ s, k.isTornDown s = false ∧ ¬ Unstored k ops s) ∨ Move.leaveLive.IsAhead ops
  notDue : due = false → ∀ s, k.isTornDown s = false → k.stored = some s → Unjoined k ops s
  young : k.shutdown = false → ∀ s, Unjoined k ops s → k.isTornDown s = false

/-- The latest session is the only one that may not be torn down. -/
private theorem SessionFacts.eq_of_latest (h : SessionFacts k ops due) {s s' : SessionId}
    (hl : s + 1 = k.sessions.length) (halive : k.isTornDown s' = false) : s' = s :=
  Nat.succ.inj ((h.latest s' halive).trans hl.symm)

/-- Events that change nothing that matters to the sessions. -/
theorem SessionFacts.frame (h : SessionFacts k ops due) (ht : ∀ s, k'.isTornDown s = k.isTornDown s)
    (hl : k'.sessions.length = k.sessions.length) (hs : k'.stored = k.stored)
    (hd : k'.shutdown = false → k.shutdown = false)
    (hstore : ∀ s, Unstored k' ops' s ↔ Unstored k ops s) (hjoin : ∀ s, Unjoined k' ops' s ↔ Unjoined k ops s)
    (hmark : ∀ s, k.isTornDown s = false → (Move.markTornDown s).IsAhead ops → (Move.markTornDown s).IsAhead ops')
    (hleave : Move.leaveLive.IsAhead ops → Move.leaveLive.IsAhead ops') : SessionFacts k' ops' due where
  latest s hs := by
    rw [hl]
    exact h.latest s (ht s ▸ hs)
  storedExists s hst := by
    rw [hl]
    exact h.storedExists s (hs ▸ hst)
  unstored s hu := by
    rw [hs]
    exact h.unstored s ((hstore s).mp hu)
  inUse s halive := by
    rw [hs, hstore]
    rw [ht] at halive
    exact (h.inUse s halive).imp_right (.imp_right (hmark s halive))
  isDue hdue := by
    refine (h.isDue hdue).imp ?_ hleave
    rintro ⟨s, halive, hu⟩
    exact ⟨s, (ht s).trans halive, fun hu' => hu ((hstore s).mp hu')⟩
  notDue hdue s halive hst := (hjoin s).mpr (h.notDue hdue s (ht s ▸ halive) (hs ▸ hst))
  young hsh s hu := by
    rw [ht]
    exact h.young (hd hsh) s ((hjoin s).mp hu)

section Advance

variable {n : Nat} {m : Move} {rest more : List Move}

private theorem Move.IsAhead.of_update {x : Move} (hn : ops n = m :: rest)
    (h : x.IsAhead (Function.update ops n (more ++ rest))) : x ∈ more ∨ x.IsAhead ops := by
  obtain ⟨n', hx⟩ := h
  by_cases hn' : n' = n
  · subst hn'
    rw [Function.update_self] at hx
    refine (List.mem_append.mp hx).imp_right fun hr => ⟨n', ?_⟩
    rw [hn]
    exact List.mem_cons_of_mem _ hr
  · rw [Function.update_of_ne hn'] at hx
    exact .inr ⟨n', hx⟩

private theorem Move.IsAhead.update {x : Move} (hn : ops n = m :: rest) (hx : x ≠ m) (h : x.IsAhead ops)
    (more : List Move) : x.IsAhead (Function.update ops n (more ++ rest)) := by
  obtain ⟨n', h⟩ := h
  refine ⟨n', ?_⟩
  by_cases hn' : n' = n
  · subst hn'
    rw [hn] at h
    rw [Function.update_self]
    exact List.mem_append_right _ ((List.mem_cons.mp h).resolve_left hx)
  · rwa [Function.update_of_ne hn']

private theorem Move.isAhead_of_mem {x : Move} (hx : x ∈ more) : x.IsAhead (Function.update ops n (more ++ rest)) :=
  ⟨n, by rw [Function.update_self]; exact List.mem_append_left _ hx⟩

private theorem Move.isAhead_update_iff {x : Move} (hn : ops n = m :: rest) (hx : x ≠ m) (hm : x ∉ more) :
    x.IsAhead (Function.update ops n (more ++ rest)) ↔ x.IsAhead ops :=
  ⟨fun h => (h.of_update hn).resolve_left hm, fun h => h.update hn hx more⟩

/-- When a move is made the others are still ahead. -/
theorem Move.isAhead_drop_iff {x : Move} (hn : ops n = m :: rest) (hx : x ≠ m) :
    x.IsAhead (Function.update ops n rest) ↔ x.IsAhead ops := by
  have hnil : x ∉ ([] : List Move) := List.not_mem_nil
  exact Move.isAhead_update_iff hn hx hnil

/-- Moves that touch neither sessions nor the live set. -/
theorem SessionFacts.move (h : SessionFacts k ops due) (hn : ops n = m :: rest)
    (ht : ∀ s, k'.isTornDown s = k.isTornDown s)
    (hl : k'.sessions.length = k.sessions.length) (hs : k'.stored = k.stored)
    (hd : k'.shutdown = false → k.shutdown = false) (hv : k'.supervisor = k.supervisor)
    (hstore : ∀ s, m ≠ .store s) (hjoin : ∀ s, m ≠ .joinLive s)
    (hmark : ∀ s, k.isTornDown s = false → m ≠ .markTornDown s) (hleave : m ≠ .leaveLive) :
    SessionFacts k' (Function.update ops n rest) due := by
  have ahead : ∀ {x : Move}, x ≠ m → (x.IsAhead (Function.update ops n rest) ↔ x.IsAhead ops) := fun hx =>
    Move.isAhead_drop_iff hn hx
  refine h.frame ht hl hs hd (fun s => ?_) (fun s => ?_) (fun s halive hm => ?_) fun hm => ?_
  · rw [Unstored, Unstored, hv, ahead (Ne.symm (hstore s))]
  · rw [Unjoined, Unjoined, hv, ahead (Ne.symm (hjoin s))]
  · exact (ahead (Ne.symm (hmark s halive))).mpr hm
  · exact (ahead (Ne.symm hleave)).mpr hm

/-- Taking the stored session puts its teardown next. -/
theorem SessionFacts.takeStored (h : SessionFacts k ops due) (hn : ops n = .takeStored :: rest) :
    SessionFacts { k with stored := none }
      (Function.update ops n ((k.stored.map Move.teardown).getD [] ++ rest)) due := by
  have hmore : ∀ x ∈ (k.stored.map Move.teardown).getD [], ∃ s, k.stored = some s ∧ x = .markTornDown s := by
    intro x hx
    cases hs : k.stored with
    | none =>
      rw [hs] at hx
      cases hx
    | some s =>
      rw [hs] at hx
      exact ⟨s, rfl, List.mem_singleton.mp hx⟩
  have ahead : ∀ {x : Move}, x ≠ .takeStored → (∀ s, x ≠ .markTornDown s) →
      (x.IsAhead (Function.update ops n ((k.stored.map Move.teardown).getD [] ++ rest)) ↔ x.IsAhead ops) := by
    intro x hx hm
    refine Move.isAhead_update_iff hn hx fun hmem => ?_
    obtain ⟨s, -, he⟩ := hmore x hmem
    exact hm s he
  have hstore : ∀ s, Unstored { k with stored := none }
      (Function.update ops n ((k.stored.map Move.teardown).getD [] ++ rest)) s ↔ Unstored k ops s := by
    intro s
    rw [Unstored, Unstored, ahead (by simp) (by simp)]
  have hjoin : ∀ s, Unjoined { k with stored := none }
      (Function.update ops n ((k.stored.map Move.teardown).getD [] ++ rest)) s ↔ Unjoined k ops s := by
    intro s
    rw [Unjoined, Unjoined, ahead (by simp) (by simp)]
  -- the session that is taken away is marked next, so it stays in reach of a teardown
  refine ⟨h.latest, nofun, fun _ _ => nofun, ?_, ?_, fun _ _ _ => nofun, ?_⟩
  · intro s halive
    rw [hstore]
    rcases h.inUse s halive with hu | hs | hm
    · exact .inl hu
    · refine .inr (.inr (Move.isAhead_of_mem ?_))
      rw [hs]
      exact List.mem_singleton_self _
    · exact .inr (.inr (hm.update hn (by simp) _))
  · intro hdue
    refine (h.isDue hdue).imp ?_ fun hm => hm.update hn (by simp) _
    rintro ⟨s, halive, hu⟩
    exact ⟨s, halive, fun hu' => hu ((hstore s).mp hu')⟩
  · intro hsh s hu
    exact h.young hsh s ((hjoin s).mp hu)

/-- Marking a session that is not torn down: its teardown will make the connection leave the live set. -/
theorem SessionFacts.markTornDown {s : SessionId} (h : SessionFacts k ops due) (hn : ops n = .markTornDown s :: rest)
    (hy : k.shutdown = false → ∀ s', ¬ Unjoined k ops s')
    (hmore : more = [.cancelSession s, .clearStored s, .setPhase .disconnected, .drain s, .leaveLive]) :
    SessionFacts (k.changeSession s fun session => { session with tornDown := true })
      (Function.update ops n (more ++ rest)) due := by
  have alive : ∀ {s'}, (k.changeSession s fun session => { session with tornDown := true }).isTornDown s' = false →
      k.isTornDown s' = false ∧ s' ≠ s := by
    intro s' h'
    rw [Connection.isTornDown_tearDown] at h'
    simpa using h'
  have ahead : ∀ {x : Move}, x ≠ .markTornDown s → x ∉ more →
      (x.IsAhead (Function.update ops n (more ++ rest)) ↔ x.IsAhead ops) := Move.isAhead_update_iff hn
  have hlen : (k.changeSession s fun session => { session with tornDown := true }).sessions.length =
      k.sessions.length := by simp [Connection.changeSession]
  refine ⟨?_, ?_, ?_, ?_, ?_, ?_, ?_⟩
  · intro s' h'
    rw [hlen]
    exact h.latest s' (alive h').1
  · intro s' hs'
    rw [hlen]
    exact h.storedExists s' hs'
  · intro s' hu
    rw [Unstored, ahead (by simp) (by simp [hmore])] at hu
    exact h.unstored s' hu
  · intro s' h'
    obtain ⟨halive, hne⟩ := alive h'
    rw [Unstored, ahead (by simp) (by simp [hmore])]
    exact (h.inUse s' halive).imp_right (.imp_right fun hm => hm.update hn (by simpa using hne) _)
  · intro _
    -- leaving the live set is one of the moves that follow
    exact .inr (Move.isAhead_of_mem (by simp [hmore]))
  · intro hdue s' h' hs'
    rw [Unjoined, ahead (by simp) (by simp [hmore])]
    exact h.notDue hdue s' (alive h').1 hs'
  · intro hsh s' hu
    rw [Unjoined, ahead (by simp) (by simp [hmore])] at hu
    exact absurd hu (hy hsh s')

/-- A session that is torn down is no longer stored. -/
theorem SessionFacts.clearStored {s : SessionId} (h : SessionFacts k ops due) (hn : ops n = .clearStored s :: rest)
    (ht : k.isTornDown s = true) :
    SessionFacts (if k.stored = some s then { k with stored := none } else k) (Function.update ops n rest) due := by
  have h : SessionFacts k (Function.update ops n rest) due :=
    h.move hn (fun _ => rfl) rfl rfl (fun hsh => hsh) rfl (by simp) (by simp) (by simp) (by simp)
  split
  · rename_i hs
    refine ⟨h.latest, nofun, fun _ _ => nofun, ?_, h.isDue, fun _ _ _ => nofun, h.young⟩
    intro s' halive
    refine (h.inUse s' halive).imp_right (Or.imp_left fun hs' => ?_)
    rw [hs] at hs'
    cases hs'
    cases ht.symm.trans halive
  · exact h

/-- After leaving the live set a connection is due there exactly when a live session is in use. -/
theorem SessionFacts.leaveLive (h : SessionFacts k ops due) (hn : ops n = .leaveLive :: rest) :
    SessionFacts k (Function.update ops n rest) k.liveSession?.isSome := by
  have ahead : ∀ {x : Move}, x ≠ .leaveLive → (x.IsAhead (Function.update ops n rest) ↔ x.IsAhead ops) := fun hx =>
    Move.isAhead_drop_iff hn hx
  refine ⟨h.latest, h.storedExists, ?_, ?_, ?_, ?_, ?_⟩
  · intro s hu
    rw [Unstored, ahead (by simp)] at hu
    exact h.unstored s hu
  · intro s halive
    rw [Unstored, ahead (by simp), ahead (by simp)]
    exact h.inUse s halive
  · intro hdue
    obtain ⟨s, hs, halive⟩ := Connection.isSome_liveSession?_iff.mp hdue
    refine .inl ⟨s, halive, fun hu => ?_⟩
    rw [Unstored, ahead (by simp)] at hu
    exact h.unstored s hu hs
  · intro hdue s halive hs
    rw [Connection.isSome_liveSession?_iff.mpr ⟨s, hs, halive⟩] at hdue
    cases hdue
  · intro hsh s hu
    rw [Unjoined, ahead (by simp)] at hu
    exact h.young hsh s hu

/-- Storing the latest session, with which the connection will then join the live set. -/
theorem SessionFacts.store {s : SessionId} (h : SessionFacts k ops due) (hn : ops n = .store s :: rest)
    (hl : s + 1 = k.sessions.length) (hv : k.supervisor ≠ .engaged s) (hj : .joinLive s ∈ rest)
    (hu : ¬ (Move.store s).IsAhead (Function.update ops n rest)) :
    SessionFacts { k with stored := some s } (Function.update ops n rest) due := by
  have ahead : ∀ {x : Move}, x ≠ .store s → (x.IsAhead (Function.update ops n rest) ↔ x.IsAhead ops) := fun hx =>
    Move.isAhead_drop_iff hn hx
  have latest : ∀ s', k.isTornDown s' = false → s' = s := fun s' => h.eq_of_latest hl
  -- only the latest session can be one that is not torn down, so all that is in use is now stored
  refine ⟨h.latest, ?_, ?_, ?_, ?_, ?_, ?_⟩
  · intro s' hs'
    cases hs'
    exact hl ▸ Nat.lt_succ_self s
  · rintro s' hu' hs'
    cases hs'
    exact hu'.elim hv hu
  · intro s' halive
    rw [latest s' halive]
    exact .inr (.inl rfl)
  · intro hdue
    refine (h.isDue hdue).imp ?_ (ahead (by simp)).mpr
    rintro ⟨s', halive, -⟩
    have := latest s' halive
    subst this
    exact ⟨s', halive, fun hu' => hu'.elim hv hu⟩
  · intro _ s' halive _
    rw [latest s' halive]
    refine .inr ⟨n, ?_⟩
    rwa [Function.update_self]
  · intro hsh s' hu'
    rw [Unjoined, ahead (by simp)] at hu'
    exact h.young hsh s' hu'

/-- After joining the live set a connection is due there unless its session is torn down and nothing will make it
leave. -/
theorem SessionFacts.joinLive {s : SessionId} (h : SessionFacts k ops due) (hn : ops n = .joinLive s :: rest)
    (hl : s + 1 = k.sessions.length) (hu : ¬ Unstored k ops s) {leaving : Bool}
    (hleave : leaving = true ↔ Move.leaveLive.IsAhead ops) :
    SessionFacts k (Function.update ops n rest) (!(k.isTornDown s && !leaving)) := by
  have ahead : ∀ {x : Move}, x ≠ .joinLive s → (x.IsAhead (Function.update ops n rest) ↔ x.IsAhead ops) := fun hx =>
    Move.isAhead_drop_iff hn hx
  refine ⟨h.latest, h.storedExists, ?_, ?_, ?_, ?_, ?_⟩
  · intro s' hu'
    rw [Unstored, ahead (by simp)] at hu'
    exact h.unstored s' hu'
  · intro s' halive
    rw [Unstored, ahead (by simp), ahead (by simp)]
    exact h.inUse s' halive
  · intro hdue
    cases ht : k.isTornDown s with
    | false =>
      refine .inl ⟨s, ht, fun hu' => hu ?_⟩
      rwa [Unstored, ahead (by simp)] at hu'
    | true =>
      -- joining late is no harm as long as a teardown will make the connection leave again
      rw [ht] at hdue
      right
      rw [ahead (by simp)]
      exact hleave.mp (by simpa using hdue)
  · intro hdue s' halive _
    have hs' : s' = s := h.eq_of_latest hl halive
    subst hs'
    rw [halive] at hdue
    cases hdue
  · intro hsh s' hu'
    refine h.young hsh s' (hu'.imp_right fun hj => ?_)
    have hj : (Move.joinLive s').IsAhead (Function.update ops n ([] ++ rest)) := hj
    exact (hj.of_update hn).resolve_left List.not_mem_nil

end Advance

end LockService
