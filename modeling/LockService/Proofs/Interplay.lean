import LockService.Proofs.LiveSet

/-!
# One connection in an interplay

What an event of an interplay does to the connection that it is about, to the operations under way on it, and to the
live set, and that it leaves all other connections alone.
-/

namespace LockService

/-- A client in which one connection has become another, and all else that matters to the live set is the same. -/
structure Client.Becomes (c c' : Client) (j : Nat) (k' : Connection) : Prop where
  replicated : c'.replicated = c.replicated
  live : c'.live = c.live
  here : c'.connections[j]? = some k'
  others : ∀ i, i ≠ j → c'.connections[i]? = c.connections[i]?
  length : c'.connections.length = c.connections.length

namespace Client

variable {c c' c'' : Client} {j : Nat} {k k' k'' : Connection}

theorem Becomes.trans (h : c.Becomes c' j k') (h' : c'.Becomes c'' j k'') : c.Becomes c'' j k'' where
  replicated := h'.replicated.trans h.replicated
  live := h'.live.trans h.live
  here := h'.here
  others i hi := (h'.others i hi).trans (h.others i hi)
  length := h'.length.trans h.length

theorem becomes_change (hk : c.connections[j]? = some k) (f : Connection → Connection) :
    c.Becomes (c.change j f) j (f k) where
  replicated := rfl
  live := rfl
  here := by
    rw [getElem?_connections_change, if_pos rfl, hk]
    rfl
  others i hi := by rw [getElem?_connections_change, if_neg (Ne.symm hi)]
  length := by simp [change]

private theorem becomes_draw (hk : c.connections[j]? = some k) : c.Becomes c.draw.2 j k :=
  ⟨rfl, rfl, hk, fun _ _ => rfl, rfl⟩

/-- A new session has a new table and is not torn down, and the others stay. -/
theorem becomes_newSession (hk : c.connections[j]? = some k) (initType : UInt8) (unread : List UInt8) :
    (c.newSession j initType unread).1 = k.sessions.length ∧ ∃ session : Session,
      (session.initType = initType ∧ session.unread = unread) ∧ session.tornDown = false ∧
      c.Becomes (c.newSession j initType unread).2 j { k with sessions := k.sessions ++ [session] } := by
  refine ⟨by simp [newSession, hk], ⟨c.board.newTable.1, initType, false, false, unread, [], []⟩, ⟨rfl, rfl⟩, rfl, ?_⟩
  have hb : c.Becomes { c with board := c.board.newTable.2 } j k := ⟨rfl, rfl, hk, fun _ _ => rfl, rfl⟩
  exact hb.trans (becomes_change hb.here _)

end Client

/-! ### Turns with which no operation begins -/

/-- What a turn of a supervisor does to its connection when no operation begins with it. -/
inductive Connection.Turns (k : Connection) : Connection → Prop where
  /-- The supervisor goes about an attempt to connect, or gives it up. -/
  | attempts {phase : Phase} {v : Supervisor} (hv : k.supervisor.isAtRest = true) (hv' : v.isAtRest = true)
    (hne : v ≠ .ended) (hlive : phase ≠ .live) (hclosed : phase ≠ .closed) :
    k.Turns { k.setPhase phase with supervisor := v }
  | retires (hv : k.supervisor.isAtRest = true) (hd : k.shutdown = true) :
    k.Turns { k.setPhase .closed with supervisor := .ended }
  | engages {id : Ident} {session : Session} (hv : k.supervisor = .handshaking id) (ht : session.tornDown = false) :
    k.Turns { k with sessions := k.sessions ++ [session], supervisor := .engaged k.sessions.length }
  | checks {s : SessionId} (hv : k.supervisor = .checking s) :
    k.Turns { k with supervisor := if k.shutdown then .leaving s true else .reading s }
  | stopsReading {s : SessionId} (hv : k.supervisor = .reading s) :
    k.Turns { k with supervisor := .leaving s false }

theorem Connection.Turns.shutdown {k k' : Connection} (h : k.Turns k') : k'.shutdown = k.shutdown := by
  cases h with
  | attempts => exact shutdown_setPhase _
  | retires => exact shutdown_setPhase _
  | engages => rfl
  | checks => rfl
  | stopsReading => rfl

/-- A turn of the supervisor keeps a connection sane. -/
theorem Sane.turns {k k' : Connection} {ops : Nat → List Move} {due : Bool} (hs : Sane k ops due) (h : k.Turns k') :
    Sane k' ops due := by
  cases h with
  | attempts hv hv' => exact hs.turnAtRest (by simp) (by simp) (by simp) hv hv'
  | retires hv => exact hs.turnAtRest (by simp) (by simp) (by simp) hv rfl
  | engages hv ht => exact hs.engage hv ht
  | checks hv =>
    refine hs.turnAtWork rfl rfl rfl (by rw [hv]; rfl) ?_ (by simp [hv]) ?_
    · split <;> rfl
    · split <;> simp
  | stopsReading hv => exact hs.turnAtWork rfl rfl rfl (by rw [hv]; rfl) rfl (by simp [hv]) (by simp)

namespace Client

variable {c c' : Client} {j : Nat} {k : Connection}

/-- A supervisor without a session goes on to another stage of its attempt to connect. -/
private theorem becomes_attempt (hk : c.connections[j]? = some k) (phase : Phase) {v v' : Supervisor}
    (hv : k.supervisor = v) (hrest : v.isAtRest = true) (hrest' : v'.isAtRest = true) (hne : v' ≠ .ended)
    (hlive : phase ≠ .live) (hclosed : phase ≠ .closed) :
    ∃ k', c.Becomes ((c.setPhase j phase).assign j v') j k' ∧ k.Turns k' := by
  have hb := becomes_change hk (·.setPhase phase)
  refine ⟨_, hb.trans (becomes_change hb.here fun k => { k with supervisor := v' }), ?_⟩
  exact .attempts (by rwa [hv]) hrest' hne hlive hclosed

/-- A supervisor without a session ends when the connection has been closed. -/
private theorem becomes_retired (hk : c.connections[j]? = some k) {v : Supervisor} (hv : k.supervisor = v)
    (hrest : v.isAtRest = true) (hd : k.shutdown = true) :
    ∃ k', c.Becomes ((c.setPhase j .closed).assign j .ended) j k' ∧ k.Turns k' := by
  have hb := becomes_change hk (·.setPhase .closed)
  refine ⟨_, hb.trans (becomes_change hb.here fun k => { k with supervisor := .ended }), ?_⟩
  exact .retires (by rwa [hv]) hd

/-- What a turn of a supervisor makes of its connection, unless an operation begins with it. -/
theorem becomes_turn {t : Turn} (hk : c.connections[j]? = some k) (ht : c.turn j t = some c')
    (hgo : t = .goLive → ∀ s, k.supervisor ≠ .engaged s)
    (htear : t = .teardown → ∀ s last, k.supervisor ≠ .leaving s last) :
    ∃ k', c.Becomes c' j k' ∧ k.Turns k' := by
  simp only [turn, hk, Option.bind_eq_bind, Option.bind_some] at ht
  -- one case for each turn; going live and teardown are excluded, for they only begin here
  split at ht
  case h_1 hv =>
    cases ht
    exact becomes_attempt hk _ hv rfl rfl (by simp) (by simp) (by simp)
  case h_2 hv =>
    cases ht
    have hphase := becomes_change hk (·.setPhase .handshaking)
    have hb := hphase.trans (becomes_draw hphase.here)
    refine ⟨_, hb.trans (becomes_change hb.here fun k => { k with supervisor := _ }), ?_⟩
    exact .attempts (by rw [hv]; rfl) rfl (by simp) (by simp) (by simp)
  case h_3 arriving id hv =>
    split at ht
    · rename_i initType _
      cases ht
      obtain ⟨hnew, session, -, htorn, hb⟩ := becomes_newSession hk initType arriving.rest
      rw [hnew]
      refine ⟨_, hb.trans (becomes_change hb.here fun k' => { k' with supervisor := .engaged k.sessions.length }), ?_⟩
      exact .engages hv htorn
    · cases ht
      exact becomes_attempt hk _ hv rfl rfl (by simp) (by simp) (by simp)
  case h_4 hv =>
    cases ht
    exact becomes_attempt hk _ hv rfl rfl (by simp) (by simp) (by simp)
  case h_5 hv =>
    cases ht
    exact becomes_attempt hk _ hv rfl rfl (by simp) (by simp) (by simp)
  case h_6 s hv => exact absurd hv (hgo rfl s)
  case h_7 s hv =>
    cases ht
    exact ⟨_, becomes_change hk fun k' => { k' with supervisor := _ }, .checks hv⟩
  case h_8 s hv =>
    cases ht
    exact ⟨_, becomes_change hk fun k' => { k' with supervisor := _ }, .stopsReading hv⟩
  case h_9 s hv => exact absurd hv (htear rfl s false)
  case h_10 s hv => exact absurd hv (htear rfl s true)
  case h_14 => cases ht
  all_goals
    rename_i hv
    split at ht
    · rename_i hd
      cases ht
      exact becomes_retired hk hv rfl hd
    · cases ht

theorem becomes_refl (hk : c.connections[j]? = some k) : c.Becomes c j k := ⟨rfl, rfl, hk, fun _ _ => rfl, rfl⟩

/-- A connection that is disconnected stays sane, whatever is under way on it. -/
theorem becomes_disconnect (hk : c.connections[j]? = some k) : ∃ k', c.Becomes (c.disconnect j) j k' ∧
    k'.shutdown = k.shutdown ∧ ∀ ops due, Sane k ops due → Sane k' ops due := by
  simp only [disconnect, hk, Option.bind_some]
  cases k.stored with
  | none => exact ⟨k, becomes_refl hk, rfl, fun _ _ h => h⟩
  | some s => exact ⟨_, becomes_change hk _, rfl, fun _ _ h => h.disconnect s⟩

/-- A client starts with fresh connections and an empty live set. -/
theorem start_fresh {config : Config} {replicated : Bool} {ids : IdSource} (hc : start config replicated ids = .ok c) :
    c.live = [] ∧ ∀ k ∈ c.connections, ∃ address, k = { address } := by
  have fresh : ∀ (addresses : List Address), ∀ k ∈ addresses.map fun address => ({ address } : Connection),
      ∃ address, k = { address } := by
    intro addresses k hk
    obtain ⟨address, -, he⟩ := List.mem_map.mp hk
    exact ⟨address, he.symm⟩
  simp only [start] at hc
  split at hc
  · cases hc
  · split at hc <;> split at hc <;> cases hc <;> exact ⟨rfl, fresh _⟩

end Client

/-! ### Moves on the live set -/

namespace Move

variable {c : Client} {i j : Nat} {k : Connection} {m : Move}

/-- Whether the connection is in the live set after a move. -/
def listedAfter (listed : Bool) : Move → Bool
  | .joinLive _ => true
  | .leaveLive => false
  | _ => listed

/-- What a move leaves alone. -/
theorem frame_make (c : Client) (i : Nat) (m : Move) : (m.make c i).2.replicated = c.replicated ∧
    (∀ j, j ≠ i → (m.make c i).2.connections[j]? = c.connections[j]?) ∧
    ((∀ s, m ≠ .joinLive s) → m ≠ .leaveLive → (m.make c i).2.live = c.live) := by
  have change : ∀ f : Connection → Connection, ∀ j, j ≠ i → (c.change i f).connections[j]? = c.connections[j]? := by
    intro f j hj
    rw [Client.getElem?_connections_change, if_neg (Ne.symm hj)]
  cases m with
  | joinLive s =>
    simp only [make, Client.joinLive]
    split <;> exact ⟨rfl, fun _ _ => rfl, fun hj => absurd rfl (hj s)⟩
  | leaveLive =>
    simp only [make, Client.leaveLive]
    split <;> exact ⟨rfl, fun _ _ => rfl, fun _ hl => absurd rfl hl⟩
  | takeStored =>
    simp only [make, Client.takeStored]
    cases c.connections[i]?.bind (·.stored) <;> exact ⟨rfl, change _, fun _ _ => rfl⟩
  | markTornDown s =>
    have hsame : (make c i (.markTornDown s)).2 = (c.markTornDown i s).2 := by
      simp only [make]
      split <;> rename_i h <;> rw [h]
    have hmark : (c.markTornDown i s).2 = c ∨ ∃ f, (c.markTornDown i s).2 = c.change i f := by
      unfold Client.markTornDown
      split
      · split
        · exact .inl rfl
        · exact .inr ⟨_, rfl⟩
      · exact .inl rfl
    rw [hsame]
    rcases hmark with h | ⟨f, h⟩ <;> rw [h]
    · exact ⟨rfl, fun _ _ => rfl, fun _ _ => rfl⟩
    · exact ⟨rfl, change f, fun _ _ => rfl⟩
  | drain s =>
    simp only [make, Client.drain]
    split <;> exact ⟨rfl, fun _ _ => rfl, fun _ _ => rfl⟩
  | _ => exact ⟨rfl, change _, fun _ _ => rfl⟩

theorem has_make_of_ne (hj : j ≠ i) : (m.make c i).2.live.has j = c.live.has j := by
  cases m with
  | joinLive s =>
    simp only [make, Client.joinLive]
    split
    · rw [LiveSet.has_join, decide_eq_false hj, Bool.false_or]
    · rfl
  | leaveLive =>
    simp only [make, Client.leaveLive]
    split
    · rw [LiveSet.has_leave, decide_eq_true hj, Bool.true_and]
    · rfl
  | _ => rw [(frame_make c i _).2.2 (by simp) (by simp)]

/-- A move of a connection lists it, or strikes it off, as the move says. -/
theorem has_make_self (hr : c.replicated = true) (hk : c.connections[i]? = some k)
    (hs : ∀ s, m = .joinLive s → s < k.sessions.length) :
    (m.make c i).2.live.has i = m.listedAfter (c.live.has i) := by
  cases m with
  | joinLive s =>
    have hs : s < k.sessions.length := hs s rfl
    have hx : k.sessions[s]? = some k.sessions[s] := List.getElem?_eq_getElem hs
    simp only [make, Client.joinLive, hr, hk, Option.bind_some, hx, LiveSet.has_join, listedAfter]
    simp
  | leaveLive =>
    simp only [make, Client.leaveLive, hr, if_true, LiveSet.has_leave, listedAfter]
    simp
  | _ =>
    rw [(frame_make c i _).2.2 (by simp) (by simp)]
    rfl

end Move

namespace Interplay

/-! ### The operations on one connection -/

variable {p p' : Interplay} {i j n : Nat}

theorem movesOn_length (p : Interplay) (i : Nat) : p.movesOn i p.underway.length = [] := by
  simp [movesOn]

theorem movesOn_begin (p : Interplay) (i j : Nat) (moves : List Move) : (p.begin j moves).movesOn i =
    if j = i then Function.update (p.movesOn i) p.underway.length moves else p.movesOn i := by
  funext n
  simp only [movesOn, begin, List.getElem?_append]
  by_cases hn : n < p.underway.length
  · rw [if_pos hn]
    by_cases hj : j = i
    · rw [if_pos hj, Function.update_of_ne (Nat.ne_of_lt hn)]
      rfl
    · rw [if_neg hj]
      rfl
  · rw [if_neg hn]
    have hnone : p.underway[n]? = none := List.getElem?_eq_none (Nat.le_of_not_lt hn)
    by_cases he : n = p.underway.length
    · subst he
      rw [Nat.sub_self]
      by_cases hj : j = i
      · rw [if_pos hj, Function.update_self]
        exact if_pos hj
      · rw [if_neg hj]
        show (if j = i then moves else []) = p.movesOn i p.underway.length
        rw [if_neg hj, movesOn_length]
    · have hsub : ([(j, moves)] : List (Nat × List Move))[n - p.underway.length]? = none := by
        apply List.getElem?_eq_none
        rw [List.length_singleton]
        omega
      rw [hsub]
      by_cases hj : j = i
      · rw [if_pos hj, Function.update_of_ne he, movesOn, hnone]
      · rw [if_neg hj, movesOn, hnone]

theorem movesOn_set {moves : List Move} (hn : p.underway[n]? = some (j, moves)) (c : Client) (moves' : List Move)
    (i : Nat) : ({ client := c, underway := p.underway.set n (j, moves') } : Interplay).movesOn i =
      if j = i then Function.update (p.movesOn i) n moves' else p.movesOn i := by
  have hl := (List.getElem?_eq_some_iff.mp hn).1
  funext n'
  by_cases he : n' = n
  · subst he
    simp only [movesOn, List.getElem?_set_self hl]
    by_cases hj : j = i
    · rw [if_pos hj, if_pos hj, Function.update_self]
    · rw [if_neg hj, if_neg hj, movesOn, hn]
      exact (if_neg hj).symm
  · simp only [movesOn, List.getElem?_set_ne (Ne.symm he)]
    by_cases hj : j = i
    · rw [if_pos hj, Function.update_of_ne he]
      rfl
    · rw [if_neg hj]
      rfl

theorem movesOn_eq {moves : List Move} (hn : p.underway[n]? = some (i, moves)) : p.movesOn i n = moves := by
  simp [movesOn, hn]

private theorem mem_underway_of_movesOn {m : Move} (hm : m ∈ p.movesOn i n) :
    ∃ moves, (i, moves) ∈ p.underway ∧ m ∈ moves := by
  unfold movesOn at hm
  split at hm
  · rename_i j moves hn
    split at hm
    · rename_i hj
      subst hj
      exact ⟨moves, List.mem_of_getElem? hn, hm⟩
    · cases hm
  · cases hm

theorem isLeaving_iff (p : Interplay) (i : Nat) : p.isLeaving i = true ↔ Move.leaveLive.IsAhead (p.movesOn i) := by
  simp only [isLeaving, List.any_eq_true, Prod.exists, Bool.and_eq_true, decide_eq_true_eq, List.contains_iff_mem]
  constructor
  · rintro ⟨j, moves, hm, rfl, hl⟩
    obtain ⟨n, hn⟩ := List.mem_iff_getElem?.mp hm
    exact ⟨n, by rwa [movesOn_eq hn]⟩
  · rintro ⟨n, hl⟩
    obtain ⟨moves, hm, hl⟩ := mem_underway_of_movesOn hl
    exact ⟨i, moves, hm, rfl, hl⟩

/-- On a calm connection nothing is ahead but what the supervisor does next. -/
theorem isAssign_of_isCalm (h : p.isCalm i = true) {m : Move} (hm : m ∈ p.movesOn i n) : m.isAssign = true := by
  obtain ⟨moves, hu, hm⟩ := mem_underway_of_movesOn hm
  simp only [isCalm, List.all_eq_true, Prod.forall, Bool.or_eq_true, decide_eq_true_eq] at h
  exact (h i moves hu).resolve_left (fun hne => hne rfl) m hm

/-- A join is late when its session is torn down and no leave is to come. -/
theorem joinsLate_eq {k : Connection} (hk : p.client.connections[i]? = some k) (s : SessionId) :
    p.joinsLate i s = (k.isTornDown s && !p.isLeaving i) := by
  rw [joinsLate, hk]
  rfl

/-- A leave is hasty while a live session is in use. -/
theorem leavesHastily_eq {k : Connection} (hk : p.client.connections[i]? = some k) :
    p.leavesHastily i = k.liveSession?.isSome := by
  rw [leavesHastily, Client.liveSession?, hk]
  rfl

end Interplay

end LockService
