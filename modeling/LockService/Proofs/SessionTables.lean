import LockService.Client.Exchange
import LockService.Proofs.Lasting
import LockService.Proofs.Sessions

/-!
# Every session has a table of its own

A session keeps its table, and once it is torn down it stays torn down (`Client.Grows`); a new session gets a new
table. So no two sessions of a client share a table (`Client.Separate`).
-/

namespace LockService

namespace Client

/-- The table of a session. -/
def table? (c : Client) (i : Nat) (s : SessionId) : Option TableId := (c.session? i s).map (·.table)

theorem table?_of_session? {c : Client} {i : Nat} {s : SessionId} {session : Session}
    (h : c.session? i s = some session) : c.table? i s = some session.table := congrArg (Option.map Session.table) h

/-- Whether a session exists and was torn down. -/
def wasTornDown (c : Client) (i : Nat) (s : SessionId) : Bool := ((c.session? i s).map (·.tornDown)).getD false

/-- Sessions are what they were, and none has come. -/
structure Follows (c c' : Client) : Prop where
  table : ∀ i s, c'.table? i s = c.table? i s
  torn : ∀ i s, c.wasTornDown i s = true → c'.wasTornDown i s = true

/-- Sessions are what they were, and at most one has come, with a new table. -/
structure Grows (c c' : Client) : Prop where
  kept : ∀ i s t, c.table? i s = some t → c'.table? i s = some t
  torn : ∀ i s, c.wasTornDown i s = true → c'.wasTornDown i s = true
  fresh : ∀ i s t, c'.table? i s = some t →
    c.table? i s = some t ∨ (t = c.board.tables.length ∧ t < c'.board.tables.length)
  once : ∀ i s i' s', c.table? i s = none → c.table? i' s' = none → c'.table? i s ≠ none → c'.table? i' s' ≠ none →
    i = i' ∧ s = s'

/-- No two sessions share a table. -/
structure Separate (c : Client) : Prop where
  placed : ∀ i s t, c.table? i s = some t → t < c.board.tables.length
  apart : ∀ i s i' s' t, c.table? i s = some t → c.table? i' s' = some t → i = i' ∧ s = s'

variable {c c' c'' : Client} {i : Nat} {k : Connection} {s : SessionId}

theorem Follows.refl (c : Client) : c.Follows c := ⟨fun _ _ => rfl, fun _ _ h => h⟩

theorem Follows.trans (h : c.Follows c') (h' : c'.Follows c'') : c.Follows c'' where
  table i s := (h'.table i s).trans (h.table i s)
  torn i s ht := h'.torn i s (h.torn i s ht)

theorem Follows.grows (h : c.Follows c') : c.Grows c' where
  kept i s _ ht := (h.table i s).trans ht
  torn := h.torn
  fresh i s _ ht := .inl ((h.table i s).symm.trans ht)
  once i s _ _ hn _ he _ := absurd ((h.table i s).trans hn) he

private theorem Grows.follows (h : c.Grows c') (hf : c'.Follows c'') (hb : c''.board = c'.board) : c.Grows c'' where
  kept i s t ht := (hf.table i s).trans (h.kept i s t ht)
  torn i s ht := hf.torn i s (h.torn i s ht)
  fresh i s t ht := by
    rw [hb]
    exact h.fresh i s t ((hf.table i s).symm.trans ht)
  once i s i' s' hn hn' he he' := by
    rw [hf.table] at he he'
    exact h.once i s i' s' hn hn' he he'

/-- New sessions with new tables leave all tables apart. -/
theorem Separate.grows (h : c.Separate) (hg : c.Grows c') (hl : c.board.tables.length ≤ c'.board.tables.length) :
    c'.Separate where
  placed i s t ht := by
    rcases hg.fresh i s t ht with ho | ⟨-, hn⟩
    · exact Nat.lt_of_lt_of_le (h.placed i s t ho) hl
    · exact hn
  apart i s i' s' t ht ht' := by
    -- a new table is none of the old ones, and at most one session is new
    have old : ∀ {i s}, c'.table? i s = some t → c.table? i s ≠ none → c.table? i s = some t := by
      intro i s ht hne
      obtain ⟨u, hu⟩ := Option.ne_none_iff_exists'.mp hne
      have hsame := (hg.kept i s u hu).symm.trans ht
      rw [hu, Option.some.inj hsame]
    have new : ∀ {i s}, c'.table? i s = some t → c.table? i s = none → t = c.board.tables.length := by
      intro i s ht hn
      rcases hg.fresh i s t ht with ho | ⟨he, -⟩
      · cases hn.symm.trans ho
      · exact he
    by_cases hn : c.table? i s = none <;> by_cases hn' : c.table? i' s' = none
    · exact hg.once i s i' s' hn hn' (by simp [ht]) (by simp [ht'])
    · exact absurd (new ht hn) (Nat.ne_of_lt (h.placed i' s' t (old ht' hn')))
    · exact absurd (new ht' hn') (Nat.ne_of_lt (h.placed i s t (old ht hn)))
    · exact h.apart i s i' s' t (old ht hn) (old ht' hn')

/-! ### Changes of a connection -/

theorem session?_change (c : Client) (i : Nat) (f : Connection → Connection) (j : Nat) (s : SessionId) :
    (c.change i f).session? j s =
      if i = j then (c.connections[j]?).bind fun k => (f k).sessions[s]? else c.session? j s := by
  rw [session?, getElem?_connections_change]
  split
  · cases c.connections[j]? <;> rfl
  · rfl

private theorem Follows.of_session?_eq (h : ∀ i s, c'.session? i s = c.session? i s) : c.Follows c' where
  table i s := by rw [table?, h, table?]
  torn i s ht := by rwa [wasTornDown, h]

theorem Follows.of_connections_eq (h : c'.connections = c.connections) : c.Follows c' :=
  .of_session?_eq fun i s => by rw [session?, h, session?]

private theorem follows_change (c : Client) (i : Nat) {f : Connection → Connection}
    (hf : ∀ k, (f k).sessions = k.sessions) : c.Follows (c.change i f) := by
  refine .of_session?_eq fun j s => ?_
  rw [session?_change]
  split
  · simp only [hf, session?]
  · rfl

/-- Sessions are what they were after a change that leaves their tables alone and keeps torn down what is. -/
theorem follows_changeSession (c : Client) (i : Nat) (s : SessionId) {g : Session → Session}
    (htable : ∀ session, (g session).table = session.table)
    (htorn : ∀ session, session.tornDown = true → (g session).tornDown = true) :
    c.Follows (c.change i fun k => k.changeSession s g) := by
  have hsession : ∀ j s', (c.change i fun k => k.changeSession s g).session? j s' =
      (c.session? j s').map fun session => if i = j ∧ s = s' then g session else session := by
    intro j s'
    rw [session?_change, session?]
    cases c.connections[j]? with
    | none => simp
    | some k =>
      by_cases hi : i = j
      · by_cases hs : s = s'
        · simp [hi, hs, Connection.changeSession]
        · simp [hi, hs, Connection.changeSession]
      · simp [hi]
  constructor
  · intro j s'
    rw [table?, hsession, table?]
    cases c.session? j s' with
    | none => rfl
    | some session => by_cases h : i = j ∧ s = s' <;> simp [h, htable]
  · intro j s' ht
    rw [wasTornDown] at ht ⊢
    rw [hsession]
    cases hs : c.session? j s' with
    | none => simp [hs] at ht
    | some session =>
      have ht : session.tornDown = true := by simpa [hs] using ht
      by_cases h : i = j ∧ s = s'
      · simp [h, htorn session ht]
      · simp [h, ht]

/-- The session that is opened has a new table, and all others stay. -/
private theorem session?_newSession (hk : c.connections[i]? = some k) (initType : UInt8) (unread : List UInt8)
    (j : Nat) (s : SessionId) : (c.newSession i initType unread).2.session? j s =
      if j = i ∧ s = k.sessions.length then some ⟨c.board.tables.length, initType, false, false, unread, [], []⟩
      else c.session? j s := by
  let new : Session := ⟨c.board.tables.length, initType, false, false, unread, [], []⟩
  change (Client.change { c with board := c.board.newTable.2 } i fun k =>
    { k with sessions := k.sessions ++ [new] }).session? j s = _
  rw [session?_change]
  by_cases hj : j = i
  · subst hj
    rw [if_pos rfl, hk, Option.bind_some]
    by_cases hs : s = k.sessions.length
    · simp [hs, new]
    · rw [if_neg (not_and_of_not_right _ hs), session?, hk, Option.bind_some]
      by_cases hl : s < k.sessions.length
      · exact List.getElem?_append_left hl
      · have hlt : k.sessions.length < s := Nat.lt_of_le_of_ne (Nat.le_of_not_lt hl) (Ne.symm hs)
        have hend : (k.sessions ++ [new]).length ≤ s := by
          rw [List.length_append]
          exact hlt
        rw [List.getElem?_eq_none hend, List.getElem?_eq_none (Nat.le_of_not_lt hl)]
  · rw [if_neg (Ne.symm hj), if_neg fun h => hj h.1]
    rfl

/-- Opening a session adds one table and takes none away. -/
theorem grows_newSession (hk : c.connections[i]? = some k) (initType : UInt8) (unread : List UInt8) :
    c.Grows (c.newSession i initType unread).2 := by
  have hnone : c.session? i k.sessions.length = none := by simp [session?, hk]
  have hsession := session?_newSession hk initType unread
  refine ⟨fun j s t ht => ?_, fun j s ht => ?_, fun j s t ht => ?_, fun j s j' s' hn hn' he he' => ?_⟩
  · rw [table?, hsession]
    split
    · rename_i h
      rw [table?, h.1, h.2, hnone] at ht
      cases ht
    · exact ht
  · rw [wasTornDown, hsession]
    split
    · rename_i h
      rw [wasTornDown, h.1, h.2, hnone] at ht
      cases ht
    · exact ht
  · have hlength : (c.newSession i initType unread).2.board.tables.length = c.board.tables.length + 1 := by
      simp [newSession, change, Switchboard.newTable]
    rw [table?, hsession] at ht
    split at ht
    · cases ht
      exact .inr ⟨rfl, hlength ▸ Nat.lt_succ_self _⟩
    · exact .inl ht
  · have hplace : ∀ j s, c.table? j s = none → (c.newSession i initType unread).2.table? j s ≠ none →
        j = i ∧ s = k.sessions.length := by
      intro j s hn he
      refine Decidable.byContradiction fun h => he ?_
      rw [table?, hsession, if_neg h]
      exact hn
    obtain ⟨rfl, rfl⟩ := hplace j s hn he
    obtain ⟨rfl, rfl⟩ := hplace j' s' hn' he'
    exact ⟨rfl, rfl⟩

end Client

/-! ### Moves and turns -/

namespace Move

theorem snd_make_markTornDown (c : Client) (i : Nat) (s : SessionId) :
    (make c i (.markTornDown s)).2 = (c.markTornDown i s).2 := by
  simp only [make]
  split <;> rename_i h <;> rw [h]

/-- No move gives a session another table. -/
theorem follows_make (c : Client) (i : Nat) (m : Move) : c.Follows (m.make c i).2 := by
  cases m with
  | store s => exact Client.follows_change c i fun _ => rfl
  | setPhase phase => exact Client.follows_change c i fun k => Connection.sessions_setPhase phase
  | joinLive s =>
    simp only [make, Client.joinLive]
    split <;> exact .of_connections_eq rfl
  | cancelShutdown => exact Client.follows_change c i fun _ => rfl
  | takeStored =>
    simp only [make, Client.takeStored]
    cases c.connections[i]?.bind (·.stored) <;> exact Client.follows_change c i fun _ => rfl
  | markTornDown s =>
    rw [snd_make_markTornDown, Client.markTornDown]
    split
    · split
      · exact .refl c
      · exact Client.follows_changeSession c i s (fun _ => rfl) fun _ _ => rfl
    · exact .refl c
  | cancelSession s => exact Client.follows_changeSession c i s (fun _ => rfl) fun _ ht => ht
  | clearStored s =>
    refine Client.follows_change c i fun k => ?_
    split <;> rfl
  | drain s =>
    simp only [make, Client.drain]
    split <;> exact .of_connections_eq rfl
  | leaveLive =>
    simp only [make, Client.leaveLive]
    split <;> exact .of_connections_eq rfl
  | assign supervisor => exact Client.follows_change c i fun _ => rfl

/-- Only draining a table changes the switchboard. -/
theorem board_make (c : Client) (i : Nat) {m : Move} (hm : ∀ s, m ≠ .drain s) : (m.make c i).2.board = c.board := by
  cases m with
  | joinLive s =>
    simp only [make, Client.joinLive]
    split <;> rfl
  | takeStored =>
    simp only [make, Client.takeStored]
    cases c.connections[i]?.bind (·.stored) <;> rfl
  | markTornDown s =>
    rw [snd_make_markTornDown, Client.markTornDown]
    split
    · split <;> rfl
    · rfl
  | drain s => exact absurd rfl (hm s)
  | leaveLive =>
    simp only [make, Client.leaveLive]
    split <;> rfl
  | _ => rfl

end Move

namespace Client

variable {c c' : Client} {i : Nat} {k : Connection}

theorem follows_assign (c : Client) (i : Nat) (supervisor : Supervisor) : c.Follows (c.assign i supervisor) :=
  follows_change c i fun _ => rfl

private theorem follows_setPhase (c : Client) (i : Nat) (phase : Phase) : c.Follows (c.setPhase i phase) :=
  follows_change c i fun _ => Connection.sessions_setPhase phase

/-- What a turn of a supervisor does to the sessions, unless it is a teardown: at most one begins, with a table of its
own. -/
theorem grows_turn {t : Turn} (hk : c.connections[i]? = some k) (ht : c.turn i t = some c')
    (htear : t = .teardown → ∀ s last, k.supervisor ≠ .leaving s last) :
    c.Grows c' ∧ (c'.board = c.board ∨ c'.board = c.board.newTable.2) := by
  have calm : ∀ (phase : Phase) (v : Supervisor), c.Grows ((c.setPhase i phase).assign i v) := fun phase v =>
    ((follows_setPhase c i phase).trans (follows_assign _ i v)).grows
  simp only [turn, hk, Option.bind_eq_bind, Option.bind_some] at ht
  split at ht
  case h_1 =>
    cases ht
    exact ⟨calm _ _, .inl rfl⟩
  case h_2 =>
    cases ht
    refine ⟨Follows.grows ?_, .inl rfl⟩
    have hdraw : (c.setPhase i .handshaking).Follows (c.setPhase i .handshaking).draw.2 := .of_connections_eq rfl
    exact ((follows_setPhase c i .handshaking).trans hdraw).trans (follows_assign _ i _)
  case h_3 arriving id _ =>
    split at ht
    · rename_i initType _
      cases ht
      exact ⟨(grows_newSession hk initType arriving.rest).follows (follows_assign _ i _) rfl, .inr rfl⟩
    · cases ht
      exact ⟨calm _ _, .inl rfl⟩
  case h_4 =>
    cases ht
    exact ⟨calm _ _, .inl rfl⟩
  case h_5 =>
    cases ht
    exact ⟨calm _ _, .inl rfl⟩
  case h_6 s _ =>
    cases ht
    have hstore : c.Follows (c.store i s) := follows_change c i fun _ => rfl
    have hphase := follows_setPhase (c.store i s) i .live
    have hjoin := Move.follows_make ((c.store i s).setPhase i .live) i (.joinLive s)
    have hboard := Move.board_make ((c.store i s).setPhase i .live) i (m := .joinLive s) (by simp)
    exact ⟨(((hstore.trans hphase).trans hjoin).trans (follows_assign _ i _)).grows, .inl hboard⟩
  case h_7 =>
    cases ht
    exact ⟨(follows_assign c i _).grows, .inl rfl⟩
  case h_8 =>
    cases ht
    exact ⟨(follows_assign c i _).grows, .inl rfl⟩
  case h_9 s hv => exact absurd hv (htear rfl s false)
  case h_10 s hv => exact absurd hv (htear rfl s true)
  case h_14 => cases ht
  all_goals
    split at ht
    · cases ht
      exact ⟨calm _ _, .inl rfl⟩
    · cases ht

theorem session?_of_liveSession? {s : SessionId} {session : Session} (h : c.liveSession? i = some (s, session)) :
    c.session? i s = some session := by
  unfold liveSession? Connection.liveSession? at h
  unfold session?
  simp only [Option.bind_eq_bind, Option.bind_eq_some_iff] at h ⊢
  obtain ⟨k, hk, s', -, session', hs, h⟩ := h
  split at h
  · cases h
  · cases h
    exact ⟨k, hk, hs⟩

theorem board_start {config : Config} {replicated : Bool} {ids : IdSource} (hc : start config replicated ids = .ok c) :
    c.board = {} := by
  simp only [start] at hc
  split at hc
  · cases hc
  · split at hc <;> split at hc <;> cases hc <;> rfl

/-- Draining a session fails all that is pending in its table with a closed connection. -/
theorem drain_cases (c : Client) (i : Nat) (s : SessionId) : (c.drain i s = c ∧ c.session? i s = none) ∨
    ∃ session, c.session? i s = some session ∧
      c.drain i s = { c with board := (c.board.drainWith session.table (.error .connectionClosed)).2 } := by
  unfold drain
  split
  · rename_i session hs
    exact .inr ⟨session, hs, rfl⟩
  · rename_i hs
    exact .inl ⟨rfl, hs⟩

/-! ### Requests -/

theorem follows_orderWrite (c : Client) (i : Nat) (s : SessionId) (request : Request) :
    c.Follows (c.orderWrite i s request) :=
  follows_changeSession c i s (fun _ => rfl) fun _ ht => ht

theorem follows_write (c : Client) (i : Nat) (s : SessionId) (n : Nat) : c.Follows (c.write i s n) := by
  refine follows_changeSession c i s (fun session => ?_) fun session ht => ?_
  · split <;> rfl
  · split <;> exact ht

/-- Bytes are read only by a supervisor that reads, and then the frames in them go to its session's table. -/
theorem receive_cases (c : Client) (i : Nat) (bytes : List UInt8) : c.receive i bytes = c ∨
    ∃ k s session frames unread, c.connections[i]? = some k ∧ k.supervisor = .reading s ∧
      k.sessions[s]? = some session ∧
      c.receive i bytes = ({ c with board := c.board.receiveFrames session.table frames } : Client).change i fun k =>
        k.changeSession s fun session => { session with unread } := by
  unfold receive
  split
  · exact .inl rfl
  · rename_i k hk
    split
    · rename_i s hv
      split
      · exact .inl rfl
      · rename_i session hs
        exact .inr ⟨k, s, session, _, _, hk, hv, hs, rfl⟩
    · exact .inl rfl

theorem follows_receive (c : Client) (i : Nat) (bytes : List UInt8) : c.Follows (c.receive i bytes) := by
  rcases receive_cases c i bytes with h | ⟨k, s, session, frames, unread, -, -, -, h⟩
  · rw [h]
    exact .refl c
  · rw [h]
    have hboard : c.Follows { c with board := c.board.receiveFrames session.table frames } := .of_connections_eq rfl
    exact hboard.trans (follows_changeSession _ i s (fun _ => rfl) fun _ ht => ht)

/-- A write that fails takes its request off the outbox and ends it with the failure. -/
theorem failWrite_cases (c : Client) (i : Nat) (s : SessionId) (n : Nat) (reason : String) :
    c.failWrite i s n reason = c ∨ ∃ (session : Session) (request : Request), (c.failWrite i s n reason).connections =
        (c.change i fun k => k.changeSession s fun session =>
          { session with outbox := session.outbox.eraseIdx n, cancelled := true }).connections ∧
      (c.failWrite i s n reason).board = match c.board.take session.table request.requestId with
        | (some pending, board) => board.resolve (.error (.write reason)) pending
        | (none, board) => board := by
  unfold failWrite
  split
  · exact .inl rfl
  · rename_i session _
    split
    · exact .inl rfl
    · rename_i request _
      have hboard : ∀ f, (c.change i f).board = c.board := fun _ => rfl
      refine .inr ⟨session, request, ?_⟩
      rcases htake : c.board.take session.table request.requestId with ⟨_ | p, b⟩ <;>
        simp only [hboard, htake, and_self]

theorem follows_failWrite (c : Client) (i : Nat) (s : SessionId) (n : Nat) (reason : String) :
    c.Follows (c.failWrite i s n reason) := by
  rcases failWrite_cases c i s n reason with h | ⟨session, request, h, -⟩
  · rw [h]
    exact .refl c
  · refine Follows.trans ?_ (.of_connections_eq h)
    exact follows_changeSession c i s (fun _ => rfl) fun _ ht => ht

end Client

end LockService
