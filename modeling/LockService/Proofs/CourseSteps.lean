import LockService.Proofs.ConnectionSteps
import LockService.Proofs.Exchange
import LockService.Proofs.OrderlyTables

/-!
# What an event of a course does to a client

Requests leave every connection alike and keep closed tables closed (`Client.Serves`); so does whoever gives up a
session. An operation that is carried out keeps the sessions, and closes the table of each session that it drains
(`Client.Carries`). Together with the turns of supervisors that begin no operation these are the steps of a course
(`Course.advances_step`).
-/

namespace LockService

/-! ### Requests -/

namespace Client

/-- What requests do to a client: sessions and connections are as they were, and tables stay in order. -/
structure Serves (c c' : Client) : Prop where
  follows : c.Follows c'
  closed : ∀ t, (c.board.table t).closed = true → (c'.board.table t).closed = true
  tables : c.board.tables.length ≤ c'.board.tables.length
  orderly : c.board.IsOrderly → c'.board.IsOrderly
  alike : ∀ (i : Nat) (k' : Connection), c'.connections[i]? = some k' →
    ∃ k : Connection, c.connections[i]? = some k ∧ k.Alike k'

variable {c c' c'' : Client} {i : Nat} {k : Connection} {s : SessionId} {ids : List Ident}

private theorem Serves.trans (h : c.Serves c') (h' : c'.Serves c'') : c.Serves c'' where
  follows := h.follows.trans h'.follows
  closed t ht := h'.closed t (h.closed t ht)
  tables := Nat.le_trans h.tables h'.tables
  orderly ho := h'.orderly (h.orderly ho)
  alike i k'' hk'' := by
    obtain ⟨k', hk', ha'⟩ := h'.alike i k'' hk''
    obtain ⟨k, hk, ha⟩ := h.alike i k' hk'
    exact ⟨k, hk, ha.trans ha'⟩

private theorem serves_of_connections_eq (hc : c'.connections = c.connections) (hl : c.board.Lasts ids c'.board)
    (ho : c.board.IsOrderly → c'.board.IsOrderly) : c.Serves c' :=
  ⟨.of_connections_eq hc, hl.closed, hl.tables, ho, fun _ k' hk' => ⟨k', hc ▸ hk', .refl k'⟩⟩

private theorem Serves.refl (c : Client) : c.Serves c := serves_of_connections_eq rfl (.refl _) id

private theorem serves_changeSession (c : Client) (i : Nat) (s : SessionId) {f : Session → Session}
    (htable : ∀ session, (f session).table = session.table)
    (htorn : ∀ session, (f session).tornDown = session.tornDown) :
    c.Serves (c.change i fun k => k.changeSession s f) where
  follows := follows_changeSession c i s htable fun session h => (htorn session).trans h
  closed _ h := h
  tables := Nat.le_refl _
  orderly h := h
  alike j k' hk' := by
    rw [getElem?_connections_change] at hk'
    split at hk'
    · obtain ⟨k, hk, rfl⟩ := Option.map_eq_some_iff.mp hk'
      exact ⟨k, hk, k.alike_changeSession s htorn⟩
    · exact ⟨k', hk', .refl k'⟩

private theorem serves_enter (c : Client) (now i : Nat) (s : SessionId) (session : Session) (request : Request)
    (manner : Manner) : c.Serves (c.enter now i s session request manner).2 := by
  have hboard : ∀ {ids b}, c.board.Lasts ids b → (c.board.IsOrderly → b.IsOrderly) →
      c.Serves ({ c with board := b } : Client) := fun hl ho => serves_of_connections_eq rfl hl ho
  have hwrite : ∀ c' : Client, c'.Serves (c'.orderWrite i s request) := fun c' =>
    serves_changeSession c' i s (fun _ => rfl) fun _ => rfl
  cases manner with
  | awaited =>
    have hs := hboard (Switchboard.lasts_await c.board session.table request.requestId (c.bound request))
      fun ho => ho.await _ _ _
    simp only [enter, sendOn]
    rcases hw : c.board.await session.table request.requestId (c.bound request) with ⟨_ | a, b⟩
    · rw [hw] at hs
      exact hs
    · rw [hw] at hs
      exact hs.trans (hwrite _)
  | callback =>
    have hs := hboard (Switchboard.lasts_deferRegistered c.board now request.requestId (c.bound request) session.table)
      fun ho => ho.deferRegistered _ _ _ _
    simp only [enter, postOn]
    rcases hd : c.board.deferRegistered now request.requestId (c.bound request) session.table with ⟨e, _ | _, b⟩
    · rw [hd] at hs
      exact hs
    · rw [hd] at hs
      exact hs.trans (hwrite _)

private theorem serves_receive (c : Client) (i : Nat) (bytes : List UInt8) : c.Serves (c.receive i bytes) := by
  rcases receive_cases c i bytes with h | ⟨k, s, session, frames, unread, -, -, -, h⟩
  · rw [h]
    exact .refl c
  · rw [h]
    have hboard : c.Serves { c with board := c.board.receiveFrames session.table frames } :=
      serves_of_connections_eq rfl (Switchboard.lasts_receiveFrames frames session.table c.board)
        fun ho => ho.receiveFrames _ _
    exact hboard.trans (serves_changeSession _ i s (fun _ => rfl) fun _ => rfl)

private theorem serves_write (c : Client) (i : Nat) (s : SessionId) (n : Nat) : c.Serves (c.write i s n) := by
  refine serves_changeSession c i s (fun session => ?_) fun session => ?_
  · split <;> rfl
  · split <;> rfl

private theorem serves_failWrite (c : Client) (i : Nat) (s : SessionId) (n : Nat) (reason : String) :
    c.Serves (c.failWrite i s n reason) := by
  rcases failWrite_cases c i s n reason with h | ⟨session, request, hc, hb⟩
  · rw [h]
    exact .refl c
  · have hchange := serves_changeSession c i s (f := fun session =>
      { session with outbox := session.outbox.eraseIdx n, cancelled := true }) (fun _ => rfl) fun _ => rfl
    have hl := Switchboard.lasts_take c.board session.table request.requestId
    have ho : c.board.IsOrderly → (c.board.take session.table request.requestId).2.IsOrderly := fun ho => ho.take _ _
    have hboard : c.board.Lasts [] (c.failWrite i s n reason).board ∧
        (c.board.IsOrderly → (c.failWrite i s n reason).board.IsOrderly) := by
      rw [hb]
      split
      · rename_i p b ht
        rw [ht] at hl ho
        exact ⟨hl.trans (Switchboard.lasts_resolve _ _ p), fun h => (ho h).resolve _ p⟩
      · rename_i b ht
        rw [ht] at hl ho
        exact ⟨hl, ho⟩
    exact hchange.trans (serves_of_connections_eq hc hboard.1 hboard.2)

private theorem serves_disconnect (c : Client) (i : Nat) : c.Serves (c.disconnect i) := by
  unfold disconnect
  split
  · exact serves_changeSession c i _ (fun _ => rfl) fun _ => rfl
  · exact .refl c

end Client

/-! ### Operations -/

/-- What moves that are made on a connection do to sessions and tables. -/
structure Client.Carries (c : Client) (i : Nat) (made : List Move) (c' : Client) : Prop where
  follows : c.Follows c'
  lasts : c.board.Lasts [] c'.board
  orderly : c.board.IsOrderly → c'.board.IsOrderly
  drained : ∀ s t, .drain s ∈ made → c.table? i s = some t → t < c.board.tables.length →
    (c'.board.table t).closed = true

namespace Move

private theorem carries_make (c : Client) (i : Nat) (m : Move) : c.Carries i [m] (m.make c i).2 := by
  by_cases hm : ∃ s, m = .drain s
  · obtain ⟨s, rfl⟩ := hm
    have hfollows := follows_make c i (.drain s)
    rcases Client.drain_cases c i s with ⟨hsame, hnone⟩ | ⟨session, hs, hdrain⟩
    · refine ⟨hfollows, ?_, ?_, ?_⟩
      · rw [show (make c i (.drain s)).2 = c from hsame]
        exact .refl _
      · rw [show (make c i (.drain s)).2 = c from hsame]
        exact id
      · intro s' t hs' ht
        cases List.mem_singleton.mp hs'
        rw [Client.table?, hnone] at ht
        cases ht
    · have hboard : (make c i (.drain s)).2.board = (c.board.drainWith session.table (.error .connectionClosed)).2 :=
        congrArg Client.board hdrain
      refine ⟨hfollows, ?_, ?_, ?_⟩
      · rw [hboard]
        exact Switchboard.lasts_drainWith _ _ _
      · rw [hboard]
        exact fun ho => ho.drainWith _ _
      · intro s' t hs' ht hlt
        cases List.mem_singleton.mp hs'
        cases (Client.table?_of_session? hs).symm.trans ht
        rw [hboard]
        exact Switchboard.closed_drainWith hlt _
  · have hboard := board_make c i (m := m) fun s hs => hm ⟨s, hs⟩
    refine ⟨follows_make c i m, ?_, ?_, fun s t hs => ?_⟩
    · rw [hboard]
      exact .refl _
    · rw [hboard]
      exact id
    · cases hm ⟨s, (List.mem_singleton.mp hs).symm⟩

private theorem carries_carryOut (c : Client) (i : Nat) (moves : List Move) :
    c.Carries i (carryOut c i moves).1 (carryOut c i moves).2 := by
  have nil : ∀ c : Client, c.Carries i [] c := fun c =>
    ⟨.refl c, .refl _, id, fun _ _ hs => absurd hs List.not_mem_nil⟩
  have all : ∀ (n : Nat) (moves : List Move) (c : Client),
      c.Carries i (makeUpTo c i n moves).1 (makeUpTo c i n moves).2 := by
    intro n
    induction n with
    | zero => exact fun _ c => nil c
    | succ n ih =>
      intro moves c
      cases moves with
      | nil => exact nil c
      | cons m rest =>
        have hm := carries_make c i m
        have hrest := ih ((m.make c i).1 ++ rest) (m.make c i).2
        refine ⟨hm.follows.trans hrest.follows, hm.lasts.trans hrest.lasts, fun ho => hrest.orderly (hm.orderly ho),
          ?_⟩
        intro s t hs ht hlt
        rcases List.mem_cons.mp hs with rfl | hs
        · exact hrest.lasts.closed t (hm.drained s t (List.mem_singleton_self _) ht hlt)
        · exact hrest.drained s t hs ((hm.follows.table i s).trans ht) (Nat.lt_of_lt_of_le hlt hm.lasts.tables)
  exact all _ moves c

end Move

/-! ### Steps of a course -/

namespace Course

variable {x x' x'' : Course} {i j : Nat} {k k' : Connection}

theorem movesOn_append (c : Client) (sent : List Sent) (made new : List (Nat × Move)) (i : Nat) :
    movesOn ⟨c, sent, made ++ new⟩ i = movesOn ⟨c, sent, made⟩ i ++ movesOn ⟨c, sent, new⟩ i := List.filterMap_append

theorem movesOn_map (c : Client) (sent : List Sent) (moves : List Move) (i j : Nat) :
    movesOn ⟨c, sent, moves.map (i, ·)⟩ j = if i = j then moves else [] := by
  unfold movesOn
  rw [List.filterMap_map]
  split
  · rename_i h
    simp [h]
  · rename_i h
    simp [h]

/-- A course with another client, and no move made. -/
def becoming (x : Course) (c : Client) : Course := { x with client := c, made := x.made ++ [] }

/-- A course after moves on a connection, carried out from a client on. -/
def carrying (x : Course) (c : Client) (i : Nat) (moves : List Move) : Course :=
  { x with client := (Move.carryOut c i moves).2, made := x.made ++ (Move.carryOut c i moves).1.map (i, ·) }

/-- What an event of supervisors and owners does to a course. -/
inductive Plays (x : Course) : Interplay.Event → Course → Prop where
  | skips {e : Interplay.Event} (ht : ∀ i t, e = .turn i t → x.client.turn i t = none)
    (hc : ∀ i, e = .close i → x.client.connections[i]? = none) (hd : ∀ i, e ≠ .disconnect i) :
    x.Plays e (x.becoming x.client)
  /-- A turn of a supervisor with which no operation begins. -/
  | turns {i : Nat} {t : Client.Turn} {k : Connection} {c : Client} (hk : x.client.connections[i]? = some k)
    (ht : x.client.turn i t = some c) (hgo : t = .goLive → ∀ s, k.supervisor ≠ .engaged s)
    (htear : t = .teardown → ∀ s last, k.supervisor ≠ .leaving s last) : x.Plays (.turn i t) (x.becoming c)
  | goesLive {i : Nat} {k : Connection} {s : SessionId} (hk : x.client.connections[i]? = some k)
    (hv : k.supervisor = .engaged s) : x.Plays (.turn i .goLive)
      (x.carrying (x.client.assign i .busy) i (Move.goingLive s ++ [.assign (.checking s)]))
  | tearsDown {i : Nat} {k : Connection} {s : SessionId} {last : Bool} (hk : x.client.connections[i]? = some k)
    (hv : k.supervisor = .leaving s last) : x.Plays (.turn i .teardown)
      (x.carrying (x.client.assign i .busy) i (Move.teardown s ++ Move.parting last))
  | closes {i : Nat} {k : Connection} (hk : x.client.connections[i]? = some k) :
    x.Plays (.close i) (x.carrying x.client i Move.closing)
  | disconnects {i : Nat} : x.Plays (.disconnect i) (x.becoming (x.client.disconnect i))

private theorem step_play_of_none {x : Course} {e : Interplay.Event} (h : x.exchange.play.step e = none) :
    x.step (.play e) = x.becoming x.client := by
  simp only [step, Exchange.step, h]
  rfl

private theorem step_play_of_some {x : Course} {e : Interplay.Event} {p : Interplay}
    (h : x.exchange.play.step e = some p) : x.step (.play e) = ⟨p.finish.2, x.sent, x.made ++ p.finish.1⟩ := by
  simp only [step, Exchange.step, h]
  rfl

/-- A turn that cannot be taken is skipped; of the others, going live and teardown are carried out to their end. -/
private theorem plays_turn (x : Course) (i : Nat) (t : Client.Turn) :
    x.Plays (.turn i t) (x.step (.play (.turn i t))) := by
  cases hk : x.client.connections[i]? with
  | none =>
    rw [step_play_of_none (by simp [Interplay.step, exchange, hk])]
    refine .skips (fun i' t' he => ?_) (by simp) (by simp)
    cases he
    simp [Client.turn, hk]
  | some k =>
    cases hp : x.exchange.play.step (.turn i t) with
    | none =>
      rw [step_play_of_none hp]
      refine .skips (fun i' t' he => ?_) (by simp) (by simp)
      cases he
      simp only [Interplay.step, exchange, hk, Option.bind_eq_bind, Option.bind_some] at hp
      split at hp
      case h_4 => exact Option.map_eq_none_iff.mp hp
      all_goals cases hp
    | some p =>
      rw [step_play_of_some hp]
      simp only [Interplay.step, exchange, hk, Option.bind_eq_bind, Option.bind_some] at hp
      split at hp
      case h_1 s hv =>
        cases hp
        exact .goesLive hk hv
      case h_2 s hv =>
        cases hp
        exact .tearsDown hk hv
      case h_3 s hv =>
        cases hp
        exact .tearsDown hk hv
      case h_4 hgo hlast hleave =>
        obtain ⟨c, ht, rfl⟩ := Option.map_eq_some_iff.mp hp
        refine .turns hk ht (fun he s hv => hgo s he hv) fun he s last hv => ?_
        cases last with
        | false => exact hlast s he hv
        | true => exact hleave s he hv

private theorem plays_close (x : Course) (i : Nat) : x.Plays (.close i) (x.step (.play (.close i))) := by
  cases hk : x.client.connections[i]? with
  | none =>
    have hle := List.getElem?_eq_none_iff.mp hk
    have hp : x.exchange.play.step (.close i) = none := if_neg (Nat.not_lt.mpr hle)
    rw [step_play_of_none hp]
    refine .skips (by simp) (fun i' he => ?_) (by simp)
    cases he
    exact hk
  | some k =>
    obtain ⟨hlt, -⟩ := List.getElem?_eq_some_iff.mp hk
    have hp : x.exchange.play.step (.close i) = some (x.exchange.play.begin i Move.closing) := if_pos hlt
    rw [step_play_of_some hp]
    exact .closes hk

/-- Every event on the connections is skipped, is a single turn, or is an operation carried out to its end. -/
theorem plays_step (x : Course) (e : Interplay.Event) : x.Plays e (x.step (.play e)) := by
  cases e with
  | turn i t => exact x.plays_turn i t
  | close i => exact x.plays_close i
  | disconnect i => exact .disconnects
  | move n =>
    rw [step_play_of_none rfl]
    exact .skips (by simp) (by simp) (by simp)

/-- Closing a connection carries out all moves of a close. -/
theorem step_close (hk : x.client.connections[i]? = some k) :
    x.step (.play (.close i)) = x.carrying x.client i Move.closing := by
  have hplays := plays_step x (.close i)
  generalize x.step (.play (.close i)) = x' at hplays ⊢
  cases hplays with
  | skips _ hc => cases hk.symm.trans (hc i rfl)
  | closes => rfl

/-! ### What a step keeps -/

/-- What a step of a course does. -/
structure Advances (x x' : Course) : Prop where
  grows : x.client.Grows x'.client
  closed : ∀ t, (x.client.board.table t).closed = true → (x'.client.board.table t).closed = true
  tables : x.client.board.tables.length ≤ x'.client.board.tables.length
  orderly : x.client.board.IsOrderly → x'.client.board.IsOrderly
  passes : ∀ (i : Nat) (k' : Connection), x'.client.connections[i]? = some k' →
    ∃ (k : Connection) (moves : List Move), x.client.connections[i]? = some k ∧
      x'.movesOn i = x.movesOn i ++ moves ∧ k.Passes moves k' ∧ (x.client.Separate →
        ∀ s t, .drain s ∈ moves → x'.client.table? i s = some t → (x'.client.board.table t).closed = true)

private theorem advances_of_serves {c : Client} (h : x.client.Serves c) (sent : List Sent) :
    x.Advances { x.becoming c with sent } where
  grows := h.follows.grows
  closed := h.closed
  tables := h.tables
  orderly := h.orderly
  passes i k' hk' := by
    obtain ⟨k, hk, ha⟩ := h.alike i k' hk'
    exact ⟨k, [], hk, movesOn_append c sent x.made [] i, .alike ha, fun _ _ _ hs => absurd hs List.not_mem_nil⟩

/-- A turn of a supervisor with which no operation begins. -/
theorem advances_of_turn {c : Client} {t : Client.Turn} (hk : x.client.connections[i]? = some k)
    (ht : x.client.turn i t = some c) (hgo : t = .goLive → ∀ s, k.supervisor ≠ .engaged s)
    (htear : t = .teardown → ∀ s last, k.supervisor ≠ .leaving s last) : x.Advances (x.becoming c) := by
  obtain ⟨k₁, hb, hturns⟩ := Client.becomes_turn hk ht hgo htear
  obtain ⟨hgrows, hboard⟩ := Client.grows_turn hk ht htear
  have hlasts : x.client.board.Lasts [] c.board := by
    rcases hboard with h | h <;> rw [h]
    · exact .refl _
    · exact Switchboard.lasts_newTable _
  have horderly : x.client.board.IsOrderly → c.board.IsOrderly := by
    intro ho
    rcases hboard with h | h <;> rw [h]
    · exact ho
    · exact ho.newTable
  refine ⟨hgrows, hlasts.closed, hlasts.tables, horderly, fun j k' hk' => ?_⟩
  have hmoves := movesOn_append c x.sent x.made [] j
  have hnone : x.client.Separate → ∀ s t, .drain s ∈ ([] : List Move) → c.table? j s = some t →
      (c.board.table t).closed = true := fun _ _ _ hs => absurd hs List.not_mem_nil
  by_cases hj : j = i
  · subst hj
    cases hb.here.symm.trans hk'
    exact ⟨k, [], hk, hmoves, .turns hturns, hnone⟩
  · exact ⟨k', [], (hb.others j hj).symm.trans hk', hmoves, .alike (.refl k'), hnone⟩

/-- An operation that begins and is carried out. -/
theorem advances_of_begins {c : Client} {k₁ : Connection} {moves : List Move}
    (hk : x.client.connections[i]? = some k) (hbegins : k.Begins k₁ moves) (hb : x.client.Becomes c i k₁)
    (hfollows : x.client.Follows c) (hboard : c.board = x.client.board) : x.Advances (x.carrying c i moves) := by
  have hcarries := Move.carries_carryOut c i moves
  obtain ⟨hmade, hend⟩ := Move.getElem?_connections_carryOut hb.here moves
  have hlasts : x.client.board.Lasts [] (Move.carryOut c i moves).2.board := hboard ▸ hcarries.lasts
  refine ⟨(hfollows.trans hcarries.follows).grows, hlasts.closed, hlasts.tables, ?_, ?_⟩
  · exact fun ho => hcarries.orderly (hboard ▸ ho)
  · intro j k' hk'
    have hmoves := movesOn_append (Move.carryOut c i moves).2 x.sent x.made
      ((Move.carryOut c i moves).1.map (i, ·)) j
    rw [movesOn_map] at hmoves
    by_cases hj : j = i
    · subst hj
      cases hend.symm.trans hk'
      rw [if_pos rfl] at hmoves
      refine ⟨k, (Move.carryOut c j moves).1, hk, hmoves, ?_, ?_⟩
      · rw [hmade]
        exact .carriesOut hbegins
      · intro hseparate s t hs ht
        have ht' : c.table? j s = some t := (hcarries.follows.table j s).symm.trans ht
        have hlt := hseparate.placed j s t ((hfollows.table j s).symm.trans ht')
        exact hcarries.drained s t hs ht' (hboard ▸ hlt)
    · rw [if_neg (Ne.symm hj)] at hmoves
      have hk' : x.client.connections[j]? = some k' := by
        rw [← hb.others j hj, ← hk']
        exact (Move.getElem?_connections_carryOut_of_ne hj moves).symm
      exact ⟨k', [], hk', hmoves, .alike (.refl k'), fun _ _ _ hs => absurd hs List.not_mem_nil⟩

private theorem advances_play (x : Course) (e : Interplay.Event) : x.Advances (x.step (.play e)) := by
  have busy : ∀ {i : Nat} {k : Connection}, x.client.connections[i]? = some k →
      x.client.Becomes (x.client.assign i .busy) i { k with supervisor := .busy } := fun hk =>
    Client.becomes_change hk fun k => { k with supervisor := .busy }
  have hplays := plays_step x e
  generalize x.step (.play e) = x' at hplays ⊢
  cases hplays with
  | skips => exact advances_of_serves (.refl _) x.sent
  | turns hk ht hgo htear => exact advances_of_turn hk ht hgo htear
  | goesLive hk hv => exact advances_of_begins hk (.goesLive hv) (busy hk) (Client.follows_assign _ _ _) rfl
  | tearsDown hk hv => exact advances_of_begins hk (.tearsDown hv) (busy hk) (Client.follows_assign _ _ _) rfl
  | closes hk => exact advances_of_begins hk .closes (Client.becomes_refl hk) (.refl _) rfl
  | disconnects => exact advances_of_serves (Client.serves_disconnect _ _) x.sent

/-- Whatever happens in a course, these are its steps. -/
theorem advances_step (x : Course) (e : Exchange.Event) : x.Advances (x.step e) := by
  have serves : ∀ {c : Client}, (x.exchange.step e).play = { client := c } → x.client.Serves c →
      x.Advances (x.step e) := by
    intro c h hs
    have hstep : x.step e = { x.becoming c with sent := (x.exchange.step e).sent } := by
      simp only [step, h]
      rfl
    rw [hstep]
    exact advances_of_serves hs _
  cases e with
  | play e => exact advances_play x e
  | send i request manner =>
    refine serves ?_ (.refl _)
    simp only [Exchange.step, Exchange.send]
    split <;> rfl
  | enter n now =>
    cases hu : x.exchange.underway? n with
    | none =>
      refine serves ?_ (.refl _)
      simp only [Exchange.step, Exchange.enter, hu]
      rfl
    | some found =>
      obtain ⟨r, s, session⟩ := found
      refine serves ?_ (Client.serves_enter x.client now r.connection s session r.request r.manner)
      simp only [Exchange.step, Exchange.enter, hu]
      rfl
  | receive i bytes => exact serves rfl (Client.serves_receive _ i bytes)
  | timeOut n =>
    have hboard : ∀ a, x.client.Serves { x.client with board := x.client.board.timeOut a } := fun a =>
      Client.serves_of_connections_eq rfl (Switchboard.lasts_timeOut _ a) fun ho => ho.timeOut a
    have hcases : (x.exchange.timeOut n).play = { client := x.client } ∨
        ∃ a, (x.exchange.timeOut n).play = { client := { x.client with board := x.client.board.timeOut a } } := by
      unfold Exchange.timeOut
      split
      · rename_i a _
        split
        · exact .inr ⟨a, rfl⟩
        · exact .inl rfl
      · exact .inl rfl
    rcases hcases with h | ⟨a, h⟩
    · exact serves h (.refl _)
    · exact serves h (hboard a)
  | expireDue second =>
    have hboard : x.client.Serves { x.client with board := (x.client.board.expireDue second).2 } :=
      Client.serves_of_connections_eq rfl (Switchboard.lasts_expireDue _ second) fun ho => ho.expireDue second
    exact serves rfl hboard
  | write i s n => exact serves rfl (Client.serves_write _ i s n)
  | failWrite i s n reason => exact serves rfl (Client.serves_failWrite _ i s n reason)

end Course

end LockService
