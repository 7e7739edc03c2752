import LockService.Client.Inflow
import LockService.Proofs.LifeCycle
import LockService.Proofs.OneGo

/-!
# The first answer decides

Listening piece by piece leaves no byte out, and hears a whole frame just if the frame comes in time
(`Inflow.heard_of_arrives`, `heard_of_not_arrives`). The frame decides whether the connection goes live
(`Course.first_answer_decides`): it does so with the type that the frame announces and reads on right behind it, or it
stays down and nobody is notified.
-/

namespace LockService

namespace Inflow

variable {a : Inflow} {limit : Nat} {id : Ident} {silence : Option Nat} {got : List UInt8}
  {pieces : List (Nat × List UInt8)}

/-! ### Listening -/

private theorem isWithin_map_add (limit delay : Nat) (moment : Option Nat) :
    isWithin limit (moment.map (delay + ·)) = isWithin (limit - delay) moment := by
  cases moment with
  | none => rfl
  | some t =>
    show decide (delay + t < limit) = decide (t < limit - delay)
    exact decide_eq_decide.mpr (by omega)

private theorem not_isWithin_map_add {delay : Nat} (h : limit ≤ delay) (moment : Option Nat) :
    isWithin limit (moment.map (delay + ·)) = false := by
  rw [isWithin_map_add, Nat.sub_eq_zero_of_le h]
  cases moment <;> rfl

/-- The rest of a frame that a piece does not complete arrives with the other pieces. -/
private theorem arrivalIn_cons {delay n : Nat} {piece : List UInt8} (hn : 0 < n) (rest : List (Nat × List UInt8)) :
    arrivalIn ((delay, piece) :: rest) n = (arrivalIn rest (n - piece.length)).map (delay + ·) := by
  obtain ⟨m, rfl⟩ := Nat.exists_eq_succ_of_ne_zero (Nat.ne_of_gt hn)
  rfl

/-- No byte is left out between what is heard and what comes later. -/
private theorem listen_append (silence : Option Nat) (limit : Nat) (got : List UInt8)
    (pieces : List (Nat × List UInt8)) :
    (listen silence limit got pieces).1.bytes ++ (listen silence limit got pieces).2.flatMap (·.2) =
      got ++ pieces.flatMap (·.2) := by
  induction pieces generalizing limit got with
  | nil => rfl
  | cons timed rest ih =>
    rw [listen]
    split
    · rfl
    · rw [List.flatMap_cons, ← List.append_assoc]
      split
      · rfl
      · exact ih _ _

/-- If the missing bytes come in time, a whole frame is heard. -/
theorem listen_of_arrives (hgot : got.length < frameSize)
    (h : isWithin limit (arrivalIn pieces (frameSize - got.length)) = true) :
    frameSize ≤ (listen silence limit got pieces).1.bytes.length := by
  induction pieces generalizing limit got with
  | nil =>
    obtain ⟨m, hm⟩ := Nat.exists_eq_succ_of_ne_zero (Nat.sub_ne_zero_of_lt hgot)
    rw [hm] at h
    cases h
  | cons timed rest ih =>
    obtain ⟨delay, piece⟩ := timed
    rw [arrivalIn_cons (Nat.sub_pos_of_lt hgot)] at h
    have hdelay : ¬ limit ≤ delay := fun hle => by
      rw [not_isWithin_map_add hle] at h
      cases h
    rw [isWithin_map_add, Nat.sub_sub, ← List.length_append] at h
    rw [listen, if_neg hdelay]
    split
    · next hfull => exact hfull
    · next hpart => exact ih (Nat.lt_of_not_le hpart) h

/-- If they do not, less than a frame is heard, and the end of the stream is noticed if it comes in time. -/
theorem listen_of_not_arrives (hgot : got.length < frameSize)
    (h : isWithin limit (arrivalIn pieces (frameSize - got.length)) = false) :
    (listen silence limit got pieces).1.bytes.length < frameSize ∧
      ((listen silence limit got pieces).1.ended = true ↔ (got ++ pieces.flatMap (·.2)).length < frameSize ∧
        isWithin limit (silence.map (duration pieces + ·)) = true) := by
  induction pieces generalizing limit got with
  | nil =>
    have hsame : silence.map (0 + ·) = silence := by
      simp only [Nat.zero_add, Option.map_id']
    refine ⟨hgot, ?_⟩
    simp only [List.flatMap_nil, List.append_nil, duration, hsame]
    exact (and_iff_right hgot).symm
  | cons timed rest ih =>
    obtain ⟨delay, piece⟩ := timed
    have hend : silence.map (duration ((delay, piece) :: rest) + ·) =
        (silence.map (duration rest + ·)).map (delay + ·) := by
      simp only [duration, Option.map_map, Function.comp_def, Nat.add_assoc]
    rw [hend, listen]
    split
    · next hle =>
      rw [not_isWithin_map_add hle]
      exact ⟨hgot, by simp⟩
    · next hdelay =>
      rw [arrivalIn_cons (Nat.sub_pos_of_lt hgot), isWithin_map_add, Nat.sub_sub, ← List.length_append] at h
      rw [isWithin_map_add, List.flatMap_cons, ← List.append_assoc]
      split
      · next hfull =>
        rw [Nat.sub_eq_zero_of_le hfull] at h
        have hlt : 0 < limit - delay := by omega
        exact absurd h (by simp [isWithin, arrivalIn, hlt])
      · next hpart => exact ih (Nat.lt_of_not_le hpart) h

private theorem heard_append_later (a : Inflow) (limit : Nat) : (a.heard limit).bytes ++ a.later limit = a.bytes :=
  listen_append a.silence limit [] a.pieces

/-- A frame that is complete within the limit has been heard when the limit is over. -/
theorem heard_of_arrives (h : isWithin limit (a.arrival? frameSize) = true) :
    frameSize ≤ (a.heard limit).bytes.length :=
  listen_of_arrives (show ([] : List UInt8).length < frameSize by decide) h

/-- Otherwise less than a frame has been heard, and the end only if the stream ended within the limit. -/
theorem heard_of_not_arrives (h : isWithin limit (a.arrival? frameSize) = false) :
    (a.heard limit).bytes.length < frameSize ∧ ((a.heard limit).ended = true ↔ a.EndsEarly limit) :=
  listen_of_not_arrives (show ([] : List UInt8).length < frameSize by decide) h

/-! ### The decision -/

/-- What a first answer means to whoever has introduced itself as `id`. -/
def meaning (id : Ident) : Except FrameFault Reply → Outcome UInt8
  | .error fault => .error (.protocol fault)
  | .ok (.init reply) =>
    if reply.requestId ≠ id then .error (.handshake .otherRequest)
    else if reply.result ≠ ResultCode.success then .error (.handshake (.refused reply.result))
    else .ok reply.initType
  | .ok reply => .error (.handshake (.notInit reply))

private theorem opening_of_length_le {arriving : Arriving} (h : frameSize ≤ arriving.bytes.length) :
    arriving.opening id = meaning id (Reply.decode (arriving.bytes.take frameSize)) := by
  rw [Arriving.opening, if_neg (Nat.not_lt.mpr h)]
  rfl

/-- Less than a frame is an error: the stream ended early, or there was no answer. -/
private theorem opening_of_length_lt {arriving : Arriving} (h : arriving.bytes.length < frameSize) :
    arriving.opening id = .error (if arriving.ended then .io "early eof" else .handshake .noAnswer) := by
  rw [Arriving.opening, if_pos h]

/-- A frame that comes in time has one reading. -/
private theorem Answers.iff_eq {result : Except FrameFault Reply} (h : a.Answers limit result)
    (result' : Except FrameFault Reply) : a.Answers limit result' ↔ result = result' :=
  ⟨fun h' => h.2.symm.trans h'.2, fun heq => heq ▸ h⟩

private theorem Answers.decides {result : Except FrameFault Reply} (h : a.Answers limit result)
    (hends : ¬ a.EndsEarly limit) (id : Ident) : a.Decides limit id (meaning id result) := by
  cases result with
  | error fault => constructor <;> simp [meaning, Welcomes, h.iff_eq, hends]
  | ok reply =>
    cases reply with
    | init reply =>
      obtain ⟨requestId, code, initType⟩ := reply
      by_cases hid : requestId = id
      · by_cases hcode : code = ResultCode.success
        · constructor <;> simp [meaning, Welcomes, h.iff_eq, hends, hid, hcode]
        · constructor <;> simp [meaning, Welcomes, h.iff_eq, hends, hid, hcode]
      · constructor <;> simp [meaning, Welcomes, h.iff_eq, hends, hid]
    | ping reply => constructor <;> simp [meaning, Welcomes, h.iff_eq, hends]
    | lock reply => constructor <;> simp [meaning, Welcomes, h.iff_eq, hends]

/-- What is heard within the time for opening a session decides as all that comes in does. -/
theorem decides_heard (a : Inflow) (limit : Nat) (id : Ident) : a.Decides limit id ((a.heard limit).opening id) := by
  cases harrives : isWithin limit (a.arrival? frameSize) with
  | true =>
    have hfull := heard_of_arrives harrives
    have htake : (a.heard limit).bytes.take frameSize = a.bytes.take frameSize := by
      rw [← a.heard_append_later limit, List.take_append_of_le_length hfull]
    have hends : ¬ a.EndsEarly limit := fun hends => by
      have hshort := hends.1
      rw [← a.heard_append_later limit, List.length_append] at hshort
      omega
    rw [opening_of_length_le hfull, htake]
    exact Answers.decides ⟨harrives, rfl⟩ hends id
  | false =>
    obtain ⟨hshort, hended⟩ := heard_of_not_arrives harrives
    have hno : ∀ result, ¬ a.Answers limit result := fun result h => by
      rw [h.1] at harrives
      cases harrives
    rw [opening_of_length_lt hshort]
    by_cases hends : a.EndsEarly limit
    · rw [if_pos (hended.mpr hends)]
      constructor <;> simp [Welcomes, hno, hends]
    · rw [if_neg (mt hended.mp hends)]
      constructor <;> simp [Welcomes, hno, hends]

end Inflow

/-! ### What becomes of the connection -/

namespace Client

variable {c : Client} {i : Nat} {k : Connection} {id : Ident} {arriving : Arriving}

private theorem turn_hear_of_error {failure : Failure} (hk : c.connections[i]? = some k)
    (hv : k.supervisor = .handshaking id) (h : arriving.opening id = .error failure) :
    c.turn i (.hear arriving) = some ((c.setPhase i .disconnected).assign i .waiting) := by
  simp [turn, hk, hv, h]

/-- An answer that opens a session adds one to the connection, which the supervisor has then to make live. -/
private theorem turn_hear_of_ok {initType : UInt8} (hk : c.connections[i]? = some k)
    (hv : k.supervisor = .handshaking id) (h : arriving.opening id = .ok initType) :
    ∃ (c' : Client) (session : Session),
      c.turn i (.hear arriving) = some c' ∧ (session.initType = initType ∧ session.unread = arriving.rest) ∧
      session.tornDown = false ∧ c.Becomes c' i
        { k with sessions := k.sessions ++ [session], supervisor := .engaged k.sessions.length } := by
  obtain ⟨hnew, session, hheard, htorn, hb⟩ := becomes_newSession hk initType arriving.rest
  have hturn : c.turn i (.hear arriving) =
      some ((c.newSession i initType arriving.rest).2.assign i (.engaged k.sessions.length)) := by
    simp [turn, hk, hv, h, hnew]
  exact ⟨_, session, hturn, hheard, htorn,
    hb.trans (becomes_change hb.here fun k' => { k' with supervisor := .engaged k.sessions.length })⟩

private theorem getElem?_connections_goLive {s : SessionId} (hk : c.connections[i]? = some k)
    (hphase : k.phase ≠ .closed) :
    (c.goLive i s).connections[i]? = some { k with phase := .live, stored := some s } := by
  have hstored := becomes_change hk fun k => { k with stored := some s }
  have hlive := (becomes_change hstored.here (·.setPhase .live)).here
  rw [Connection.setPhase, if_neg hphase] at hlive
  rw [goLive, joinLive]
  split <;> exact hlive

private theorem live_goLive {s : SessionId} {session : Session} (hk : c.connections[i]? = some k)
    (hs : k.sessions[s]? = some session) :
    (c.goLive i s).live = if c.replicated then c.live.join i session.initType else c.live := by
  have hstored : ((c.store i s).setPhase i .live).connections[i]?.bind (·.sessions[s]?) = some session := by
    rw [setPhase, store, change_change, getElem?_connections_change, if_pos rfl, hk]
    simpa using hs
  have hreplicated : ((c.store i s).setPhase i .live).replicated = c.replicated := rfl
  rw [goLive, joinLive, hstored, hreplicated]
  cases c.replicated <;> rfl

private theorem board_receive {s : SessionId} {session : Session} (hk : c.connections[i]? = some k)
    (hv : k.supervisor = .reading s) (hs : k.sessions[s]? = some session) (bytes : List UInt8) :
    (c.receive i bytes).board = c.board.receiveFrames session.table (splitFrames (session.unread ++ bytes)).1 := by
  simp [receive, hk, hv, hs, change]

end Client

namespace Course

variable {x : Course} {c : Client} {i : Nat} {k : Connection} {t : Client.Turn}

@[simp] theorem becoming_eq (x : Course) (c : Client) : x.becoming c = { x with client := c } := by
  simp [becoming]

theorem step_turn_of_none (ht : x.client.turn i t = none) : x.step (.play (.turn i t)) = x := by
  have hplays := plays_step x (.turn i t)
  generalize x.step (.play (.turn i t)) = x' at hplays ⊢
  cases hplays with
  | skips => exact becoming_eq x x.client
  | turns _ ht' => cases ht.symm.trans ht'
  | goesLive hk hv => simp [Client.turn, hk, hv] at ht
  | @tearsDown _ _ _ last hk hv => cases last <;> simp [Client.turn, hk, hv] at ht

private theorem step_turn_of_some (ht : x.client.turn i t = some c) (hgo : t ≠ .goLive) (htear : t ≠ .teardown) :
    x.step (.play (.turn i t)) = { x with client := c } := by
  have hplays := plays_step x (.turn i t)
  generalize x.step (.play (.turn i t)) = x' at hplays ⊢
  cases hplays with
  | skips hnone => cases ht.symm.trans (hnone i t rfl)
  | turns _ ht' =>
    cases ht.symm.trans ht'
    exact becoming_eq x c
  | goesLive => exact absurd rfl hgo
  | tearsDown => exact absurd rfl htear

/-- Going live is on record. -/
private theorem wentLive_step_goLive {s : SessionId} (hk : x.client.connections[i]? = some k)
    (hv : k.supervisor = .engaged s) : (x.step (.play (.turn i .goLive))).wentLive i = x.wentLive i ++ [s] := by
  have hplays := plays_step x (.turn i .goLive)
  generalize x.step (.play (.turn i .goLive)) = x' at hplays ⊢
  cases hplays with
  | skips hnone =>
    have hturn := hnone i .goLive rfl
    simp [Client.turn, hk, hv] at hturn
  | turns hk' _ hgo =>
    cases hk.symm.trans hk'
    exact absurd hv (hgo rfl s)
  | goesLive hk' hv' =>
    cases hk.symm.trans hk'
    cases hv.symm.trans hv'
    have hbusy := (Client.becomes_change hk fun k => { k with supervisor := .busy }).here
    have hmade := (Move.getElem?_connections_carryOut hbusy
      (Move.goingLive s ++ [.assign (.checking s)])).1.trans (congrArg Prod.fst (Connection.carryOut_goingLive ..))
    rw [wentLive, carrying, movesOn_append, List.filterMap_append, Client.assign, hmade, movesOn_map, if_pos rfl]
    rfl

/-- The supervisor of an open session makes it live. -/
theorem step_goLive {s : SessionId} {session : Session} (hk : x.client.connections[i]? = some k)
    (hv : k.supervisor = .engaged s) (hs : k.sessions[s]? = some session) (hphase : k.phase ≠ .closed) :
    let x' := x.step (.play (.turn i .goLive))
    x'.client.connections[i]? = some { k with phase := .live, stored := some s, supervisor := .checking s } ∧
      x'.wentLive i = x.wentLive i ++ [s] ∧
      x'.client.live = if x.client.replicated then x.client.live.join i session.initType else x.client.live := by
  have hturn : x.client.turn i .goLive = some ((x.client.goLive i s).assign i (.checking s)) := by
    simp [Client.turn, hk, hv]
  have hgone := Client.getElem?_connections_goLive (s := s) hk hphase
  refine ⟨?_, wentLive_step_goLive hk hv, ?_⟩
  · rw [client_step_play, Client.act, hturn]
    exact (Client.becomes_change hgone fun k => { k with supervisor := .checking s }).here
  · rw [client_step_play, Client.act, hturn]
    exact Client.live_goLive hk hs

/-- On a connection that was not closed in the meantime it reads on. -/
theorem step_check {s : SessionId} (hk : x.client.connections[i]? = some k) (hv : k.supervisor = .checking s)
    (hd : k.shutdown = false) :
    x.step (.play (.turn i .check)) = { x with client := x.client.assign i (.reading s) } :=
  step_turn_of_some (by simp [Client.turn, hk, hv, hd]) (by simp) (by simp)

variable {id : Ident} {arriving : Arriving}

/-- An answer that opens no session leaves the connection down. -/
private theorem stayedDown_of_error {failure : Failure} (hk : x.client.connections[i]? = some k)
    (hv : k.supervisor = .handshaking id) (hstored : k.stored = none) (hphase : k.phase ≠ .closed)
    (h : arriving.opening id = .error failure) :
    let x' := x.run [.play (.turn i (.hear arriving)), .play (.turn i .goLive), .play (.turn i .check)]
    ∃ k', x'.client.connections[i]? = some k' ∧ x.StayedDown x' k k' := by
  have hdown := Client.becomes_change hk (·.setPhase .disconnected)
  have hhere := (Client.becomes_change hdown.here fun k => { k with supervisor := .waiting }).here
  have hhear := step_turn_of_some (Client.turn_hear_of_error hk hv h) (by simp) (by simp)
  -- the supervisor waits for its next attempt, so that nothing comes of the other two turns
  have hidle : ∀ t, t = .goLive ∨ t = .check →
      Course.step { x with client := (x.client.setPhase i .disconnected).assign i .waiting } (.play (.turn i t)) =
        { x with client := (x.client.setPhase i .disconnected).assign i .waiting } := by
    rintro t (rfl | rfl) <;>
      exact step_turn_of_none (by simp [Client.turn, Client.assign, Client.setPhase, hhere])
  have hrun : x.run [.play (.turn i (.hear arriving)), .play (.turn i .goLive), .play (.turn i .check)] =
      { x with client := (x.client.setPhase i .disconnected).assign i .waiting } := by
    show ((x.step _).step _).step _ = _
    rw [hhear, hidle _ (.inl rfl), hidle _ (.inr rfl)]
  rw [hrun]
  refine ⟨_, hhere, ?_, ?_, rfl, rfl⟩
  · simp [Connection.setPhase, hphase]
  · simpa using hstored

/-- An answer that opens a session brings the connection up. -/
private theorem cameUp_of_ok {initType : UInt8} {a : Inflow} {limit : Nat} (hk : x.client.connections[i]? = some k)
    (hv : k.supervisor = .handshaking id) (hd : k.shutdown = false) (hphase : k.phase ≠ .closed)
    (h : (a.heard limit).opening id = .ok initType) (hfull : frameSize ≤ (a.heard limit).bytes.length) :
    let x' := x.run [.play (.turn i (.hear (a.heard limit))), .play (.turn i .goLive), .play (.turn i .check)]
    ∃ k', x'.client.connections[i]? = some k' ∧ x.CameUp x' i k k' initType a limit := by
  obtain ⟨c, session, hturn, ⟨htype, hunread⟩, htorn, hopen⟩ := Client.turn_hear_of_ok hk hv h
  obtain ⟨hgone, hnotified, hlive⟩ :=
    step_goLive (x := { x with client := c }) hopen.here rfl List.getElem?_concat_length hphase
  rw [run, List.foldl_cons, step_turn_of_some hturn (by simp) (by simp), List.foldl_cons]
  generalize Course.step { x with client := c } (.play (.turn i .goLive)) = x' at hgone hnotified hlive ⊢
  rw [List.foldl_cons, step_check hgone rfl hd, List.foldl_nil]
  have hhere := (Client.becomes_change hgone fun k' => { k' with supervisor := .reading k.sessions.length }).here
  have hbehind : session.unread ++ a.later limit = a.bytes.drop frameSize := by
    rw [hunread, Arriving.rest, ← a.heard_append_later limit, List.drop_append_of_le_length hfull]
  refine ⟨_, hhere, rfl, rfl, rfl, ⟨session, rfl, htype, htorn, hbehind, ?_⟩, hnotified, hlive.trans ?_⟩
  · rw [← hbehind]
    exact Client.board_receive hhere rfl List.getElem?_concat_length _
  · rw [hopen.live, hopen.replicated, htype]

/-- Whenever a supervisor has introduced itself on a connection that its owner has not closed, what comes in decides.
The connection goes live just if the first frame comes in time and is an answer to the introduction with the code of
success, with the type that this frame announces, and it reads on with the first byte behind the frame. In any other
case the failure says what came in, the connection is as unconnected as before, and nobody is told that it is live. -/
theorem first_answer_decides {config : Config} {replicated : Bool} {ids : IdSource} {c : Client}
    (hc : Client.start config replicated ids = .ok c) (events : List Exchange.Event) {i : Nat} {k : Connection}
    {id : Ident} (hk : ((fresh c).run events).client.connections[i]? = some k)
    (hv : k.supervisor = .handshaking id) (hd : k.shutdown = false) (a : Inflow) :
    let x := (fresh c).run events
    let limit := x.client.config.handshakeMillis.toNat
    let (outcome, x') := x.awaitAnswer i id a
    a.Decides limit id outcome ∧ ∃ k', x'.client.connections[i]? = some k' ∧
      (k'.phase = .live ↔ ∃ initType, a.Welcomes limit id initType) ∧
      (∀ initType, a.Welcomes limit id initType → x.CameUp x' i k k' initType a limit) ∧
      ((∀ initType, ¬ a.Welcomes limit id initType) → x.StayedDown x' k k') := by
  intro x limit
  obtain ⟨live, lost, hstanding, -⟩ := ((inv_start hc).run events).standing i k hk
  have hstored := (hstanding.stage.of_isAtRest (by rw [hv]; rfl)).1
  have hphase : k.phase ≠ .closed := fun h => by
    rw [hstanding.closed.mp h] at hd
    cases hd
  have hdecides := a.decides_heard limit id
  cases h : (a.heard limit).opening id with
  | error failure =>
    obtain ⟨k', hk', hdown⟩ := stayedDown_of_error hk hv hstored hphase h
    have hno : ∀ initType, ¬ a.Welcomes limit id initType := by
      intro initType hwelcomes
      cases h.symm.trans ((hdecides.opened initType).mpr hwelcomes)
    refine ⟨hdecides, k', hk', ?_, fun initType hwelcomes => absurd hwelcomes (hno initType), fun _ => hdown⟩
    rw [hdown.connection]
    exact iff_of_false nofun fun ⟨initType, hwelcomes⟩ => hno initType hwelcomes
  | ok initType =>
    have hwelcomes := (hdecides.opened initType).mp h
    obtain ⟨k', hk', hup⟩ := cameUp_of_ok hk hv hd hphase h (Inflow.heard_of_arrives hwelcomes.1)
    refine ⟨hdecides, k', hk', iff_of_true hup.phase ⟨initType, hwelcomes⟩, fun initType' h' => ?_, fun hno =>
      absurd hwelcomes (hno initType)⟩
    cases h.symm.trans ((hdecides.opened initType').mpr h')
    exact hup

open Exchange (soloConfig soloIds soloClient start_solo)

/-- A client whose supervisor has introduced itself. -/
def introduced : Course := (fresh soloClient).run [.play (.turn 0 .attempt), .play (.turn 0 .introduce)]

/-- A welcome of type 1 in two pieces, the second of which comes after a pause and brings one byte more. -/
def haltingly (pause : Nat) : Inflow :=
  let frame := Reply.encode (.init ⟨soloIds.advance.upcoming, ResultCode.success, 1⟩)
  { pieces := [(3, frame.take 40), (pause, frame.drop 40 ++ [7])] }

/-- With 5000 milliseconds for opening a session, a pause of 4000 is short enough and one of 5000 is too long. -/
theorem haltingly_decides : Client.start soloConfig false soloIds = .ok soloClient ∧
    ∃ k, introduced.client.connections[0]? = some k ∧
      k.supervisor = .handshaking soloIds.advance.upcoming ∧ k.shutdown = false ∧
      (∃ k', introduced.CameUp (introduced.awaitAnswer 0 soloIds.advance.upcoming (haltingly 4000)).2 0 k k' 1
        (haltingly 4000) introduced.client.config.handshakeMillis.toNat) ∧
      ∃ k', introduced.StayedDown (introduced.awaitAnswer 0 soloIds.advance.upcoming (haltingly 5000)).2 k k' := by
  have hfound : (introduced.client.connections[0]?).map (fun k => (k.supervisor, k.shutdown)) =
      some (.handshaking soloIds.advance.upcoming, false) := by decide +kernel
  obtain ⟨k, hk, he⟩ := Option.map_eq_some_iff.mp hfound
  obtain ⟨hv, hd⟩ := Prod.mk.inj he
  have hlimit : introduced.client.config.handshakeMillis.toNat = 5000 := by decide +kernel
  obtain ⟨-, k', -, -, hup, -⟩ := first_answer_decides start_solo _ hk hv hd (haltingly 4000)
  obtain ⟨-, k'', -, -, -, hdown⟩ := first_answer_decides start_solo _ hk hv hd (haltingly 5000)
  refine ⟨start_solo, k, hk, hv, hd, ⟨k', hup 1 ⟨?_, ?_⟩⟩, k'', hdown fun initType hwelcomes => ?_⟩
  · exact hlimit.symm ▸ by decide +kernel
  · decide +kernel
  · have hlate := hwelcomes.1
    have hnever : Inflow.isWithin 5000 ((haltingly 5000).arrival? frameSize) = false := by decide +kernel
    exact absurd (hlimit ▸ hlate) (by simp [hnever])

end Course

end LockService
