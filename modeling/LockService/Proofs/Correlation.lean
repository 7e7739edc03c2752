import LockService.Proofs.Outcomes
import LockService.Proofs.Stream

/-!
# Answers find their requests

Each reply in a stream settles the request that is pending under its identifier. So a request gets the first reply that
carries its identifier, in the order of the frames, and the table keeps the requests that no reply answers. All other
frames do nothing, and none of them ends the session (`Client.replies_reach_their_requests`).
-/

namespace LockService

/-- The replies in a list of frames, in order. -/
def replies (frames : List (List UInt8)) : List Reply := frames.filterMap fun frame => (Reply.decode frame).toOption

/-- Replies without those that repeat the identifier of an earlier one. -/
def firstReplies : List Reply → List Reply
  | [] => []
  | reply :: rest => reply :: (firstReplies rest).filter (·.requestId ≠ reply.requestId)

namespace Switchboard

/-- Whoever is in a table waits there under one identifier and can still get an outcome. -/
structure Ready (b : Switchboard) (t : TableId) : Prop where
  apart : ∀ r r' p, b.holder? t r = some p → b.holder? t r' = some p → r = r'
  isOpen : ∀ r p, b.holder? t r = some p → b.isOpen p = true

/-- What a reply on the session of a table makes reach whom. -/
def answer? (b : Switchboard) (t : TableId) (reply : Reply) : Option Delivery :=
  (b.holder? t reply.requestId).map (·.delivery (.ok reply))

variable {b : Switchboard} {t : TableId} {reply : Reply} {p : Pending}

/-! ### One reply -/

private theorem setTable_self (b : Switchboard) (t : TableId) : b.setTable t (b.table t) = b := by
  have htables : b.tables.set t (b.table t) = b.tables := by
    by_cases ht : t < b.tables.length
    · have hget : b.table t = b.tables[t] := by simp [Switchboard.table, ht]
      rw [hget, List.set_getElem_self]
    · exact List.set_eq_of_length_le (Nat.le_of_not_lt ht)
  rw [setTable, htables]

theorem take_of_holder?_eq_none {id : Ident} (h : b.holder? t id = none) : b.take t id = (none, b) := by
  have herase : Assoc.erase id (b.table t).entries = (b.table t).entries := Assoc.erase_of_get?_eq_none h
  refine Prod.ext h ?_
  rw [take]
  dsimp only
  rw [herase]
  exact setTable_self b t

theorem take_of_holder?_eq_some {id : Ident} (h : b.holder? t id = some p) :
    b.take t id = (some p, (b.take t id).2) := Prod.ext h rfl

/-- A reply to nothing that is pending is ignored. -/
theorem receive_of_none (h : b.holder? t reply.requestId = none) : (b.receive t reply).2 = b := by
  rw [receive, take_of_holder?_eq_none h]

/-- A reply resolves the request that it names. -/
theorem receive_of_holder (h : b.holder? t reply.requestId = some p) :
    (b.receive t reply).2 = (b.take t reply.requestId).2.resolve (.ok reply) p := by
  rw [receive, take_of_holder?_eq_some h]

theorem isOpen_take (b : Switchboard) (t : TableId) (id : Ident) (p : Pending) :
    (b.take t id).2.isOpen p = b.isOpen p := by
  cases p <;> rfl

private theorem holder?_receive (b : Switchboard) (t : TableId) (reply : Reply) (t' : TableId) (r : Ident) :
    (b.receive t reply).2.holder? t' r = if t' = t ∧ r = reply.requestId then none else b.holder? t' r := by
  cases h : b.holder? t reply.requestId with
  | none =>
    rw [receive_of_none h]
    split
    · rename_i he
      rw [he.1, he.2, h]
    · rfl
  | some p => rw [receive_of_holder h, holder?_resolve, holder?_take]

/-- The table of the session loses the request that is answered; all other tables are left alone. -/
theorem table_receive (b : Switchboard) (t : TableId) (reply : Reply) (t' : TableId) :
    (b.receive t reply).2.table t' = if t' = t then
      { b.table t with entries := Assoc.erase reply.requestId (b.table t).entries } else b.table t' := by
  have htake : (b.receive t reply).2.table t' = (b.take t reply.requestId).2.table t' := by
    cases h : b.holder? t reply.requestId with
    | none => rw [receive_of_none h, take_of_holder?_eq_none h]
    | some p => rw [receive_of_holder h, table_resolve]
  rw [htake, take]
  dsimp only
  rw [table_setTable]
  by_cases ht : t' = t
  · subst ht
    by_cases hl : t' < b.tables.length
    · simp [hl]
    · rw [table_eq_of_length_le (Nat.le_of_not_lt hl)]
      simp [hl, Assoc.erase]
  · simp [ht]

/-- A reply to somebody else leaves the outcomes as they are. -/
theorem outcomes_receive_of_ne (h : b.holder? t reply.requestId ≠ some p) :
    (b.receive t reply).2.outcomes p = b.outcomes p := by
  cases hq : b.holder? t reply.requestId with
  | none => rw [receive_of_none hq]
  | some q =>
    have hne : q ≠ p := by
      rintro rfl
      exact h hq
    rw [receive_of_holder hq, outcomes_resolve, if_neg fun he => hne he.1, List.append_nil]
    rfl

private theorem Ready.delivered_receive (h : b.Ready t) (reply : Reply) :
    (b.receive t reply).2.delivered = b.delivered ++ (b.answer? t reply).toList := by
  cases hp : b.holder? t reply.requestId with
  | none => simp [receive_of_none hp, answer?, hp]
  | some p =>
    have ho : (b.take t reply.requestId).2.isOpen p = true := by
      rw [isOpen_take]
      exact h.isOpen _ p hp
    rw [receive_of_holder hp, delivered_resolve, if_pos ho]
    simp [answer?, hp, take, setTable]

private theorem Ready.receive (h : b.Ready t) (reply : Reply) : (b.receive t reply).2.Ready t := by
  refine ⟨fun r r' p hr hr' => ?_, fun r p hr => ?_⟩
  · rw [holder?_receive] at hr hr'
    split at hr
    · cases hr
    · split at hr'
      · cases hr'
      · exact h.apart r r' p hr hr'
  · rw [holder?_receive] at hr
    split at hr
    · cases hr
    · rename_i hne
      cases hq : b.holder? t reply.requestId with
      | none =>
        rw [receive_of_none hq]
        exact h.isOpen r p hr
      | some q =>
        have hpq : p ≠ q := by
          rintro rfl
          exact hne ⟨rfl, h.apart r reply.requestId p hr hq⟩
        rw [receive_of_holder hq, isOpen_resolve _ _ _ hpq, isOpen_take]
        exact h.isOpen r p hr

/-! ### A list of replies -/

/-- Handles replies one after the other. -/
def receiveAll (b : Switchboard) (t : TableId) (rs : List Reply) : Switchboard :=
  rs.foldl (fun b reply => (b.receive t reply).2) b

@[simp] theorem receiveAll_nil (b : Switchboard) (t : TableId) : b.receiveAll t [] = b := rfl

private theorem receiveAll_cons (b : Switchboard) (t : TableId) (x : Reply) (rest : List Reply) :
    b.receiveAll t (x :: rest) = (b.receive t x).2.receiveAll t rest := rfl

/-- Only the frames that hold a reply matter, in their order. -/
theorem receiveFrames_eq_receiveAll (b : Switchboard) (t : TableId) (frames : List (List UInt8)) :
    b.receiveFrames t frames = b.receiveAll t (replies frames) := by
  induction frames generalizing b with
  | nil => rfl
  | cons frame rest ih =>
    have hstep : b.receiveFrames t (frame :: rest) = (b.receiveFrame t frame).receiveFrames t rest := rfl
    rw [hstep, ih, receiveFrame]
    cases h : Reply.decode frame <;> simp [replies, h, receiveAll, Except.toOption]

/-- Whoever is still pending was pending before under an identifier that no reply carries. -/
theorem holder?_receiveAll (b : Switchboard) (t : TableId) (rs : List Reply) (r : Ident) :
    (b.receiveAll t rs).holder? t r = if ∃ x ∈ rs, x.requestId = r then none else b.holder? t r := by
  induction rs generalizing b with
  | nil => simp
  | cons x rest ih =>
    rw [receiveAll_cons, ih, holder?_receive]
    by_cases hx : x.requestId = r
    · simp [hx]
    · by_cases hrest : ∃ y ∈ rest, y.requestId = r <;> simp [hx, Ne.symm hx, hrest]

private theorem table_receiveAll (b : Switchboard) (t : TableId) (rs : List Reply) (t' : TableId) :
    (b.receiveAll t rs).table t' = if t' = t then { b.table t with
      entries := (b.table t).entries.filter fun entry => ∀ x ∈ rs, x.requestId ≠ entry.1 } else b.table t' := by
  induction rs generalizing b with
  | nil =>
    by_cases ht : t' = t
    · simp [ht]
    · simp [ht]
  | cons x rest ih =>
    rw [receiveAll_cons, ih, table_receive, table_receive]
    by_cases ht : t' = t
    · have hp : ∀ entry : Ident × Pending,
          (decide (∀ y ∈ rest, y.requestId ≠ entry.1) && decide (entry.1 ≠ x.requestId)) =
            decide (∀ y ∈ x :: rest, y.requestId ≠ entry.1) := by
        intro entry
        by_cases hx : entry.1 = x.requestId
        · simp [hx]
        · simp [hx, Ne.symm hx]
      simp only [ht, if_true, Assoc.erase, List.filter_filter, hp]
    · simp [ht]

/-- What reaches the callers, in order. -/
theorem Ready.delivered_receiveAll (h : b.Ready t) (rs : List Reply) :
    (b.receiveAll t rs).delivered = b.delivered ++ (firstReplies rs).filterMap (b.answer? t) := by
  induction rs generalizing b with
  | nil => simp [firstReplies]
  | cons x rest ih =>
    -- what the first reply answers is not answered again
    have hrest : (b.receive t x).2.answer? t = fun y => if y.requestId ≠ x.requestId then b.answer? t y else none := by
      funext y
      rw [answer?, holder?_receive]
      by_cases hy : y.requestId = x.requestId <;> simp [hy, answer?]
    rw [receiveAll_cons, ih (h.receive x), h.delivered_receive, hrest, firstReplies, List.filterMap_cons,
      List.filterMap_filter]
    cases b.answer? t x <;> simp

/-- Who is not pending in the table hears nothing from its replies. -/
theorem outcomes_receiveAll_of_not_held (rs : List Reply) (hp : ∀ r, b.holder? t r ≠ some p) :
    (b.receiveAll t rs).outcomes p = b.outcomes p := by
  induction rs generalizing b with
  | nil => rfl
  | cons x rest ih =>
    rw [receiveAll_cons, ih, outcomes_receive_of_ne (hp x.requestId)]
    · intro r
      rw [holder?_receive]
      split
      · simp
      · exact hp r

/-- Whoever is pending gets the first reply that carries its identifier, and nothing without one. -/
theorem Ready.outcomes_receiveAll (h : b.Ready t) (rs : List Reply) {r : Ident} (hp : b.holder? t r = some p) :
    (b.receiveAll t rs).outcomes p =
      b.outcomes p ++ ((rs.find? (·.requestId = r)).map Except.ok).toList := by
  induction rs generalizing b with
  | nil => simp
  | cons x rest ih =>
    by_cases hx : x.requestId = r
    · have hq : b.holder? t x.requestId = some p := hx ▸ hp
      have hopen : (b.take t x.requestId).2.isOpen p = true := by
        rw [isOpen_take]
        exact h.isOpen _ p hq
      -- from now on it is in the table no more
      have hgone : ∀ r', (b.receive t x).2.holder? t r' ≠ some p := by
        intro r' hr'
        rw [holder?_receive] at hr'
        split at hr'
        · cases hr'
        · rename_i hne
          exact hne ⟨rfl, h.apart r' x.requestId p hr' hq⟩
      rw [receiveAll_cons, outcomes_receiveAll_of_not_held rest hgone, receive_of_holder hq, outcomes_resolve,
        if_pos ⟨rfl, hopen⟩, List.find?_cons, decide_eq_true hx]
      rfl
    · have hp' : (b.receive t x).2.holder? t r = some p := by
        rw [holder?_receive, if_neg fun he => hx he.2.symm]
        exact hp
      have hsame : (b.receive t x).2.outcomes p = b.outcomes p :=
        outcomes_receive_of_ne fun hq => hx (h.apart _ _ p hq hp)
      rw [receiveAll_cons, ih (h.receive x) hp', hsame, List.find?_cons]
      simp [hx]

/-! ### A stream -/

/-- Whether a frame answers nothing which is still pending: it holds no reply, or one that repeats an earlier one or
carries an identifier that was not pending. -/
def Idle (b : Switchboard) (t : TableId) (before : List (List UInt8)) (frame : List UInt8) : Prop :=
  ∀ reply, Reply.decode frame = .ok reply →
    b.holder? t reply.requestId = none ∨ ∃ x ∈ replies before, x.requestId = reply.requestId

/-- What the frames of a stream make of the requests pending in a table: `b'` is the switchboard after them. -/
structure Correlates (b : Switchboard) (t : TableId) (frames : List (List UInt8)) (b' : Switchboard) : Prop where
  /-- A request gets the first reply that carries its identifier, and nothing without one. -/
  pending : ∀ r p, b.holder? t r = some p →
    b'.outcomes p = b.outcomes p ++ (((replies frames).find? (·.requestId = r)).map Except.ok).toList
  others : ∀ p, (∀ r, b.holder? t r ≠ some p) → b'.outcomes p = b.outcomes p
  inOrder : b'.delivered = b.delivered ++ (firstReplies (replies frames)).filterMap (b.answer? t)
  left : b'.table t = { b.table t with
    entries := (b.table t).entries.filter fun entry => ∀ x ∈ replies frames, x.requestId ≠ entry.1 }
  elsewhere : ∀ t', t' ≠ t → b'.table t' = b.table t'
  idle : ∀ before frame after, frames = before ++ frame :: after → b.Idle t before frame →
    b.receiveFrames t (before ++ [frame]) = b.receiveFrames t before

private theorem receiveFrames_of_idle {before : List (List UInt8)} {frame : List UInt8} (h : b.Idle t before frame) :
    b.receiveFrames t (before ++ [frame]) = b.receiveFrames t before := by
  rw [receiveFrames_append]
  change (b.receiveFrames t before).receiveFrame t frame = b.receiveFrames t before
  cases hd : Reply.decode frame with
  | error fault => rw [receiveFrame, hd]
  | ok reply =>
    have hnone : (b.receiveFrames t before).holder? t reply.requestId = none := by
      rw [receiveFrames_eq_receiveAll, holder?_receiveAll]
      split
      · rfl
      · rename_i hno
        exact (h reply hd).resolve_right hno
    rw [receiveFrame, hd]
    exact receive_of_none hnone

/-- On a switchboard that is ready every reply finds its request. -/
theorem Ready.correlates (h : b.Ready t) (frames : List (List UInt8)) :
    b.Correlates t frames (b.receiveFrames t frames) where
  pending r p hp := by rw [receiveFrames_eq_receiveAll, h.outcomes_receiveAll _ hp]
  others p hp := by rw [receiveFrames_eq_receiveAll, outcomes_receiveAll_of_not_held _ hp]
  inOrder := by rw [receiveFrames_eq_receiveAll, h.delivered_receiveAll]
  left := by rw [receiveFrames_eq_receiveAll, table_receiveAll, if_pos rfl]
  elsewhere t' ht := by rw [receiveFrames_eq_receiveAll, table_receiveAll, if_neg ht]
  idle before frame after _ hidle := receiveFrames_of_idle hidle

end Switchboard

namespace Client

/-- The replies in a stream reach the requests that they answer, whatever the frames are and however the stream is cut
into pieces; the connection goes on reading. -/
theorem replies_reach_their_requests {c : Client} {i : Nat} {k : Connection} {s : SessionId} {session : Session}
    (hk : c.connections[i]? = some k) (hv : k.supervisor = .reading s) (hs : k.sessions[s]? = some session)
    (hready : c.board.Ready session.table) {frames pieces : List (List UInt8)}
    (hlen : ∀ frame ∈ frames, frame.length = frameSize) (hne : pieces ≠ [])
    (hpieces : session.unread ++ pieces.flatten = frames.flatten) :
    ∃ board, c.board.Correlates session.table frames board ∧
      pieces.foldl (fun c bytes => c.receive i bytes) c = { c with board }.change i fun k =>
        k.changeSession s fun session => { session with unread := [] } := by
  refine ⟨c.board.receiveFrames session.table frames, hready.correlates frames, ?_⟩
  obtain ⟨piece, rest, rfl⟩ := List.exists_cons_of_ne_nil hne
  have hcut : splitFrames (session.unread ++ (piece :: rest).flatten) = (frames, []) := by
    rw [hpieces, splitFrames_flatten hlen]
  rw [receive_pieces hk hv hs, receive_of_reading hk hv hs, hcut]
  rfl

/-! ### A stream with all kinds of frames -/

def firstId : Ident := .ofHalves 1 0

def secondId : Ident := .ofHalves 2 0

/-- An awaited request and a callback command, pending on the session of a table. -/
def pairBoard : Switchboard :=
  let b := ((Switchboard.newTable {}).2.await 0 firstId (Span.ofSeconds 5)).2
  (b.deferRegistered 100 secondId (Span.ofSeconds 5) 0).2.2

private theorem pairBoard_ready : pairBoard.Ready 0 := by
  have hholder : ∀ r, pairBoard.holder? 0 r =
      if firstId = r then some (Pending.waiter 0) else if secondId = r then some (Pending.entry 0) else none := by
    exact fun r => rfl
  have hwaiter : ∀ r w, pairBoard.holder? 0 r = some (.waiter w) → r = firstId := by
    intro r w h
    rw [hholder] at h
    split_ifs at h with hr <;> simp_all only [Option.some.injEq, reduceCtorEq]
  have hentry : ∀ r e, pairBoard.holder? 0 r = some (.entry e) → r = secondId ∧ e = 0 := by
    intro r e h
    rw [hholder] at h
    split_ifs at h with hr hs <;> simp_all
  refine ⟨fun r r' p hr hr' => ?_, fun r p hr => ?_⟩
  · cases p with
    | waiter w => rw [hwaiter r w hr, hwaiter r' w hr']
    | entry e => rw [(hentry r e hr).1, (hentry r' e hr').1]
  · cases p with
    | waiter w => rfl
    | entry e =>
      rw [(hentry r e hr).2]
      rfl

/-- A client that reads on its only session. -/
def readingClient : Client where
  config := Config.single 2 "a"
  clientId := .zero
  replicated := false
  connections := [{
    address := ⟨['a'], defaultPort⟩
    phase := .live
    stored := some 0
    supervisor := .reading 0
    sessions := [{ table := 0, initType := 1 }] }]
  board := pairBoard
  ids := IdSource.seeded 7 fun _ => ⟨0, 0⟩

/-- A frame that holds no reply, an answer to nobody, both answers in reverse order, and the second one again. -/
def mixedFrames : List (List UInt8) :=
  [List.replicate 64 0, Reply.encode (.ping ⟨.ofHalves 3 0, 0⟩), Reply.encode (.ping ⟨secondId, 4⟩),
    Reply.encode (.ping ⟨firstId, 0⟩), Reply.encode (.ping ⟨firstId, 9⟩)]

/-- Each caller hears the first reply that names its request, in the order of the replies, and nothing else. -/
theorem mixed_frames_reach_both : ∃ board,
    [mixedFrames.flatten.take 70, mixedFrames.flatten.drop 70].foldl (fun c bytes => c.receive 0 bytes) readingClient =
      ({ readingClient with board } : Client).change 0 (fun k =>
        k.changeSession 0 fun session => { session with unread := [] }) ∧
    board.outcomes (.waiter 0) = [.ok (.ping ⟨firstId, 0⟩)] ∧ board.outcomes (.entry 0) = [.ok (.ping ⟨secondId, 4⟩)] ∧
    board.delivered.map (·.recipient) = [.entry 0, .waiter 0] ∧ (board.table 0).entries = [] := by
  let pieces := [mixedFrames.flatten.take 70, mixedFrames.flatten.drop 70]
  have hlen : ∀ frame ∈ mixedFrames, frame.length = frameSize := by decide
  have hpieces : [] ++ pieces.flatten = mixedFrames.flatten := by decide +kernel
  have hne : pieces ≠ [] := List.cons_ne_nil _ _
  obtain ⟨board, hcor, hfold⟩ :=
    replies_reach_their_requests (c := readingClient) (i := 0) rfl rfl rfl pairBoard_ready hlen hne hpieces
  have hfirst := hcor.pending firstId (.waiter 0) rfl
  have hsecond := hcor.pending secondId (.entry 0) rfl
  have horder := hcor.inOrder
  have hleft := hcor.left
  refine ⟨board, hfold, ?_, ?_, ?_, ?_⟩
  · rw [hfirst]
    rfl
  · rw [hsecond]
    rfl
  · rw [horder]
    rfl
  · rw [hleft]
    rfl

end Client

end LockService
