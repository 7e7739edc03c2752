import LockService.Client.Request

/-!
# Streams in pieces

A stream is cut into frames in the same way whether it arrives in one piece or in many (`splitFrames_append`), and so a
client that reads it piece by piece ends up where one that reads it at once does (`Client.receive_pieces`).
-/

namespace LockService

private theorem splitFrames_of_length_lt {bytes : List UInt8} (h : bytes.length < frameSize) :
    splitFrames bytes = ([], bytes) := by
  have hcount : bytes.length / frameSize = 0 := Nat.div_eq_of_lt h
  simp [splitFrames, hcount]

private theorem splitFrames_frame_append {frame : List UInt8} (h : frame.length = frameSize) (rest : List UInt8) :
    splitFrames (frame ++ rest) = (frame :: (splitFrames rest).1, (splitFrames rest).2) := by
  have hcount : (frame ++ rest).length / frameSize = rest.length / frameSize + 1 := by
    rw [List.length_append, h, Nat.add_comm]
    exact Nat.add_div_right _ (by decide)
  have hdrop : ∀ k, (frame ++ rest).drop ((k + 1) * frameSize) = rest.drop (k * frameSize) := by
    intro k
    rw [Nat.succ_mul, Nat.add_comm, ← h, List.drop_length_add_append, h]
  have hfirst : ((frame ++ rest).drop (0 * frameSize)).take frameSize = frame := by
    rw [Nat.zero_mul, List.drop_zero, ← h, List.take_left]
  have hothers : (fun k => ((frame ++ rest).drop (k * frameSize)).take frameSize) ∘ Nat.succ =
      fun k => (rest.drop (k * frameSize)).take frameSize := by
    funext k
    exact congrArg (List.take frameSize) (hdrop k)
  simp only [splitFrames, hcount, List.range_succ_eq_map, List.map_cons, List.map_map, hfirst, hdrop, hothers]

/-- What arrives later is cut where the bytes left over are put in front. -/
theorem splitFrames_append (first second : List UInt8) : splitFrames (first ++ second) =
    ((splitFrames first).1 ++ (splitFrames ((splitFrames first).2 ++ second)).1,
      (splitFrames ((splitFrames first).2 ++ second)).2) := by
  by_cases h : first.length < frameSize
  · rw [splitFrames_of_length_lt h]
    rfl
  · -- the first frame is cut off, and the bytes behind it are fewer
    have hlen : (first.take frameSize).length = frameSize := List.length_take_of_le (Nat.le_of_not_lt h)
    have hrest : first.length - frameSize < first.length := by
      have hpos : 0 < frameSize := by decide
      omega
    rw [← List.take_append_drop frameSize first, List.append_assoc, splitFrames_frame_append hlen,
      splitFrames_frame_append hlen, splitFrames_append (first.drop frameSize) second]
    rfl
termination_by first.length

/-- Whole frames in a row are split where they were joined. -/
theorem splitFrames_flatten {frames : List (List UInt8)} (h : ∀ frame ∈ frames, frame.length = frameSize) :
    splitFrames frames.flatten = (frames, []) := by
  induction frames with
  | nil => rfl
  | cons frame rest ih =>
    rw [List.forall_mem_cons] at h
    rw [List.flatten_cons, splitFrames_frame_append h.1, ih h.2]

/-! ### Reading -/

namespace Client

variable {c : Client} {i : Nat} {k : Connection} {s : SessionId} {session : Session}

/-- The connection with other bytes left over on a session. -/
def keepUnread (s : SessionId) (unread : List UInt8) (k : Connection) : Connection :=
  k.changeSession s fun session => { session with unread }

private theorem keepUnread_comp (s : SessionId) (first second : List UInt8) :
    keepUnread s second ∘ keepUnread s first = keepUnread s second := by
  funext k
  simp only [Function.comp_apply, keepUnread, Connection.changeSession, List.modify_modify_eq]
  rfl

/-- The client after the session that a connection reads has had whole frames, with some bytes left over. -/
def afterFrames (c : Client) (i : Nat) (s : SessionId) (session : Session) (cut : List (List UInt8) × List UInt8) :
    Client :=
  { c with board := c.board.receiveFrames session.table cut.1 }.change i (keepUnread s cut.2)

/-- A supervisor that reads takes the whole frames out of what it has, and keeps the rest. -/
theorem receive_of_reading (hk : c.connections[i]? = some k) (hv : k.supervisor = .reading s)
    (hs : k.sessions[s]? = some session) (bytes : List UInt8) :
    c.receive i bytes = c.afterFrames i s session (splitFrames (session.unread ++ bytes)) := by
  simp only [receive, hk, hv, hs]
  rfl

/-- Bytes that come in later find the session as the earlier ones have left it. -/
theorem receive_receive (hk : c.connections[i]? = some k) (hv : k.supervisor = .reading s)
    (hs : k.sessions[s]? = some session) (first second : List UInt8) :
    (c.receive i first).receive i second = c.receive i (first ++ second) := by
  let cut := splitFrames (session.unread ++ first)
  have hk' : (c.afterFrames i s session cut).connections[i]? = some (keepUnread s cut.2 k) := by
    simp [afterFrames, change, hk]
  have hs' : (keepUnread s cut.2 k).sessions[s]? = some { session with unread := cut.2 } := by
    simp [keepUnread, Connection.changeSession, hs]
  rw [receive_of_reading hk hv hs, receive_of_reading hk hv hs, receive_of_reading hk' hv hs', ← List.append_assoc,
    splitFrames_append (session.unread ++ first) second]
  simp only [afterFrames, change, Switchboard.receiveFrames_append, List.modify_modify_eq, keepUnread_comp]
  rfl

/-- Where a stream is cut does not matter. -/
theorem receive_pieces (hk : c.connections[i]? = some k) (hv : k.supervisor = .reading s)
    (hs : k.sessions[s]? = some session) (piece : List UInt8) (rest : List (List UInt8)) :
    (piece :: rest).foldl (fun c bytes => c.receive i bytes) c = c.receive i (piece :: rest).flatten := by
  induction rest generalizing piece with
  | nil => simp
  | cons next rest ih =>
    have hjoin := ih (piece ++ next)
    rw [List.foldl_cons, ← receive_receive hk hv hs, List.flatten_cons, List.append_assoc] at hjoin
    exact hjoin

end Client

end LockService
