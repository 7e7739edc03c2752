import LockService.Client.Course

/-!
# Awaiting the first answer

On a new stream bytes come in piece by piece, and the stream may end. Whoever has introduced itself there listens until
a whole frame has come in, the stream ends, or the time for opening a session is over. What was heard decides, and a
session that is opened goes on with the bytes behind the first frame.
-/

namespace LockService

/-- What comes in on a new stream, and when. -/
structure Inflow where
  /-- Pieces of bytes, each with the milliseconds that pass before it. -/
  pieces : List (Nat × List UInt8)
  /-- The milliseconds from the last piece to the end of the stream; without them it stays open. -/
  silence : Option Nat := none

namespace Inflow

/-- Whether something happens, and does so in less than `limit` milliseconds. -/
def isWithin (limit : Nat) (moment : Option Nat) : Bool := moment.any (· < limit)

/-- All bytes that ever come in. -/
def bytes (a : Inflow) : List UInt8 := a.pieces.flatMap (·.2)

/-- The milliseconds until pieces have brought `n` bytes, if they ever do. -/
def arrivalIn : List (Nat × List UInt8) → Nat → Option Nat
  | _, 0 => some 0
  | [], _ + 1 => none
  | (delay, piece) :: rest, n + 1 => (arrivalIn rest (n + 1 - piece.length)).map (delay + ·)

/-- The milliseconds until `n` bytes are there. -/
def arrival? (a : Inflow) (n : Nat) : Option Nat := arrivalIn a.pieces n

/-- The milliseconds until the last of some pieces is there. -/
def duration : List (Nat × List UInt8) → Nat
  | [] => 0
  | (delay, _) :: rest => delay + duration rest

/-- The milliseconds until the stream ends. -/
def end? (a : Inflow) : Option Nat := a.silence.map (duration a.pieces + ·)

/-- Listens for a whole frame for at most `limit` milliseconds, when some bytes were heard before and `silence` is to
follow the pieces: what was heard, and the pieces behind it. -/
def listen (silence : Option Nat) : (limit : Nat) → (heard : List UInt8) → (pieces : List (Nat × List UInt8)) →
    Arriving × List (Nat × List UInt8)
  | limit, heard, [] => (⟨heard, isWithin limit silence⟩, [])
  | limit, heard, (delay, piece) :: rest =>
    if limit ≤ delay then (⟨heard, false⟩, (delay, piece) :: rest)
    else if frameSize ≤ (heard ++ piece).length then (⟨heard ++ piece, false⟩, rest)
    else listen silence (limit - delay) (heard ++ piece) rest

/-- What is heard within `limit` milliseconds, up to the piece that completes the first frame. -/
def heard (a : Inflow) (limit : Nat) : Arriving := (listen a.silence limit [] a.pieces).1

/-- The bytes that come in after what is heard. -/
def later (a : Inflow) (limit : Nat) : List UInt8 := (listen a.silence limit [] a.pieces).2.flatMap (·.2)

/-! ### What a first answer can be -/

/-- The first frame comes in time, and this is what it reads as. -/
def Answers (a : Inflow) (limit : Nat) (result : Except FrameFault Reply) : Prop :=
  isWithin limit (a.arrival? frameSize) = true ∧ Reply.decode (a.bytes.take frameSize) = result

/-- The answer opens a session: it is one to the introduction `id`, with the code of success. -/
def Welcomes (a : Inflow) (limit : Nat) (id : Ident) (initType : UInt8) : Prop :=
  a.Answers limit (.ok (.init ⟨id, ResultCode.success, initType⟩))

/-- The stream ends in time, before a whole frame has come in. -/
def EndsEarly (a : Inflow) (limit : Nat) : Prop := a.bytes.length < frameSize ∧ isWithin limit a.end? = true

/-- What the outcome of an introduction says about the answer. -/
structure Decides (a : Inflow) (limit : Nat) (id : Ident) (outcome : Outcome UInt8) : Prop where
  opened : ∀ initType, outcome = .ok initType ↔ a.Welcomes limit id initType
  malformed : ∀ fault, outcome = .error (.protocol fault) ↔ a.Answers limit (.error fault)
  ended : (∃ text, outcome = .error (.io text)) ↔ a.EndsEarly limit
  /-- An answer to another introduction is reported as such, whatever its result code. -/
  otherRequest : outcome = .error (.handshake .otherRequest) ↔
    ∃ reply, a.Answers limit (.ok (.init reply)) ∧ reply.requestId ≠ id
  otherwise : (∃ fault, outcome = .error (.handshake fault)) ↔
    (∀ initType, ¬ a.Welcomes limit id initType) ∧ (∀ fault, ¬ a.Answers limit (.error fault)) ∧ ¬ a.EndsEarly limit

end Inflow

namespace Course

/-- A supervisor that has introduced itself as `id` awaits the answer, and reads on if that opens a session. -/
def awaitAnswer (x : Course) (i : Nat) (id : Ident) (a : Inflow) : Outcome UInt8 × Course :=
  let arriving := a.heard x.client.config.handshakeMillis.toNat
  (arriving.opening id,
    x.run [.play (.turn i (.hear arriving)), .play (.turn i .goLive), .play (.turn i .check)])

/-- A session of a client is open and goes on right behind the first frame of what comes in: the whole frames from
there on are taken as replies. -/
structure GoesOn (c : Client) (i : Nat) (session : Session) (a : Inflow) (limit : Nat) : Prop where
  tornDown : session.tornDown = false
  unread : session.unread ++ a.later limit = a.bytes.drop frameSize
  reads : (c.receive i (a.later limit)).board =
    c.board.receiveFrames session.table (splitFrames (a.bytes.drop frameSize)).1

/-- A connection `k` has gone live with a new session, and reads on. -/
structure CameUp (x x' : Course) (i : Nat) (k k' : Connection) (initType : UInt8) (a : Inflow) (limit : Nat) :
    Prop where
  phase : k'.phase = .live
  stored : k'.stored = some k.sessions.length
  supervisor : k'.supervisor = .reading k.sessions.length
  session : ∃ session, k'.sessions = k.sessions ++ [session] ∧ session.initType = initType ∧
    GoesOn x'.client i session a limit
  notified : x'.wentLive i = x.wentLive i ++ [k.sessions.length]
  live : x'.client.live = if x.client.replicated then x.client.live.join i initType else x.client.live

/-- A connection is as unconnected as before its attempt, and nobody was told that it is live. -/
structure StayedDown (x x' : Course) (k k' : Connection) : Prop where
  connection : k' = { k with phase := .disconnected, supervisor := .waiting }
  stored : k'.stored = none
  made : x'.made = x.made
  live : x'.client.live = x.client.live

end Course

end LockService
