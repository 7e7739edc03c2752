import LockService.Failure

/-!
# Opening a session

On a new stream a client introduces itself, and the first frame that comes back decides: the session is open when it
is an answer to the introduction with the result code of success. The bytes after that frame belong to the session.
-/

namespace LockService

/-- What comes in on a new stream within the time for opening a session. -/
structure Arriving where
  bytes : List UInt8
  /-- Whether the stream ends after these bytes. -/
  ended : Bool

namespace Arriving

/-- The outcome of introducing oneself with a request identifier: the type that the server announces. -/
def opening (a : Arriving) (requestId : Ident) : Outcome UInt8 :=
  if a.bytes.length < frameSize then
    .error (if a.ended then .io "early eof" else .handshake .noAnswer)
  else
    match Reply.decode (a.bytes.take frameSize) with
    | .error fault => .error (.protocol fault)
    | .ok (.init reply) =>
      if reply.requestId ≠ requestId then .error (.handshake .otherRequest)
      else if reply.result ≠ ResultCode.success then .error (.handshake (.refused reply.result))
      else .ok reply.initType
    | .ok reply => .error (.handshake (.notInit reply))

/-- The bytes that belong to the session. -/
def rest (a : Arriving) : List UInt8 := a.bytes.drop frameSize

end Arriving

end LockService
