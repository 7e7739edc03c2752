import LockService.Pending.Switchboard

/-!
# Inbound frames

What a server sends on a session is cut into frames of fixed size. A frame that holds a reply settles the request that
it answers; one that does not, or that answers nothing pending, changes nothing.
-/

namespace LockService

/-- The whole frames in a stretch of a stream, and the bytes left over. -/
def splitFrames (bytes : List UInt8) : List (List UInt8) × List UInt8 :=
  let count := bytes.length / frameSize
  ((List.range count).map fun k => (bytes.drop (k * frameSize)).take frameSize, bytes.drop (count * frameSize))

namespace Switchboard

/-- Handles a frame that arrives on the session of a table. -/
def receiveFrame (b : Switchboard) (t : TableId) (frame : List UInt8) : Switchboard :=
  match Reply.decode frame with
  | .ok reply => (b.receive t reply).2
  | .error _ => b

/-- Handles frames in the order of their arrival. -/
def receiveFrames (b : Switchboard) (t : TableId) (frames : List (List UInt8)) : Switchboard :=
  frames.foldl (fun b frame => b.receiveFrame t frame) b

theorem receiveFrames_append (b : Switchboard) (t : TableId) (first second : List (List UInt8)) :
    b.receiveFrames t (first ++ second) = (b.receiveFrames t first).receiveFrames t second := List.foldl_append

end Switchboard

end LockService
