import LockService.Bytes.Hex
import LockService.Wire.Field

/-!
# Frames

Every message travels as a frame of exactly 64 bytes: magic byte, version byte, kind byte, request identifier, the
message's own fields and zeros up to the end. A `FrameLayout` says what the fields of a message type are; encoding
and decoding are then the same for all six types. `Request.decode` and `Reply.decode` pick the type by the kind byte.
-/

namespace LockService

/-- The number of bytes in a frame. -/
def frameSize : Nat := 64

/-- The number of bytes before a message's own fields. -/
def headerSize : Nat := 19

/-- The first byte of every frame. -/
def magicByte : UInt8 := 0x56

/-- The second byte of every frame. -/
def versionByte : UInt8 := 0x01

/-- Why bytes are not a frame. -/
inductive FrameFault where
  /-- The first byte is another than the magic byte. -/
  | unknownMagic (byte : UInt8)
  /-- The second byte is another than the version byte. -/
  | unknownVersion (byte : UInt8)
  /-- The third byte is no kind of message. -/
  | unknownCommand (byte : UInt8)
  /-- There are fewer bytes than a frame has. -/
  | short (length : Nat)
deriving DecidableEq

def FrameFault.message : FrameFault → String
  | unknownMagic byte => "unknown magic byte 0x" ++ Hex.padded 2 byte.toNat
  | unknownVersion byte => "unknown protocol version " ++ toString byte
  | unknownCommand byte => "unknown command type " ++ toString byte
  | short length => "short frame: expected 64 bytes, got " ++ toString length

/-- The kind with a given byte, or the fault that there is none. -/
def CommandKind.ofCode (byte : UInt8) : Except FrameFault CommandKind :=
  match ofCode? byte with
  | some kind => .ok kind
  | none => .error (.unknownCommand byte)

/-- The kind of the message in a frame. Length, magic, version and kind are checked in this order. -/
def frameKind : List UInt8 → Except FrameFault CommandKind
  | magic :: version :: code :: rest =>
    if rest.length + 3 < frameSize then .error (.short (rest.length + 3))
    else if magic ≠ magicByte then .error (.unknownMagic magic)
    else if version ≠ versionByte then .error (.unknownVersion version)
    else CommandKind.ofCode code
  | bytes => .error (.short bytes.length)

/-- How the messages of a type are laid out in frames: the kinds that they have, the fields behind the header, and
how a message is taken apart and put together again. -/
class FrameLayout (μ : Type) where
  Fields : Type
  field : Field Fields
  accepts : CommandKind → Bool
  kind : μ → CommandKind
  requestId : μ → Ident
  fields : μ → Fields
  build : CommandKind → Ident → Fields → μ
  fits : headerSize + field.width ≤ frameSize
  build_fields : ∀ m, accepts (kind m) → build (kind m) (requestId m) (fields m) = m
  kind_build : ∀ k id f, accepts k → kind (build k id f) = k
  requestId_build : ∀ k id f, requestId (build k id f) = id
  fields_build : ∀ k id f, fields (build k id f) = f

section Codec

variable {μ : Type} [FrameLayout μ]

/-- The bytes of a message before the zeros. -/
def frameContent (m : μ) : List UInt8 :=
  magicByte :: versionByte :: (FrameLayout.kind m).code ::
    ((FrameLayout.requestId m).toList ++ FrameLayout.field.write (FrameLayout.fields m))

def encodeFrame (m : μ) : List UInt8 :=
  frameContent m ++ List.replicate (frameSize - headerSize - (FrameLayout.field (μ := μ)).width) 0

/-- Opens a frame of one of the accepted kinds: its kind, its request identifier and the bytes behind the header.
Whatever is no such frame is refused without a cause. -/
def openFrame (accepts : CommandKind → Bool) (bytes : List UInt8) : Option (CommandKind × Ident × List UInt8) :=
  match bytes with
  | magic :: version :: code :: _ =>
    if bytes.length < frameSize ∨ magic ≠ magicByte ∨ version ≠ versionByte then none
    else do
      let kind ← CommandKind.ofCode? code
      if accepts kind then
        let (id, rest) ← Field.ident.read ((bytes.take frameSize).drop 3)
        some (kind, id, rest)
      else none
  | _ => none

/-- The message in a frame; `none` when the bytes are no frame or one of another type. Bytes behind the frame are
not looked at. -/
def decodeFrame (μ : Type) [FrameLayout μ] (bytes : List UInt8) : Option μ := do
  let (kind, id, rest) ← openFrame (FrameLayout.accepts μ) bytes
  let (fields, _) ← FrameLayout.field.read rest
  some (FrameLayout.build kind id fields)

theorem length_frameContent (m : μ) :
    (frameContent m).length = headerSize + (FrameLayout.field (μ := μ)).width := by
  simp [frameContent, FrameLayout.field.length_write, headerSize]
  omega

@[simp] theorem length_encodeFrame (m : μ) : (encodeFrame m).length = frameSize := by
  have := FrameLayout.fits (μ := μ)
  simp only [encodeFrame, List.length_append, length_frameContent, List.length_replicate]
  omega

end Codec

/-! ### The six layouts -/

instance : FrameLayout InitRequest where
  Fields := Ident
  field := Field.ident
  accepts kind := kind == .init
  kind _ := .init
  requestId m := m.requestId
  fields m := m.clientId
  build _ id clientId := ⟨id, clientId⟩
  fits := by decide
  build_fields _ _ := rfl
  kind_build _ _ _ h := (eq_of_beq h).symm
  requestId_build _ _ _ := rfl
  fields_build _ _ _ := rfl

instance : FrameLayout InitReply where
  Fields := UInt8 × UInt8
  field := Field.byte.before Field.byte
  accepts kind := kind == .init
  kind _ := .init
  requestId m := m.requestId
  fields m := (m.result, m.initType)
  build _ id f := ⟨id, f.1, f.2⟩
  fits := by decide
  build_fields _ _ := rfl
  kind_build _ _ _ h := (eq_of_beq h).symm
  requestId_build _ _ _ := rfl
  fields_build _ _ _ := rfl

instance : FrameLayout PingRequest where
  Fields := Unit
  field := Field.empty
  accepts kind := kind == .ping
  kind _ := .ping
  requestId m := m.requestId
  fields _ := ()
  build _ id _ := ⟨id⟩
  fits := by decide
  build_fields _ _ := rfl
  kind_build _ _ _ h := (eq_of_beq h).symm
  requestId_build _ _ _ := rfl
  fields_build _ _ _ := rfl

instance : FrameLayout PingReply where
  Fields := UInt8
  field := Field.byte
  accepts kind := kind == .ping
  kind _ := .ping
  requestId m := m.requestId
  fields m := m.result
  build _ id result := ⟨id, result⟩
  fits := by decide
  build_fields _ _ := rfl
  kind_build _ _ _ h := (eq_of_beq h).symm
  requestId_build _ _ _ := rfl
  fields_build _ _ _ := rfl

instance : FrameLayout LockRequest where
  Fields := UInt8 × UInt8 × Ident × LockKey × TimeWord × TimeWord × UInt16 × UInt8
  field :=
    .before .byte (.before .byte (.before .ident (.before .key
      (.before .timeWord (.before .timeWord (.before .word16 .byte))))))
  accepts kind := kind == .lock || kind == .unlock
  kind m := m.kind
  requestId m := m.requestId
  fields m := (m.flag, m.dbId, m.lockId, m.lockKey, m.timeout, m.expire, m.count, m.reentry)
  build kind id := fun (flag, dbId, lockId, lockKey, timeout, expire, count, reentry) =>
    ⟨kind, id, flag, dbId, lockId, lockKey, timeout, expire, count, reentry⟩
  fits := by decide
  build_fields _ _ := rfl
  kind_build _ _ _ _ := rfl
  requestId_build _ _ _ := rfl
  fields_build _ _ _ := rfl

instance : FrameLayout LockReply where
  Fields := UInt8 × UInt8 × UInt8 × Ident × LockKey × UInt16 × UInt16 × UInt8 × UInt8
  field :=
    .before .byte (.before .byte (.before .byte (.before .ident (.before .key
      (.before .word16 (.before .word16 (.before .byte .byte)))))))
  accepts kind := kind == .lock || kind == .unlock
  kind m := m.kind
  requestId m := m.requestId
  fields m := (m.result, m.flag, m.dbId, m.lockId, m.lockKey, m.localCount, m.count, m.localReentry, m.reentry)
  build kind id := fun (result, flag, dbId, lockId, lockKey, localCount, count, localReentry, reentry) =>
    ⟨kind, id, result, flag, dbId, lockId, lockKey, localCount, count, localReentry, reentry⟩
  fits := by decide
  build_fields _ _ := rfl
  kind_build _ _ _ _ := rfl
  requestId_build _ _ _ := rfl
  fields_build _ _ _ := rfl

/-! ### Any request, any reply -/

/-- The message of a decoder that has passed the header check; a frame that it still refuses counts as short. -/
def orShort {μ : Type} (bytes : List UInt8) : Option μ → Except FrameFault μ
  | some m => .ok m
  | none => .error (.short bytes.length)

/-- The message in a frame, in its form among all messages of its direction. The kind byte picks the decoder. -/
def dispatchFrame {ι π κ ν : Type} [FrameLayout ι] [FrameLayout π] [FrameLayout κ] (init : ι → ν) (ping : π → ν)
    (lock : κ → ν) (bytes : List UInt8) : Except FrameFault ν := do
  match ← frameKind bytes with
  | .init => orShort bytes ((decodeFrame ι bytes).map init)
  | .ping => orShort bytes ((decodeFrame π bytes).map ping)
  | .lock | .unlock => orShort bytes ((decodeFrame κ bytes).map lock)

namespace Request

def encode : Request → List UInt8
  | init request => encodeFrame request
  | ping request => encodeFrame request
  | lock request => encodeFrame request

/-- The request in a frame, as a server reads it. -/
def decode : List UInt8 → Except FrameFault Request := dispatchFrame init ping lock

@[simp] theorem length_encode (request : Request) : request.encode.length = frameSize := by
  cases request <;> exact length_encodeFrame _

end Request

namespace Reply

def encode : Reply → List UInt8
  | init reply => encodeFrame reply
  | ping reply => encodeFrame reply
  | lock reply => encodeFrame reply

/-- The reply in a frame, as a client reads it. -/
def decode : List UInt8 → Except FrameFault Reply := dispatchFrame init ping lock

@[simp] theorem length_encode (reply : Reply) : reply.encode.length = frameSize := by
  cases reply <;> exact length_encodeFrame _

end Reply

end LockService
