import LockService.Proofs.FrameDispatch

/-!
# Decoding undoes encoding

For each of the six types of messages decoding and encoding undo each other, through the type's own decoder and through
the one for all messages of its direction.
-/

namespace LockService

/-- Messages `μ`, whose form among all messages of their direction is `wrap`, and their frames stand for each other.
Their last field ends before byte `used`; only the carried ones have a kind that belongs to the type. -/
structure RoundTrip {μ ν : Type} [FrameLayout μ] (encode : ν → List UInt8) (decode : List UInt8 → Except FrameFault ν)
    (requestId : ν → Ident) (wrap : μ → ν) (carried : μ → Prop) (used : Nat) : Prop where
  length : ∀ m, (encodeFrame m).length = 64 ∧ encode (wrap m) = encodeFrame m
  own : ∀ m, carried m → ∀ more, decodeFrame μ (encodeFrame m ++ more) = some m
  any : ∀ m, carried m → ∀ more, decode (encodeFrame m ++ more) = .ok (wrap m) ∧
    requestId (wrap m) = FrameLayout.requestId m
  foreign : ∀ m, ¬ carried m → ∀ more, decodeFrame μ (encodeFrame m ++ more) = none
  ownImage : ∀ bytes m, decodeFrame μ bytes = some m →
    encodeFrame m = bytes.take used ++ List.replicate (64 - used) 0
  anyImage : ∀ bytes m, decode bytes = .ok (wrap m) →
    encode (wrap m) = bytes.take used ++ List.replicate (64 - used) 0

/-- A type whose own decoder agrees with the one for all messages. -/
private theorem roundTrip_of_agrees {μ ν : Type} [FrameLayout μ] {encode : ν → List UInt8}
    {decode : List UInt8 → Except FrameFault ν} {requestId : ν → Ident} {wrap : μ → ν} {carried : μ → Prop} {used : Nat}
    (hencode : ∀ m, encode (wrap m) = encodeFrame m) (hid : ∀ m, requestId (wrap m) = FrameLayout.requestId m)
    (hcarried : ∀ m, carried m ↔ FrameLayout.accepts μ (FrameLayout.kind m) = true)
    (hused : used = headerSize + (FrameLayout.field (μ := μ)).width)
    (hagree : ∀ bytes m, decode bytes = .ok (wrap m) ↔ decodeFrame μ bytes = some m) :
    RoundTrip encode decode requestId wrap carried used := by
  have own : ∀ m, carried m → ∀ more, decodeFrame μ (encodeFrame m ++ more) = some m := fun m hm more =>
    decodeFrame_encodeFrame ((hcarried m).mp hm) more
  have image : ∀ bytes m, decodeFrame μ bytes = some m →
      encodeFrame m = bytes.take used ++ List.replicate (64 - used) 0 := by
    intro bytes m h
    rw [hused]
    exact encodeFrame_of_decodeFrame h
  refine ⟨fun m => ⟨length_encodeFrame m, hencode m⟩, own, ?_, ?_, image, ?_⟩
  · exact fun m hm more => ⟨(hagree _ m).mpr (own m hm more), hid m⟩
  · intro m hm more
    refine decodeFrame_of_not_accepts ?_ more
    rwa [hcarried, Bool.not_eq_true] at hm
  · intro bytes m h
    rw [hencode]
    exact image bytes m ((hagree bytes m).mp h)

/-- Decoding undoes encoding for all types of messages, and encoding undoes decoding up to the bytes behind the last
field. -/
theorem messages_round_trip :
    RoundTrip Request.encode Request.decode Request.requestId Request.init (fun _ => True) 35 ∧
    RoundTrip Request.encode Request.decode Request.requestId Request.ping (fun _ => True) 19 ∧
    RoundTrip Request.encode Request.decode Request.requestId Request.lock
      (fun m => m.kind = .lock ∨ m.kind = .unlock) 64 ∧
    RoundTrip Reply.encode Reply.decode Reply.requestId Reply.init (fun _ => True) 21 ∧
    RoundTrip Reply.encode Reply.decode Reply.requestId Reply.ping (fun _ => True) 20 ∧
    RoundTrip Reply.encode Reply.decode Reply.requestId Reply.lock
      (fun m => m.kind = .lock ∨ m.kind = .unlock) 60 := by
  have request := request_agreement
  have reply := reply_agreement
  refine ⟨?_, ?_, ?_, ?_, ?_, ?_⟩
  · exact roundTrip_of_agrees (fun _ => rfl) (fun _ => rfl) (fun _ => iff_of_true trivial rfl) rfl fun bytes =>
      requestForms.init_iff (request bytes)
  · exact roundTrip_of_agrees (fun _ => rfl) (fun _ => rfl) (fun _ => iff_of_true trivial rfl) rfl fun bytes =>
      requestForms.ping_iff (request bytes)
  · exact roundTrip_of_agrees (fun _ => rfl) (fun _ => rfl) (fun m => (requestForms.lock m.kind).symm) rfl fun bytes =>
      requestForms.lock_iff (request bytes)
  · exact roundTrip_of_agrees (fun _ => rfl) (fun _ => rfl) (fun _ => iff_of_true trivial rfl) rfl fun bytes =>
      replyForms.init_iff (reply bytes)
  · exact roundTrip_of_agrees (fun _ => rfl) (fun _ => rfl) (fun _ => iff_of_true trivial rfl) rfl fun bytes =>
      replyForms.ping_iff (reply bytes)
  · exact roundTrip_of_agrees (fun _ => rfl) (fun _ => rfl) (fun m => (replyForms.lock m.kind).symm) rfl fun bytes =>
      replyForms.lock_iff (reply bytes)

/-- A request to unlock, with a different byte in every field. -/
def fullUnlock : LockRequest :=
  ⟨.unlock, .ofHalves 1 2, 3, 4, .ofHalves 5 6, ⟨(Ident.ofHalves 7 8).block⟩, ⟨0x0a0b0c0d⟩, ⟨0x1a1b1c1d⟩, 0x2a2b, 0xff⟩

/-- The frame of an answer to a check, with bytes behind the last field that are not zero. -/
def untidyPing : List UInt8 := [0x56, 1, 5] ++ (Ident.ofHalves 1 2).toList ++ [9] ++ List.replicate 44 0xee

theorem round_trip_of_unlock_and_untidy :
    decodeFrame LockRequest (encodeFrame fullUnlock ++ [0x56, 1]) = some fullUnlock ∧
    Request.decode (encodeFrame fullUnlock ++ [0x56, 1]) = .ok (.lock fullUnlock) ∧
    decodeFrame LockRequest (encodeFrame { fullUnlock with kind := .ping } ++ []) = none ∧
    encodeFrame (⟨.ofHalves 1 2, 9⟩ : PingReply) = untidyPing.take 20 ++ List.replicate 44 0 := by
  obtain ⟨-, -, lock, -, ping, -⟩ := messages_round_trip
  have hping : decodeFrame PingReply untidyPing = some ⟨.ofHalves 1 2, 9⟩ := by decide
  exact ⟨lock.own fullUnlock (.inr rfl) [0x56, 1], (lock.any fullUnlock (.inr rfl) [0x56, 1]).1,
    lock.foreign { fullUnlock with kind := .ping } (by decide) [], ping.ownImage untidyPing _ hping⟩

end LockService
