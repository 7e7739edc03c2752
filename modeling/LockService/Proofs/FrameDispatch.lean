import LockService.Proofs.Frame

/-!
# Decoding any message

Requests and replies have a decoder for each of their three forms and one that picks among these by the kind byte. The
picking decoder names the fault in the header, if there is one; without a fault exactly one of the three decoders
answers, and its answer is taken (`decoders_agree`).
-/

namespace LockService

section Dispatch

variable {ι π κ ν : Type} [FrameLayout ι] [FrameLayout π] [FrameLayout κ] {bytes : List UInt8}

/-- The three forms of a direction are told apart by the kind byte. -/
structure Forms (ι π κ : Type) [FrameLayout ι] [FrameLayout π] [FrameLayout κ] : Prop where
  init : ∀ kind, FrameLayout.accepts ι kind = true ↔ kind = .init
  ping : ∀ kind, FrameLayout.accepts π kind = true ↔ kind = .ping
  lock : ∀ kind, FrameLayout.accepts κ kind = true ↔ kind = .lock ∨ kind = .unlock

/-- A decoder of all messages and the decoders of the three forms agree on a byte string: the first fault in the
header is named, every other byte string is decoded, and what it is decoded to is what one of the three answers while
the others refuse. -/
structure Agreement (decode : List UInt8 → Except FrameFault ν) (init : ι → ν) (ping : π → ν) (lock : κ → ν)
    (bytes : List UInt8) : Prop where
  faulty : ∀ fault, decode bytes = .error fault ↔ fault.Explains bytes
  faultless : (∃ x, decode bytes = .ok x) ↔ 64 ≤ bytes.length ∧ bytes[0]? = some 0x56 ∧ bytes[1]? = some 0x01 ∧
    ∃ code ∈ ([0, 1, 2, 5] : List UInt8), bytes[2]? = some code
  decodesInit : ∀ m, decode bytes = .ok (init m) ↔
    decodeFrame ι bytes = some m ∧ decodeFrame π bytes = none ∧ decodeFrame κ bytes = none
  decodesPing : ∀ m, decode bytes = .ok (ping m) ↔
    decodeFrame ι bytes = none ∧ decodeFrame π bytes = some m ∧ decodeFrame κ bytes = none
  decodesLock : ∀ m, decode bytes = .ok (lock m) ↔
    decodeFrame ι bytes = none ∧ decodeFrame π bytes = none ∧ decodeFrame κ bytes = some m

theorem requestForms : Forms InitRequest PingRequest LockRequest :=
  ⟨fun kind => by cases kind <;> decide, fun kind => by cases kind <;> decide, fun kind => by cases kind <;> decide⟩

theorem replyForms : Forms InitReply PingReply LockReply :=
  ⟨fun kind => by cases kind <;> decide, fun kind => by cases kind <;> decide, fun kind => by cases kind <;> decide⟩

variable (init : ι → ν) (ping : π → ν) (lock : κ → ν)

private theorem dispatchFrame_of_error {fault : FrameFault} (hk : frameKind bytes = .error fault) :
    dispatchFrame init ping lock bytes = .error fault := by
  rw [dispatchFrame, hk]
  rfl

variable (h : Forms ι π κ)
include h

/-- What the picked decoder answers, for each kind that the header may have. -/
theorem Forms.dispatchFrame_of_kind {kind : CommandKind} (hk : frameKind bytes = .ok kind) :
    (∃ m, decodeFrame ι bytes = some m ∧ decodeFrame π bytes = none ∧ decodeFrame κ bytes = none ∧
      dispatchFrame init ping lock bytes = .ok (init m)) ∨
    (∃ m, decodeFrame ι bytes = none ∧ decodeFrame π bytes = some m ∧ decodeFrame κ bytes = none ∧
      dispatchFrame init ping lock bytes = .ok (ping m)) ∨
    (∃ m, decodeFrame ι bytes = none ∧ decodeFrame π bytes = none ∧ decodeFrame κ bytes = some m ∧
      dispatchFrame init ping lock bytes = .ok (lock m)) := by
  have refuses : ∀ (μ : Type) [FrameLayout μ], ¬ FrameLayout.accepts μ kind = true → decodeFrame μ bytes = none :=
    fun μ _ hacc => decodeFrame_eq_none hk (by simpa using hacc)
  have locked : kind = .lock ∨ kind = .unlock → ∃ m, decodeFrame ι bytes = none ∧ decodeFrame π bytes = none ∧
      decodeFrame κ bytes = some m ∧ dispatchFrame init ping lock bytes = .ok (lock m) := by
    intro hkind
    obtain ⟨m, hm⟩ := Option.isSome_iff_exists.mp (isSome_decodeFrame (μ := κ) hk ((h.lock kind).mpr hkind))
    refine ⟨m, refuses ι ?_, refuses π ?_, hm, ?_⟩
    · rw [h.init]
      rintro rfl
      simp at hkind
    · rw [h.ping]
      rintro rfl
      simp at hkind
    · rw [dispatchFrame, hk]
      rcases hkind with rfl | rfl <;> exact congrArg (fun o => orShort bytes (o.map lock)) hm
  cases kind with
  | init =>
    obtain ⟨m, hm⟩ := Option.isSome_iff_exists.mp (isSome_decodeFrame (μ := ι) hk ((h.init _).mpr rfl))
    refine .inl ⟨m, hm, refuses π ?_, refuses κ ?_, ?_⟩
    · simp [h.ping]
    · simp [h.lock]
    · rw [dispatchFrame, hk]
      exact congrArg (fun o => orShort bytes (o.map init)) hm
  | ping =>
    obtain ⟨m, hm⟩ := Option.isSome_iff_exists.mp (isSome_decodeFrame (μ := π) hk ((h.ping _).mpr rfl))
    refine .inr (.inl ⟨m, refuses ι ?_, hm, refuses κ ?_, ?_⟩)
    · simp [h.init]
    · simp [h.lock]
    · rw [dispatchFrame, hk]
      exact congrArg (fun o => orShort bytes (o.map ping)) hm
  | lock => exact .inr (.inr (locked (.inl rfl)))
  | unlock => exact .inr (.inr (locked (.inr rfl)))

private theorem Forms.agreement (hwrap : Function.Injective (Sum.elim init (Sum.elim ping lock))) (bytes : List UInt8) :
    Agreement (dispatchFrame init ping lock) init ping lock bytes := by
  have hinit : ∀ m m', init m = init m' ↔ m = m' := fun m m' =>
    ⟨fun e => Sum.inl.inj (@hwrap (.inl m) (.inl m') e), congrArg init⟩
  have hping : ∀ m m', ping m = ping m' ↔ m = m' := fun m m' =>
    ⟨fun e => Sum.inl.inj (Sum.inr.inj (@hwrap (.inr (.inl m)) (.inr (.inl m')) e)), congrArg ping⟩
  have hlock : ∀ m m', lock m = lock m' ↔ m = m' := fun m m' =>
    ⟨fun e => Sum.inr.inj (Sum.inr.inj (@hwrap (.inr (.inr m)) (.inr (.inr m')) e)), congrArg lock⟩
  have hinitping : ∀ m m', init m ≠ ping m' := fun m m' e => nomatch @hwrap (.inl m) (.inr (.inl m')) e
  have hinitlock : ∀ m m', init m ≠ lock m' := fun m m' e => nomatch @hwrap (.inl m) (.inr (.inr m')) e
  have hpinglock : ∀ m m', ping m ≠ lock m' := fun m m' e => nomatch @hwrap (.inr (.inl m)) (.inr (.inr m')) e
  cases hk : frameKind bytes with
  | error fault =>
    have hd := dispatchFrame_of_error init ping lock hk
    have hι : decodeFrame ι bytes = none := decodeFrame_eq_none_of_error hk
    have hπ : decodeFrame π bytes = none := decodeFrame_eq_none_of_error hk
    have hκ : decodeFrame κ bytes = none := decodeFrame_eq_none_of_error hk
    refine ⟨fun fault' => ?_, ?_, ?_, ?_, ?_⟩
    · rw [hd, ← frameKind_eq_error_iff, hk]
      simp
    · rw [← exists_frameKind_eq_ok_iff, hd, hk]
      simp
    all_goals simp [hd, hι, hπ, hκ]
  | ok kind =>
    have hfault : ∀ fault, ¬ FrameFault.Explains bytes fault := by
      intro fault hf
      rw [← frameKind_eq_error_iff, hk] at hf
      cases hf
    have hheader := exists_frameKind_eq_ok_iff.mp ⟨kind, hk⟩
    rcases h.dispatchFrame_of_kind init ping lock hk with
      ⟨m, hι, hπ, hκ, hd⟩ | ⟨m, hι, hπ, hκ, hd⟩ | ⟨m, hι, hπ, hκ, hd⟩
    all_goals
      refine ⟨fun fault => ?_, ?_, fun m' => ?_, fun m' => ?_, fun m' => ?_⟩
      · simp [hd, hfault]
      · exact iff_of_true ⟨_, hd⟩ hheader
      all_goals simp [hd, hι, hπ, hκ, hinit, hping, hlock, hinitping, hinitlock, hpinglock, Ne.symm]

/-- Without a fault one of the three decoders answers. -/
theorem Forms.fails_iff (bytes : List UInt8) : (∃ fault, dispatchFrame init ping lock bytes = .error fault) ↔
    decodeFrame ι bytes = none ∧ decodeFrame π bytes = none ∧ decodeFrame κ bytes = none := by
  cases hk : frameKind bytes with
  | error fault =>
    exact iff_of_true ⟨fault, dispatchFrame_of_error init ping lock hk⟩
      ⟨decodeFrame_eq_none_of_error hk, decodeFrame_eq_none_of_error hk, decodeFrame_eq_none_of_error hk⟩
  | ok kind =>
    rcases h.dispatchFrame_of_kind init ping lock hk with
      ⟨m, hι, hπ, hκ, hd⟩ | ⟨m, hι, hπ, hκ, hd⟩ | ⟨m, hι, hπ, hκ, hd⟩ <;> simp [hd, hι, hπ, hκ]

/-- No two of the three decoders answer. -/
theorem Forms.exclusive (bytes : List UInt8) :
    (decodeFrame ι bytes = none ∨ decodeFrame π bytes = none) ∧
    (decodeFrame ι bytes = none ∨ decodeFrame κ bytes = none) ∧
    (decodeFrame π bytes = none ∨ decodeFrame κ bytes = none) := by
  cases hk : frameKind bytes with
  | error fault =>
    have hι : decodeFrame ι bytes = none := decodeFrame_eq_none_of_error hk
    have hπ : decodeFrame π bytes = none := decodeFrame_eq_none_of_error hk
    exact ⟨.inl hι, .inl hι, .inl hπ⟩
  | ok kind =>
    rcases h.dispatchFrame_of_kind (fun _ => ()) (fun _ => ()) (fun _ => ()) hk with
      ⟨m, hι, hπ, hκ, -⟩ | ⟨m, hι, hπ, hκ, -⟩ | ⟨m, hι, hπ, hκ, -⟩ <;> simp [hι, hπ, hκ]

variable {init ping lock} (ha : Agreement (dispatchFrame init ping lock) init ping lock bytes)
include ha

theorem Forms.init_iff (m : ι) : dispatchFrame init ping lock bytes = .ok (init m) ↔ decodeFrame ι bytes = some m := by
  rw [ha.decodesInit]
  refine ⟨And.left, fun hm => ?_⟩
  have hothers := h.exclusive bytes
  simp only [hm, reduceCtorEq, false_or] at hothers
  exact ⟨hm, hothers.1, hothers.2.1⟩

theorem Forms.ping_iff (m : π) : dispatchFrame init ping lock bytes = .ok (ping m) ↔ decodeFrame π bytes = some m := by
  rw [ha.decodesPing]
  refine ⟨fun hm => hm.2.1, fun hm => ?_⟩
  have hothers := h.exclusive bytes
  simp only [hm, reduceCtorEq, false_or, or_false] at hothers
  exact ⟨hothers.1, hm, hothers.2.2⟩

theorem Forms.lock_iff (m : κ) : dispatchFrame init ping lock bytes = .ok (lock m) ↔ decodeFrame κ bytes = some m := by
  rw [ha.decodesLock]
  refine ⟨fun hm => hm.2.2, fun hm => ?_⟩
  have hothers := h.exclusive bytes
  simp only [hm, reduceCtorEq, or_false] at hothers
  exact ⟨hothers.2.1, hothers.2.2, hm⟩

end Dispatch

/-- On requests the dispatcher and the three decoders agree. -/
theorem request_agreement (bytes : List UInt8) :
    Agreement Request.decode Request.init Request.ping Request.lock bytes :=
  requestForms.agreement _ _ _ (by rintro (_ | _ | _) (_ | _ | _) h <;> cases h <;> rfl) bytes

/-- On replies the dispatcher and the three decoders agree. -/
theorem reply_agreement (bytes : List UInt8) : Agreement Reply.decode Reply.init Reply.ping Reply.lock bytes :=
  replyForms.agreement _ _ _ (by rintro (_ | _ | _) (_ | _ | _) h <;> cases h <;> rfl) bytes

/-- Both decoders of all messages agree with the decoders of their forms on every byte string, and where one of them
fails the other fails too and no form has a message there. -/
theorem decoders_agree (bytes : List UInt8) :
    Agreement Request.decode Request.init Request.ping Request.lock bytes ∧
    Agreement Reply.decode Reply.init Reply.ping Reply.lock bytes ∧
    ((∃ fault, Request.decode bytes = .error fault) ↔ ∃ fault, Reply.decode bytes = .error fault) ∧
    ((∃ fault, Request.decode bytes = .error fault) ↔
      decodeFrame InitRequest bytes = none ∧ decodeFrame PingRequest bytes = none ∧
      decodeFrame LockRequest bytes = none ∧ decodeFrame InitReply bytes = none ∧
      decodeFrame PingReply bytes = none ∧ decodeFrame LockReply bytes = none) := by
  have hrequest := request_agreement bytes
  have hreply := reply_agreement bytes
  have hfail : (∃ fault, Request.decode bytes = .error fault) ↔ ∃ fault, Reply.decode bytes = .error fault :=
    exists_congr fun fault => (hrequest.faulty fault).trans (hreply.faulty fault).symm
  have hrequests := requestForms.fails_iff Request.init Request.ping Request.lock bytes
  have hreplies := replyForms.fails_iff Reply.init Reply.ping Reply.lock bytes
  refine ⟨hrequest, hreply, hfail, ?_⟩
  constructor
  · intro h
    obtain ⟨hi, hp, hl⟩ := hrequests.mp h
    exact ⟨hi, hp, hl, hreplies.mp (hfail.mp h)⟩
  · rintro ⟨hi, hp, hl, -⟩
    exact hrequests.mpr ⟨hi, hp, hl⟩

end LockService
