import LockService.Wire.Frame

/-!
# Frames and their messages

The header of a frame is looked at in two places: where a decoder is picked (`frameKind`) and where the frame is opened
(`openFrame`). Both see the same header (`isSome_decodeFrame_iff`), and the first one names the fault in it
(`frameKind_eq_error_iff`).

A frame of a type is one that begins with the content of a message of an accepted kind (`decodeFrame_eq_some_iff`). So
decoding undoes encoding whatever follows the frame, and encoding undoes decoding up to the bytes behind the last field,
which come back as zeros.
-/

namespace LockService

private theorem CommandKind.code_injective {kind kind' : CommandKind} (h : kind.code = kind'.code) : kind = kind' := by
  have hc : ofCode? kind.code = ofCode? kind'.code := congrArg ofCode? h
  simpa using hc

/-! ### The header -/

/-- What is wrong with the header of a byte string, the first fault first. -/
def FrameFault.Explains (bytes : List UInt8) : FrameFault → Prop
  | short length => bytes.length < 64 ∧ length = bytes.length
  | unknownMagic byte => 64 ≤ bytes.length ∧ bytes[0]? = some byte ∧ byte ≠ 0x56
  | unknownVersion byte => 64 ≤ bytes.length ∧ bytes[0]? = some 0x56 ∧ bytes[1]? = some byte ∧ byte ≠ 0x01
  | unknownCommand byte => 64 ≤ bytes.length ∧ bytes[0]? = some 0x56 ∧ bytes[1]? = some 0x01 ∧
      bytes[2]? = some byte ∧ byte ∉ [0, 1, 2, 5]

private theorem CommandKind.ofCode?_eq_none_iff {byte : UInt8} : ofCode? byte = none ↔ byte ∉ [0, 1, 2, 5] := by
  constructor
  · intro h hmem
    simp only [List.mem_cons, List.not_mem_nil, or_false] at hmem
    rcases hmem with rfl | rfl | rfl | rfl <;> cases h
  · intro h
    simp only [List.mem_cons, List.not_mem_nil, or_false, not_or] at h
    simp [ofCode?, h]

section Header

variable {bytes : List UInt8} {kind : CommandKind}

private theorem frameKind_of_length_lt (h : bytes.length < frameSize) :
    frameKind bytes = .error (.short bytes.length) := by
  unfold frameKind
  split
  · exact if_pos h
  · rfl

/-- The verdict on a byte string that is long enough. -/
theorem frameKind_cons {magic version code : UInt8} {tail : List UInt8}
    (h : frameSize ≤ (magic :: version :: code :: tail).length) :
    frameKind (magic :: version :: code :: tail) =
      if magic ≠ magicByte then .error (.unknownMagic magic)
      else if version ≠ versionByte then .error (.unknownVersion version)
      else CommandKind.ofCode code := by
  have hn : ¬ tail.length + 3 < frameSize := Nat.not_lt.mpr h
  simp only [frameKind, if_neg hn]

/-- A byte string that is long enough has a header. -/
private theorem exists_header (h : frameSize ≤ bytes.length) : ∃ magic version code tail,
    bytes = magic :: version :: code :: tail := by
  match bytes, h with
  | magic :: version :: code :: tail, _ => exact ⟨magic, version, code, tail, rfl⟩
  | [], h | [_], h | [_, _], h => simp [frameSize] at h

/-- A frame is faulty exactly for the faults that explain it. -/
theorem frameKind_eq_error_iff {fault : FrameFault} : frameKind bytes = .error fault ↔ fault.Explains bytes := by
  by_cases hshort : bytes.length < 64
  · have hn : ¬ 64 ≤ bytes.length := Nat.not_le.mpr hshort
    rw [frameKind_of_length_lt hshort]
    cases fault <;> simp [FrameFault.Explains, hn, hshort, eq_comm]
  · have hlen : 64 ≤ bytes.length := Nat.not_lt.mp hshort
    obtain ⟨magic, version, code, tail, rfl⟩ := exists_header hlen
    -- the faults of a long byte string, in terms of its first three bytes
    have hfaults : fault.Explains (magic :: version :: code :: tail) ↔
        match fault with
        | .short _ => False
        | .unknownMagic byte => magic = byte ∧ byte ≠ magicByte
        | .unknownVersion byte => magic = magicByte ∧ version = byte ∧ byte ≠ versionByte
        | .unknownCommand byte => magic = magicByte ∧ version = versionByte ∧ code = byte ∧
            CommandKind.ofCode? byte = none := by
      cases fault <;> simp only [FrameFault.Explains, hlen, hshort, true_and, false_and,
        CommandKind.ofCode?_eq_none_iff, List.getElem?_cons_zero, List.getElem?_cons_succ, Option.some.injEq,
        magicByte, versionByte]
    rw [frameKind_cons hlen, hfaults]
    by_cases hmagic : magic = magicByte
    · by_cases hversion : version = versionByte
      · rw [if_neg (not_not_intro hmagic), if_neg (not_not_intro hversion), CommandKind.ofCode]
        cases hcode : CommandKind.ofCode? code with
        | some kind => cases fault <;> grind
        | none => cases fault <;> grind
      · rw [if_neg (not_not_intro hmagic), if_pos hversion]
        cases fault <;> grind
    · rw [if_pos hmagic]
      cases fault <;> grind

private theorem frameKind_eq_ok_iff : frameKind bytes = .ok kind ↔
    frameSize ≤ bytes.length ∧ ∃ tail, bytes = magicByte :: versionByte :: kind.code :: tail := by
  constructor
  · intro h
    have hlen : frameSize ≤ bytes.length := by
      refine Nat.not_lt.mp fun hl => ?_
      rw [frameKind_of_length_lt hl] at h
      cases h
    obtain ⟨magic, version, code, tail, rfl⟩ := exists_header hlen
    rw [frameKind_cons hlen] at h
    split at h
    · cases h
    · rename_i hmagic
      split at h
      · cases h
      · rename_i hversion
        unfold CommandKind.ofCode at h
        split at h
        · rename_i hkind
          cases h
          exact ⟨hlen, tail, by
            rw [Decidable.not_not.mp hmagic, Decidable.not_not.mp hversion, CommandKind.ofCode?_eq_some_iff.mp hkind]⟩
        · cases h
  · rintro ⟨hlen, tail, rfl⟩
    rw [frameKind_cons hlen]
    simp [CommandKind.ofCode]

/-- The header is right when magic, version and one of the four kinds stand in a byte string that is long enough. -/
theorem exists_frameKind_eq_ok_iff : (∃ kind, frameKind bytes = .ok kind) ↔
    64 ≤ bytes.length ∧ bytes[0]? = some 0x56 ∧ bytes[1]? = some 0x01 ∧
      ∃ code ∈ ([0, 1, 2, 5] : List UInt8), bytes[2]? = some code := by
  constructor
  · rintro ⟨kind, h⟩
    obtain ⟨hlen, tail, rfl⟩ := frameKind_eq_ok_iff.mp h
    refine ⟨hlen, rfl, rfl, kind.code, ?_, rfl⟩
    cases kind <;> decide
  · rintro ⟨hlen, hmagic, hversion, code, hmem, hcode⟩
    cases h : frameKind bytes with
    | ok kind => exact ⟨kind, rfl⟩
    | error fault =>
      have hfault : fault.Explains bytes := frameKind_eq_error_iff.mp h
      cases fault <;>
        simp only [FrameFault.Explains, hmagic, hversion, hcode, Option.some.injEq, Nat.not_lt.mpr hlen] at hfault <;>
        grind

end Header

/-! ### Opening a frame -/

section Open

variable {accepts : CommandKind → Bool} {bytes rest : List UInt8} {kind : CommandKind} {id : Ident}

/-- The first part of a byte string that has three bytes at least. -/
private theorem eq_cons_of_take_frameSize {a b c : UInt8} (h : bytes.take frameSize = a :: b :: c :: rest) :
    ∃ tail, bytes = a :: b :: c :: tail := by
  refine ⟨bytes.drop 3, ?_⟩
  have hp : a :: b :: c :: rest <+: bytes := h ▸ List.take_prefix frameSize bytes
  obtain ⟨more, rfl⟩ := hp
  rfl

private theorem openFrame_of_header {code : UInt8} {tail : List UInt8}
    (hlen : frameSize ≤ (magicByte :: versionByte :: code :: tail).length) :
    openFrame accepts (magicByte :: versionByte :: code :: tail) =
      (CommandKind.ofCode? code).bind fun kind =>
        if accepts kind then
          (Field.ident.read ((tail.take (frameSize - 3)))).bind fun (id, rest) => some (kind, id, rest)
        else none := by
  have hn : ¬ (magicByte :: versionByte :: code :: tail).length < frameSize := Nat.not_lt.mpr hlen
  simp only [openFrame, hn, ne_eq, not_true_eq_false, or_self, if_false]
  rfl

private theorem openFrame_eq_some_iff : openFrame accepts bytes = some (kind, id, rest) ↔
    accepts kind = true ∧ frameSize ≤ bytes.length ∧
      bytes.take frameSize = magicByte :: versionByte :: kind.code :: (id.toList ++ rest) := by
  constructor
  · intro h
    unfold openFrame at h
    split at h
    · split at h
      · cases h
      · rename_i magic version code tail hhead
        have hlen : frameSize ≤ (magic :: version :: code :: tail).length := by
          refine Nat.not_lt.mp fun hl => hhead (.inl hl)
        have hmagic : magic = magicByte := by
          refine Decidable.not_not.mp fun hm => hhead (.inr (.inl hm))
        have hversion : version = versionByte := by
          refine Decidable.not_not.mp fun hv => hhead (.inr (.inr hv))
        subst hmagic hversion
        obtain ⟨kind', hkind, h⟩ := Option.bind_eq_some_iff.mp h
        split at h
        · rename_i hacc
          obtain ⟨⟨id', rest'⟩, hread, heq⟩ := Option.bind_eq_some_iff.mp h
          cases heq
          have hcode : code = kind.code := CommandKind.ofCode?_eq_some_iff.mp hkind
          have hid : _ = id.toList ++ rest := Field.ident.write_of_read hread
          subst hcode
          exact ⟨hacc, hlen, congrArg (magicByte :: versionByte :: kind.code :: ·) hid⟩
        · cases h
    · cases h
  · rintro ⟨hacc, hlen, htake⟩
    obtain ⟨tail, rfl⟩ := eq_cons_of_take_frameSize htake
    have htail : tail.take (frameSize - 3) = id.toList ++ rest := by
      have htake : magicByte :: versionByte :: kind.code :: tail.take (frameSize - 3) = _ := htake
      simpa using htake
    have hread : Field.ident.read (id.toList ++ rest) = some (id, rest) := Field.ident.read_write id rest
    rw [openFrame_of_header hlen, CommandKind.ofCode?_code, Option.bind_some, if_pos hacc, htail, hread,
      Option.bind_some]

end Open

/-! ### One type of messages -/

section Message

variable {μ : Type} [FrameLayout μ] {bytes : List UInt8} {m : μ}

/-- Bytes decode to a message exactly when they are long enough and start with its content under a type that it
accepts. -/
theorem decodeFrame_eq_some_iff : decodeFrame μ bytes = some m ↔
    FrameLayout.accepts μ (FrameLayout.kind m) = true ∧ frameSize ≤ bytes.length ∧ frameContent m <+: bytes := by
  constructor
  · intro h
    obtain ⟨⟨kind, id, rest⟩, hopen, h⟩ := Option.bind_eq_some_iff.mp h
    obtain ⟨⟨fields, tail⟩, hread, heq⟩ := Option.bind_eq_some_iff.mp h
    cases heq
    obtain ⟨hacc, hlen, htake⟩ := openFrame_eq_some_iff.mp hopen
    have hrest : rest = FrameLayout.field.write fields ++ tail := FrameLayout.field.write_of_read hread
    refine ⟨by rwa [FrameLayout.kind_build kind id fields hacc], hlen, ?_⟩
    have hfirst : bytes.take frameSize <+: bytes := List.take_prefix frameSize bytes
    refine List.IsPrefix.trans ⟨tail, ?_⟩ hfirst
    rw [htake, hrest, frameContent, FrameLayout.kind_build kind id fields hacc, FrameLayout.requestId_build,
      FrameLayout.fields_build]
    simp
  · rintro ⟨hacc, hlen, more, rfl⟩
    have hcontent : (frameContent m).length ≤ frameSize := length_frameContent m ▸ FrameLayout.fits
    have hopen : openFrame (FrameLayout.accepts μ) (frameContent m ++ more) =
        some (FrameLayout.kind m, FrameLayout.requestId m, FrameLayout.field.write (FrameLayout.fields m) ++
          more.take (frameSize - (frameContent m).length)) := by
      refine openFrame_eq_some_iff.mpr ⟨hacc, hlen, ?_⟩
      rw [List.take_append, List.take_of_length_le hcontent]
      simp [frameContent]
    rw [decodeFrame, hopen]
    simp [FrameLayout.field.read_write, FrameLayout.build_fields m hacc]

/-- Every message of an accepted kind comes back, whatever follows its frame. -/
theorem decodeFrame_encodeFrame (hacc : FrameLayout.accepts μ (FrameLayout.kind m) = true) (more : List UInt8) :
    decodeFrame μ (encodeFrame m ++ more) = some m := by
  refine decodeFrame_eq_some_iff.mpr ⟨hacc, ?_, ?_⟩
  · rw [List.length_append, length_encodeFrame]
    exact Nat.le_add_right _ _
  · rw [encodeFrame, List.append_assoc]
    exact List.prefix_append _ _

/-- Two frames that begin alike have the kind byte in common. -/
private theorem kind_eq_of_frameContent {m' : μ} (h : frameContent m' <+: frameContent m ++ bytes) :
    FrameLayout.kind m' = FrameLayout.kind m := by
  obtain ⟨more, h⟩ := h
  simp only [frameContent, List.cons_append, List.cons.injEq, true_and] at h
  exact CommandKind.code_injective h.1

/-- A message of a kind that its type does not accept is lost. -/
theorem decodeFrame_of_not_accepts (hacc : FrameLayout.accepts μ (FrameLayout.kind m) = false) (more : List UInt8) :
    decodeFrame μ (encodeFrame m ++ more) = none := by
  refine Option.eq_none_iff_forall_ne_some.mpr fun m' hm' => ?_
  obtain ⟨hacc', -, hbegins⟩ := decodeFrame_eq_some_iff.mp hm'
  rw [encodeFrame, List.append_assoc] at hbegins
  rw [kind_eq_of_frameContent hbegins, hacc] at hacc'
  cases hacc'

/-- A frame that is decoded and encoded again keeps its bytes up to the last field; zeros follow. -/
theorem encodeFrame_of_decodeFrame (h : decodeFrame μ bytes = some m) :
    encodeFrame m = bytes.take (headerSize + (FrameLayout.field (μ := μ)).width) ++
      List.replicate (frameSize - (headerSize + (FrameLayout.field (μ := μ)).width)) 0 := by
  obtain ⟨-, -, hbegins⟩ := decodeFrame_eq_some_iff.mp h
  have htake := List.prefix_iff_eq_take.mp hbegins
  rw [length_frameContent] at htake
  rw [encodeFrame, ← htake, Nat.sub_sub]

/-! ### Opening a frame agrees with the verdict on its header -/

private theorem frameKind_of_decodeFrame (h : decodeFrame μ bytes = some m) :
    frameKind bytes = .ok (FrameLayout.kind m) ∧ FrameLayout.accepts μ (FrameLayout.kind m) = true := by
  obtain ⟨hacc, hlen, more, rfl⟩ := decodeFrame_eq_some_iff.mp h
  exact ⟨frameKind_eq_ok_iff.mpr ⟨hlen, _, rfl⟩, hacc⟩

/-- A frame whose header is right and whose kind is accepted is decoded. -/
theorem isSome_decodeFrame {kind : CommandKind} (h : frameKind bytes = .ok kind)
    (hacc : FrameLayout.accepts μ kind = true) : (decodeFrame μ bytes).isSome = true := by
  obtain ⟨hlen, tail, rfl⟩ := frameKind_eq_ok_iff.mp h
  have htail : (tail.take (frameSize - 3)).length = 61 := by
    rw [List.length_take]
    exact Nat.min_eq_left (Nat.sub_le_of_le_add hlen)
  have hident : 16 ≤ (tail.take (frameSize - 3)).length := by omega
  obtain ⟨⟨id, rest⟩, hid⟩ := Option.isSome_iff_exists.mp (Field.ident.read_isSome hident)
  have hopen : openFrame (FrameLayout.accepts μ) (magicByte :: versionByte :: kind.code :: tail) =
      some (kind, id, rest) := by
    rw [openFrame_of_header hlen, CommandKind.ofCode?_code, Option.bind_some, if_pos hacc, hid, Option.bind_some]
  -- the header and the fields fit into a frame, so there are bytes enough for the fields
  have hrest : (FrameLayout.field (μ := μ)).width ≤ rest.length := by
    have hfits := FrameLayout.fits (μ := μ)
    have hread := congrArg List.length (Field.ident.write_of_read hid)
    rw [htail, List.length_append, Field.ident.length_write] at hread
    have hwidth : Field.ident.width = 16 := rfl
    simp only [headerSize, frameSize] at hfits
    omega
  obtain ⟨⟨fields, more⟩, hfields⟩ := Option.isSome_iff_exists.mp (FrameLayout.field.read_isSome hrest)
  rw [decodeFrame, hopen]
  simp [hfields]

/-- A decoder refuses exactly the byte strings whose header is wrong or of a kind that it does not accept. -/
theorem isSome_decodeFrame_iff : (decodeFrame μ bytes).isSome = true ↔
    ∃ kind, frameKind bytes = .ok kind ∧ FrameLayout.accepts μ kind = true := by
  constructor
  · intro h
    obtain ⟨m, hm⟩ := Option.isSome_iff_exists.mp h
    exact ⟨_, frameKind_of_decodeFrame hm⟩
  · rintro ⟨kind, h, hacc⟩
    exact isSome_decodeFrame h hacc

/-- A frame of a foreign type does not decode. -/
theorem decodeFrame_eq_none {kind : CommandKind} (h : frameKind bytes = .ok kind)
    (hacc : FrameLayout.accepts μ kind = false) : decodeFrame μ bytes = none := by
  refine Option.not_isSome_iff_eq_none.mp fun hsome => ?_
  obtain ⟨kind', h', hacc'⟩ := isSome_decodeFrame_iff.mp hsome
  rw [h] at h'
  cases h'
  rw [hacc] at hacc'
  cases hacc'

theorem decodeFrame_eq_none_of_error {fault : FrameFault} (h : frameKind bytes = .error fault) :
    decodeFrame μ bytes = none := by
  refine Option.not_isSome_iff_eq_none.mp fun hsome => ?_
  obtain ⟨kind, h', -⟩ := isSome_decodeFrame_iff.mp hsome
  rw [h] at h'
  cases h'

end Message

end LockService
