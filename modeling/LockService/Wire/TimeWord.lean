import LockService.Time.Span

/-!
# Time words

The timeout and expire fields of a lock request are words of 32 bits: a number in the low half and modifier flags in
the high half. `pack`, `value` and `modifiers` build and split them.
-/

namespace LockService

/-- A packed timeout or expire field. -/
@[ext] structure TimeWord where
  bits : UInt32
deriving DecidableEq, Inhabited

namespace TimeWord

def pack (value modifiers : UInt16) : TimeWord := ⟨UInt32.ofNat (modifiers.toNat * 65536 + value.toNat)⟩

/-- The number in the low half. -/
def value (word : TimeWord) : UInt16 := UInt16.ofNat (word.bits.toNat % 65536)

/-- The modifier flags in the high half. -/
def modifiers (word : TimeWord) : UInt16 := UInt16.ofNat (word.bits.toNat / 65536)

/-- The word with further modifier flags set and the same number. -/
def withModifiers (word : TimeWord) (extra : UInt16) : TimeWord := pack word.value (word.modifiers ||| extra)

def seconds (n : UInt16) : TimeWord := pack n 0

/-- Whether the word's modifiers meet the given flags. -/
def has (word : TimeWord) (flags : UInt16) : Bool := word.modifiers &&& flags != 0

@[simp] theorem value_pack (value modifiers : UInt16) : (pack value modifiers).value = value := by
  have hv := value.toNat_lt
  have hm := modifiers.toNat_lt
  apply UInt16.toNat_inj.mp
  simp only [pack, TimeWord.value, UInt16.toNat_ofNat', UInt32.toNat_ofNat']
  omega

@[simp] theorem modifiers_pack (value modifiers : UInt16) : (pack value modifiers).modifiers = modifiers := by
  have hv := value.toNat_lt
  have hm := modifiers.toNat_lt
  apply UInt16.toNat_inj.mp
  simp only [pack, TimeWord.modifiers, UInt16.toNat_ofNat', UInt32.toNat_ofNat']
  omega

theorem pack_value_modifiers (word : TimeWord) : pack word.value word.modifiers = word := by
  have h := word.bits.toNat_lt
  refine TimeWord.ext (UInt32.toNat_inj.mp ?_)
  simp only [pack, value, modifiers, UInt16.toNat_ofNat', UInt32.toNat_ofNat']
  omega

theorem toNat_bits_pack (value modifiers : UInt16) :
    (pack value modifiers).bits.toNat = modifiers.toNat <<< 16 ||| value.toNat := by
  have hv := value.toNat_lt
  have hm := modifiers.toNat_lt
  rw [← Nat.shiftLeft_add_eq_or_of_lt hv, Nat.shiftLeft_eq, pack, UInt32.toNat_ofNat']
  omega

@[simp] theorem value_withModifiers (word : TimeWord) (extra : UInt16) :
    (word.withModifiers extra).value = word.value := by
  simp [withModifiers]

@[simp] theorem modifiers_withModifiers (word : TimeWord) (extra : UInt16) :
    (word.withModifiers extra).modifiers = word.modifiers ||| extra := by
  simp [withModifiers]

theorem bits_withModifiers (word : TimeWord) (extra : UInt16) :
    (word.withModifiers extra).bits = word.bits ||| extra.toUInt32 <<< 16 := by
  have hextra : (extra.toUInt32 <<< 16).toNat = extra.toNat <<< 16 := by
    have he := extra.toNat_lt
    rw [UInt32.toNat_shiftLeft, UInt16.toNat_toUInt32, Nat.shiftLeft_eq, Nat.shiftLeft_eq]
    simp
    omega
  have hword : word.bits.toNat = word.modifiers.toNat <<< 16 ||| word.value.toNat := by
    rw [← toNat_bits_pack, pack_value_modifiers]
  rw [← UInt32.toNat_inj, UInt32.toNat_or, hextra, hword, withModifiers, toNat_bits_pack, UInt16.toNat_or,
    Nat.shiftLeft_or_distrib, Nat.or_assoc, Nat.or_assoc, Nat.or_comm word.value.toNat]

end TimeWord

/-! ### Modifier flags of the timeout field -/

namespace TimeoutFlag

def pushSubscribe : UInt16 := 0x0020
/-- The number counts minutes. -/
def minutes : UInt16 := 0x0040
/-- The request waits until the key is held, not until it is free. -/
def reverseWait : UInt16 := 0x0080
/-- The re-entry byte of the request is a priority among waiters. -/
def reentryIsPriority : UInt16 := 0x0100
/-- The number counts milliseconds. -/
def millis : UInt16 := 0x0400
def logOnTimeout : UInt16 := 0x0800
def requireAck : UInt16 := 0x1000
def updateKeepsTimeout : UInt16 := 0x2000
/-- A holder with a higher version in its identifier counts as success. -/
def newerVersionSucceeds : UInt16 := 0x4000
def keepAlive : UInt16 := 0x8000

/-- All timeout flags, lowest first. -/
def all : List UInt16 :=
  [pushSubscribe, minutes, reverseWait, reentryIsPriority, millis, logOnTimeout, requireAck, updateKeepsTimeout,
    newerVersionSucceeds, keepAlive]

end TimeoutFlag

/-! ### Modifier flags of the expire field -/

namespace ExpireFlag

def pushSubscribe : UInt16 := 0x0020
/-- The number counts minutes. -/
def minutes : UInt16 := 0x0040
def unlimited : UInt16 := 0x0080
/-- The number counts milliseconds. -/
def millis : UInt16 := 0x0400
def logOnExpiry : UInt16 := 0x0800
def zeroLogTime : UInt16 := 0x1000
def updateKeepsExpiry : UInt16 := 0x2000
def unlimitedLogTime : UInt16 := 0x4000
def keepAlive : UInt16 := 0x8000

/-- All expire flags, lowest first. -/
def all : List UInt16 :=
  [pushSubscribe, minutes, unlimited, millis, logOnExpiry, zeroLogTime, updateKeepsExpiry, unlimitedLogTime,
    keepAlive]

end ExpireFlag

/-- How long a timeout word lets the service hold a request back. Milliseconds win over minutes. -/
def TimeWord.waitSpan (word : TimeWord) : Span :=
  if word.has TimeoutFlag.millis then Span.ofMillis word.value.toNat
  else if word.has TimeoutFlag.minutes then Span.ofSeconds (word.value.toNat * 60)
  else Span.ofSeconds word.value.toNat

end LockService
