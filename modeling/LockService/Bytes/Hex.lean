/-!
# Hexadecimal text

Bytes are shown as two lowercase digits each. Reading accepts both letter cases; what is written reads back
(`Hex.decode?_encode`).
-/

namespace LockService.Hex

/-- The lowercase digit of a value below sixteen. -/
def digit (n : Nat) : Char := if n < 10 then Char.ofNat (48 + n) else Char.ofNat (87 + n)

/-- The value of a hexadecimal digit of either case. -/
def digitValue? (c : Char) : Option Nat :=
  if '0' ≤ c ∧ c ≤ '9' then some (c.toNat - 48)
  else if 'a' ≤ c ∧ c ≤ 'f' then some (c.toNat - 87)
  else if 'A' ≤ c ∧ c ≤ 'F' then some (c.toNat - 55)
  else none

/-- The two digits of a byte. -/
def ofByte (b : UInt8) : List Char := [digit (b.toNat / 16), digit (b.toNat % 16)]

/-- The digits of a byte string. -/
def encode (bytes : List UInt8) : List Char := bytes.flatMap ofByte

/-- The byte string with the given digits; an odd count or a foreign character is refused. -/
def decode? : List Char → Option (List UInt8)
  | [] => some []
  | [_] => none
  | high :: low :: rest => do
    let h ← digitValue? high
    let l ← digitValue? low
    let bytes ← decode? rest
    some (UInt8.ofNat (16 * h + l) :: bytes)

def text (bytes : List UInt8) : String := String.ofList (encode bytes)

/-- A number in hexadecimal, as many digits as it needs. -/
def ofNat (n : Nat) : String := String.ofList (Nat.toDigits 16 n)

/-- A number in hexadecimal behind leading zeros up to `width` digits. -/
def padded (width n : Nat) : String :=
  let digits := Nat.toDigits 16 n
  String.ofList (List.replicate (width - digits.length) '0' ++ digits)

theorem digitValue?_digit : ∀ n < 16, digitValue? (digit n) = some n := by decide

theorem decode?_encode (bytes : List UInt8) : decode? (encode bytes) = some bytes := by
  induction bytes with
  | nil => rfl
  | cons b rest ih =>
    have hb := b.toNat_lt
    have hhigh := digitValue?_digit (b.toNat / 16) (by omega)
    have hlow := digitValue?_digit (b.toNat % 16) (by omega)
    have ih' : decode? (rest.flatMap ofByte) = some rest := ih
    simp only [encode, List.flatMap_cons, ofByte, List.cons_append, List.nil_append, decode?, hhigh, hlow, ih',
      Option.bind_eq_bind, Option.bind_some, Option.some.injEq, List.cons.injEq, and_true]
    rw [show 16 * (b.toNat / 16) + b.toNat % 16 = b.toNat by omega]
    simp

end LockService.Hex
