import LockService.Bytes.Hex
import LockService.Text.Decimal
import LockService.Toml.Value

/-!
# Unquoted values of a TOML document

Truth values, whole numbers in four bases, numbers with a fraction or an exponent, infinities, and moments in time.
Whole numbers reach from -2¹²⁷ up to 2¹²⁸; a number with a fraction must not be too large for a floating-point
number of 64 bits.
-/

namespace LockService.Toml

/-- Digits with single underscores between them, without the underscores. -/
def groupedDigits? (isDigit : Char → Bool) : List Char → Option (List Char)
  | [] => none
  | [c] => if isDigit c then some [c] else none
  | c :: '_' :: rest => if isDigit c then (groupedDigits? isDigit rest).map (c :: ·) else none
  | c :: rest => if isDigit c then (groupedDigits? isDigit rest).map (c :: ·) else none

/-- Decimal digits without a superfluous leading zero. -/
def wholeDigits? (cs : List Char) : Option (List Char) :=
  match groupedDigits? Char.isDigit cs with
  | some ('0' :: _ :: _) => none
  | digits => digits

def valueIn (base : Nat) (digits : List Char) : Nat :=
  digits.foldl (fun n c => base * n + (Hex.digitValue? c).getD 0) 0

def isDigitOf (base : Nat) (c : Char) : Bool := (Hex.digitValue? c).any fun d => decide (d < base)

/-- A whole number, unless it is out of range. -/
def integer? (n : Int) : Option Value :=
  if -(Nat.pow 2 127 : Int) ≤ n ∧ n < Nat.pow 2 128 then some (.integer n) else none

/-- A number in another base than ten. -/
def based? (base : Nat) (cs : List Char) : Option Value :=
  (groupedDigits? (isDigitOf base) cs).bind fun digits => integer? (valueIn base digits)

/-- A number with a fraction or an exponent, without its sign. -/
def real? (cs : List Char) : Option Value := do
  let isExponent := fun c : Char => c = 'e' || c = 'E'
  let mantissa := cs.takeWhile (!isExponent ·)
  let exponent := cs.dropWhile (!isExponent ·)
  let whole ← wholeDigits? (mantissa.takeWhile (· ≠ '.'))
  let fraction ←
    match mantissa.dropWhile (· ≠ '.') with
    | [] => some []
    | _ :: rest => groupedDigits? Char.isDigit rest
  let power ←
    match exponent with
    | [] => some 0
    | _ :: '-' :: rest => (groupedDigits? Char.isDigit rest).map fun digits => -(valueIn 10 digits : Int)
    | _ :: '+' :: rest => (groupedDigits? Char.isDigit rest).map fun digits => (valueIn 10 digits : Int)
    | _ :: rest => (groupedDigits? Char.isDigit rest).map fun digits => (valueIn 10 digits : Int)
  if (Text.nearest (valueIn 10 (whole ++ fraction)) (power - fraction.length)).isFinite then some .real else none

/-- A decimal number without its sign. -/
def decimal? (negative : Bool) (cs : List Char) : Option Value :=
  match cs with
  | ['i', 'n', 'f'] | ['n', 'a', 'n'] => some .real
  | _ =>
    if cs.any fun c => c = '.' || c = 'e' || c = 'E' then real? cs
    else (wholeDigits? cs).bind fun digits =>
      integer? (if negative then -(valueIn 10 digits : Int) else valueIn 10 digits)

/-- A number of exactly `count` decimal digits at the front. -/
def fixedDigits? (count : Nat) (cs : List Char) : Option (Nat × List Char) :=
  let digits := cs.take count
  if digits.length = count ∧ digits.all Char.isDigit then some (valueIn 10 digits, cs.drop count) else none

def daysIn (year month : Nat) : Nat :=
  if month = 2 then if year % 4 = 0 ∧ (year % 100 ≠ 0 ∨ year % 400 = 0) then 29 else 28
  else if month = 4 ∨ month = 6 ∨ month = 9 ∨ month = 11 then 30
  else 31

/-- The text after a date at its front. -/
def date? (cs : List Char) : Option (List Char) := do
  let (year, cs) ← fixedDigits? 4 cs
  let '-' :: cs := cs | none
  let (month, cs) ← fixedDigits? 2 cs
  let '-' :: cs := cs | none
  let (day, cs) ← fixedDigits? 2 cs
  if 1 ≤ month ∧ month ≤ 12 ∧ 1 ≤ day ∧ day ≤ daysIn year month then some cs else none

/-- The text after a time of day at its front; seconds and their fraction may be absent. -/
def time? (cs : List Char) : Option (List Char) := do
  let (hour, cs) ← fixedDigits? 2 cs
  let ':' :: cs := cs | none
  let (minute, cs) ← fixedDigits? 2 cs
  if 23 < hour ∨ 59 < minute then none
  match cs with
  | ':' :: cs =>
    let (second, cs) ← fixedDigits? 2 cs
    if 60 < second then none
    match cs with
    | '.' :: cs =>
      if (cs.takeWhile Char.isDigit).isEmpty then none
      some (cs.dropWhile Char.isDigit)
    | cs => some cs
  | cs => some cs

/-- Whether a text is nothing or an offset from universal time. -/
def isOffset : List Char → Bool
  | [] | ['Z'] | ['z'] => true
  | sign :: cs =>
    if sign = '+' ∨ sign = '-' then
      match fixedDigits? 2 cs with
      | some (hours, ':' :: cs) =>
        match fixedDigits? 2 cs with
        | some (minutes, []) => hours ≤ 23 && minutes ≤ 59
        | _ => false
      | _ => false
    else false

/-- A moment in time: a date, a time of day, or both with an optional offset. -/
def moment? (cs : List Char) : Option Value :=
  match date? cs with
  | some [] => some .moment
  | some (c :: rest) =>
    if c = 'T' ∨ c = 't' ∨ c = ' ' then
      match time? rest with
      | some offset => if isOffset offset then some .moment else none
      | none => none
    else none
  | none => if time? cs = some [] then some .moment else none

/-- The value of an unquoted text. -/
def scalar? : List Char → Option Value
  | ['t', 'r', 'u', 'e'] => some (.truth true)
  | ['f', 'a', 'l', 's', 'e'] => some (.truth false)
  | '+' :: rest => decimal? false rest
  | '-' :: rest => decimal? true rest
  | '0' :: 'x' :: rest => based? 16 rest
  | '0' :: 'o' :: rest => based? 8 rest
  | '0' :: 'b' :: rest => based? 2 rest
  | cs => (decimal? false cs).or (moment? cs)

/-- Whether a character belongs to an unquoted value. -/
def isScalarChar (c : Char) : Bool :=
  !(c = ' ' || c = '\t' || c = '\n' || c = '\r' || c = ',' || c = '[' || c = ']' || c = '\x7b' || c = '\x7d'
    || c = '#' || c = '=' || c = '"' || c = '\'')

/-- The text of an unquoted value at the front, and what follows it. A date can be followed by a space and a time. -/
def scalarText (cs : List Char) : List Char × List Char :=
  let first := cs.takeWhile isScalarChar
  let rest := cs.dropWhile isScalarChar
  match rest with
  | ' ' :: c :: more =>
    if c.isDigit && date? first = some [] then
      (first ++ ' ' :: (c :: more).takeWhile isScalarChar, (c :: more).dropWhile isScalarChar)
    else (first, rest)
  | _ => (first, rest)

end LockService.Toml
