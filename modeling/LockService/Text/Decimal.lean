/-!
# Decimal text of floating-point numbers

A number is shown with the fewest digits that read back as the same number, always positionally: `0.0000001`,
`100000000000000000000000`, `1.5`. Whole numbers have no point. Reading takes a decimal text to the nearest number.
-/

namespace LockService.Text

/-- A positive rational number `num / den`. -/
structure Ratio where
  num : Nat
  den : Nat

namespace Ratio

/-- The number times `10 ^ n`. -/
def scale (r : Ratio) : Int → Ratio
  | .ofNat n => ⟨r.num * Nat.pow 10 n, r.den⟩
  | .negSucc n => ⟨r.num, r.den * Nat.pow 10 (n + 1)⟩

/-- Whether the number is less than the whole number `n`. -/
def ltNat (r : Ratio) (n : Nat) : Bool := r.num < n * r.den

/-- Whether the number is greater than the whole number `n`. -/
def gtNat (r : Ratio) (n : Nat) : Bool := n * r.den < r.num

def leadingExponent (r : Ratio) : Int :=
  if r.den ≤ r.num then (Nat.toDigits 10 (r.num / r.den)).length - 1
  else
    let shift := (Nat.toDigits 10 (r.den / r.num)).length
    if r.den ≤ r.num * Nat.pow 10 (shift - 1) then 1 - (shift : Int) else -(shift : Int)

end Ratio

/-- The numbers that are read as one floating-point number: those between `low` and `high`, where the ends belong to
it when `closed`. -/
structure Rounding where
  value : Ratio
  low : Ratio
  high : Ratio
  closed : Bool

namespace Rounding

/-- The rounding interval of `m * 2 ^ q`; below a power of two the neighbour is at half the distance. -/
def ofBinary (m : Nat) (q : Int) (narrow : Bool) : Rounding :=
  let below := if narrow then 1 else 2
  let part (n : Nat) : Ratio :=
    match q - 2 with
    | .ofNat k => ⟨n * Nat.pow 2 k, 1⟩
    | .negSucc k => ⟨n, Nat.pow 2 (k + 1)⟩
  ⟨part (4 * m), part (4 * m - below), part (4 * m + 2), m % 2 == 0⟩

def contains (r : Rounding) (n : Nat) (s : Int) : Bool :=
  let low := r.low.scale (-s)
  let high := r.high.scale (-s)
  if r.closed then !low.gtNat n && !high.ltNat n else low.ltNat n && high.gtNat n

/-- The point of the grid of multiples of `10 ^ s` that lies in the interval and next to the value. The nearer of
the two neighbours wins, the upper one when they are equally near. -/
def onGrid? (r : Rounding) (s : Int) : Option Nat :=
  let v := r.value.scale (-s)
  let lower := v.num / v.den
  let lowerFits := r.contains lower s
  let upperFits := r.contains (lower + 1) s
  if lowerFits && upperFits then
    if 2 * (v.num - lower * v.den) < v.den then some lower else some (lower + 1)
  else if lowerFits then some lower
  else if upperFits then some (lower + 1)
  else none

/-- The shortest decimal in the interval, as digits and the exponent of the last of them. -/
def shortest (r : Rounding) : Nat × Int :=
  let lead := r.value.leadingExponent
  let grids := (List.range 17).map fun (n : Nat) => lead - (n : Int)
  match grids.findSome? fun s => (r.onGrid? s).map (·, s) with
  | some found => found
  | none => (0, 0)

end Rounding

/-- `n * 10 ^ s` written positionally without superfluous zeros. -/
def positional (n : Nat) (s : Int) : String :=
  let digits := Nat.toDigits 10 n
  match s with
  | .ofNat k => String.ofList (digits ++ List.replicate k '0')
  | .negSucc k =>
    let places := k + 1
    let padded := List.replicate (places + 1 - digits.length) '0' ++ digits
    let whole := padded.take (padded.length - places)
    let fraction := ((padded.drop (padded.length - places)).reverse.dropWhile (· == '0')).reverse
    if fraction.isEmpty then String.ofList whole else String.ofList (whole ++ '.' :: fraction)

def decimal (x : Float) : String :=
  let bits := x.toBits.toNat
  let unit := Nat.pow 2 52
  let sign := if bits / (2048 * unit) = 1 then "-" else ""
  let exponent := bits / unit % 2048
  let fraction := bits % unit
  if exponent = 2047 then
    if fraction = 0 then sign ++ "inf" else "NaN"
  else if exponent = 0 ∧ fraction = 0 then sign ++ "0"
  else
    let mantissa := if exponent = 0 then fraction else unit + fraction
    let power : Int := (max exponent 1 : Nat) - 1075
    let (digits, last) := (Rounding.ofBinary mantissa power (fraction = 0 ∧ 1 < exponent)).shortest
    sign ++ positional digits last

def digitsValue (cs : List Char) : Nat := cs.foldl (fun n c => 10 * n + (c.toNat - 48)) 0

def exponent? (cs : List Char) : Option Int :=
  let (negative, digits) :=
    match cs with
    | '-' :: rest => (true, rest)
    | '+' :: rest => (false, rest)
    | _ => (false, cs)
  if digits.isEmpty || !digits.all Char.isDigit then none
  else some (if negative then -(digitsValue digits : Int) else digitsValue digits)

/-- The number nearest to `n * 10 ^ s`. Exponents beyond every number's reach are cut off first. -/
def nearest (n : Nat) (s : Int) : Float :=
  if n = 0 then 0.0
  else if 400 < s then 1.0 / 0.0
  else if s < -(400 + (Nat.toDigits 10 n).length : Int) then 0.0
  else
    match s with
    | .ofNat k => Float.ofScientific n false k
    | .negSucc k => Float.ofScientific n true (k + 1)

/-- The number nearest to an unsigned decimal text with optional fraction and exponent. -/
def unsignedFloat? (cs : List Char) : Option Float :=
  let whole := cs.takeWhile Char.isDigit
  let afterWhole := cs.dropWhile Char.isDigit
  let (fraction, afterFraction) :=
    match afterWhole with
    | '.' :: rest => (rest.takeWhile Char.isDigit, rest.dropWhile Char.isDigit)
    | rest => ([], rest)
  let power :=
    match afterFraction with
    | [] => some 0
    | e :: rest => if e = 'e' ∨ e = 'E' then exponent? rest else none
  if whole.isEmpty && fraction.isEmpty then none
  else power.map fun p => nearest (digitsValue (whole ++ fraction)) (p - fraction.length)

/-- The number that a text names: a decimal, an infinity or not-a-number, behind an optional sign. -/
def float? (text : String) : Option Float :=
  let (negative, cs) :=
    match text.toList with
    | '-' :: rest => (true, rest)
    | '+' :: rest => (false, rest)
    | cs => (false, cs)
  let magnitude :=
    match (String.ofList cs).toLower with
    | "inf" | "infinity" => some (1.0 / 0.0)
    | "nan" => some (0.0 / 0.0)
    | _ => unsignedFloat? cs
  magnitude.map fun x => if negative then -x else x

end LockService.Text
