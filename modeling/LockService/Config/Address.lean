import LockService.Text.Blank
import LockService.Text.Decimal

/-!
# Addresses of lock servers

An entry of a host list is a host with an optional port, `lock-1`, `lock-1:7000` or `[::1]:7000`. Blanks around it do
not count. `Address.parse?` refuses an entry with an empty host, with a blank or a colon inside the host, or with a
port that is not between 1 and 65535; a host in brackets may have colons.
-/

namespace LockService

/-- Where a lock server listens when an entry names no port. -/
def defaultPort : Nat := 5658

/-- Where a lock server listens. -/
@[ext] structure Address where
  /-- The host, with its brackets if it has them. -/
  host : List Char
  port : Nat
deriving DecidableEq, Inhabited

namespace Address

/-- An address as `host:port`. -/
def text (a : Address) : String := String.ofList (a.host ++ ':' :: Nat.toDigits 10 a.port)

/-- A port in decimal, which may have a plus sign and leading zeros. -/
def port? (cs : List Char) : Option Nat :=
  let digits :=
    match cs with
    | '+' :: rest => rest
    | _ => cs
  if digits.isEmpty || !digits.all Char.isDigit then none
  else
    let port := Text.digitsValue digits
    if 1 ≤ port ∧ port ≤ 65535 then some port else none

/-- The address of a host in brackets, from behind the opening bracket on. -/
def bracketed? (cs : List Char) : Option Address :=
  let inner := cs.takeWhile (· ≠ ']')
  let host := '[' :: inner ++ [']']
  if inner.isEmpty then none
  else
    match cs.dropWhile (· ≠ ']') with
    | [_] => some ⟨host, defaultPort⟩
    | _ :: ':' :: port => (port? port).map fun p => ⟨host, p⟩
    | _ => none

/-- The address of a host without brackets. -/
def bare? (cs : List Char) : Option Address :=
  let host := cs.takeWhile (· ≠ ':')
  if host.isEmpty then none
  else
    match cs.dropWhile (· ≠ ':') with
    | [] => some ⟨host, defaultPort⟩
    | _ :: port => (port? port).map fun p => ⟨host, p⟩

/-- The address that an entry of a host list names. -/
def parse? (entry : String) : Option Address :=
  let cs := Text.trim entry.toList
  if cs.any Text.isBlank then none
  else
    match cs with
    | '[' :: rest => bracketed? rest
    | _ => bare? cs

end Address

end LockService
