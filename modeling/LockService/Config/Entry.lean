import LockService.Config.Address

/-!
# Host entries

How an entry of a host list spells the address that it names (`Address.Names`), and the one text among all that name
an address which spells the port out and as short as possible (`Address.IsNormal`).
-/

namespace LockService

/-- Decimal digits of a number. -/
structure Text.IsDecimal (cs : List Char) (n : Nat) : Prop where
  nonempty : cs ≠ []
  digits : ∀ c ∈ cs, c.isDigit = true
  value : Nat.ofDigitChars 10 cs 0 = n

namespace Address

/-- A host: anything but a closing bracket between brackets, or anything but a colon that does not begin with a
bracket. -/
inductive IsHost : List Char → Prop where
  | bracketed {inner : List Char} (nonempty : inner ≠ []) (closes : ']' ∉ inner) : IsHost ('[' :: inner ++ [']'])
  | bare {host : List Char} (nonempty : host ≠ []) (opens : host.head? ≠ some '[') (colon : ':' ∉ host) : IsHost host

/-- A port: decimal digits of a number from 1 to 65535, which may stand behind a plus sign. -/
structure SpellsPort (cs : List Char) (port : Nat) : Prop where
  decimal : ∃ digits, (cs = digits ∨ cs = '+' :: digits) ∧ Text.IsDecimal digits port
  bounds : 1 ≤ port ∧ port ≤ 65535

/-- What stands behind a host: nothing for the default port, or a colon and a port. -/
inductive SpellsTail : List Char → Nat → Prop where
  | absent : SpellsTail [] defaultPort
  | present {cs : List Char} {port : Nat} (spells : SpellsPort cs port) : SpellsTail (':' :: cs) port

/-- A text consists of the host of an address and of what spells its port. -/
structure Spells (cs : List Char) (a : Address) : Prop where
  host : IsHost a.host
  tail : ∃ tail, cs = a.host ++ tail ∧ SpellsTail tail a.port

/-- An entry spells an address without white space, but there may be any before and after it. -/
def Names (entry : String) (a : Address) : Prop :=
  ∃ before cs after, entry.toList = before ++ cs ++ after ∧ (∀ c ∈ before, Text.isBlank c = true) ∧
    (∀ c ∈ after, Text.isBlank c = true) ∧ (∀ c ∈ cs, Text.isBlank c = false) ∧ Spells cs a

/-- A text is the host of an address, a colon, and the port in decimal without a sign and without leading zeros. -/
def IsNormal (a : Address) (t : String) : Prop :=
  ∃ digits, t.toList = a.host ++ ':' :: digits ∧ Text.IsDecimal digits a.port ∧ digits.head? ≠ some '0'

/-- The normal form of an entry that names an address. -/
def normalForm? (entry : String) : Option String := (parse? entry).map text

end Address

end LockService
