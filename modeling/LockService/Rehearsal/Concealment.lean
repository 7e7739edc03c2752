import LockService.Bytes.Hex
import LockService.Wire.Ident

/-!
# Concealed identifiers

Drawn identifiers differ from run to run. A text that is to be compared shows the word `generated` in their place.
-/

namespace LockService

def Ident.ofHex? (digits : List Char) : Option Ident := do
  let bytes ← Hex.decode? digits
  let block ← Block.ofList? bytes
  some ⟨block⟩

/-- The text for an identifier, which hides one drawn around the instant `now`. -/
def Ident.concealed (id : Ident) (now : Nat) : String := if id.isRecent now then "generated" else id.text

/-- A text that begins with the digits of an identifier and a closing parenthesis, with a drawn identifier hidden. -/
def concealLeading (now : Nat) (text : String) : String :=
  let cs := text.toList
  match Ident.ofHex? (cs.take 32), cs.drop 32 with
  | some id, ')' :: rest => String.ofList ((id.concealed now).toList ++ ')' :: rest)
  | _, _ => text

/-- A text in which the descriptions of drawn identifiers hide them. -/
def concealDrawn (now : Nat) (text : String) : String :=
  match text.splitOn "Ident(" with
  | [] => text
  | first :: rest => String.intercalate "Ident(" (first :: rest.map (concealLeading now))

end LockService
