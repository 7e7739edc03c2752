import LockService.Bytes.Hex
import LockService.Toml.Blank

/-!
# Quoted text in a TOML document

Text in double quotes has escapes, text in single quotes has none; in triple quotes either may run over several
lines. A backslash at the end of a line in triple double quotes skips the blanks up to the next word.
-/

namespace LockService.Toml

/-- A character by its number in hexadecimal; surrogates and numbers beyond the last character are refused. -/
def charOfHex? (digits : List Char) : Option Char := do
  let values ← digits.mapM Hex.digitValue?
  let n := values.foldl (fun n d => 16 * n + d) 0
  if h : n.isValidChar then some (Char.ofNatAux n h) else none

/-- The character of an escape after its backslash, and the text behind it. -/
def escape? : List Char → Option (Char × List Char)
  | 'b' :: rest => some ('\x08', rest)
  | 't' :: rest => some ('\t', rest)
  | 'n' :: rest => some ('\n', rest)
  | 'f' :: rest => some ('\x0c', rest)
  | 'r' :: rest => some ('\r', rest)
  | 'e' :: rest => some ('\x1b', rest)
  | '"' :: rest => some ('"', rest)
  | '\\' :: rest => some ('\\', rest)
  | 'x' :: rest => if rest.length < 2 then none else (charOfHex? (rest.take 2)).map (·, rest.drop 2)
  | 'u' :: rest => if rest.length < 4 then none else (charOfHex? (rest.take 4)).map (·, rest.drop 4)
  | 'U' :: rest => if rest.length < 8 then none else (charOfHex? (rest.take 8)).map (·, rest.drop 8)
  | _ => none

/-- The text in double quotes after the opening quote, and what follows the closing one. -/
def basic? : Nat → List Char → Option (List Char × List Char)
  | 0, _ => none
  | _ + 1, [] => none
  | fuel + 1, c :: rest =>
    if c = '"' then some ([], rest)
    else if c = '\\' then do
      let (e, rest) ← escape? rest
      let (s, rest) ← basic? fuel rest
      some (e :: s, rest)
    else if isPlain c then do
      let (s, rest) ← basic? fuel rest
      some (c :: s, rest)
    else none

/-- The text in single quotes after the opening quote, and what follows the closing one. -/
def literal? : List Char → Option (List Char × List Char)
  | [] => none
  | c :: rest =>
    if c = '\'' then some ([], rest)
    else if isPlain c then do
      let (s, rest) ← literal? rest
      some (c :: s, rest)
    else none

/-- The end of text in triple quotes: up to two further quotes before the closing ones belong to the text. -/
def tripleEnd? (quote : Char) (cs : List Char) : Option (List Char × List Char) :=
  let run := (cs.takeWhile (· = quote)).length
  if run < 3 then none
  else
    let own := min 2 (run - 3)
    some (List.replicate own quote, cs.drop (own + 3))

/-- The text after a backslash that ends its line, and after the blanks that follow. -/
def continued? (cs : List Char) : Option (List Char) := (newline? (skipSpace cs)).map skipBlanks

/-- The text in triple double quotes after the opening quotes, and what follows the closing ones. -/
def tripleBasic? : Nat → List Char → Option (List Char × List Char)
  | 0, _ => none
  | _ + 1, [] => none
  | fuel + 1, c :: rest =>
    match tripleEnd? '"' (c :: rest) with
    | some (s, rest) => some (s, rest)
    | none =>
      if c = '\\' then
        match continued? rest with
        | some rest => tripleBasic? fuel rest
        | none => do
          let (e, rest) ← escape? rest
          let (s, rest) ← tripleBasic? fuel rest
          some (e :: s, rest)
      else if isPlain c || c = '\n' || (c = '\r' && rest.head? = some '\n') then do
        let (s, rest) ← tripleBasic? fuel rest
        some (c :: s, rest)
      else none

/-- The text in triple single quotes after the opening quotes, and what follows the closing ones. -/
def tripleLiteral? : List Char → Option (List Char × List Char)
  | [] => none
  | c :: rest =>
    match tripleEnd? '\'' (c :: rest) with
    | some (s, rest) => some (s, rest)
    | none =>
      if isPlain c || c = '\n' || (c = '\r' && rest.head? = some '\n') then do
        let (s, rest) ← tripleLiteral? rest
        some (c :: s, rest)
      else none

/-- The text after a line end that directly follows opening triple quotes. -/
def skipFirstLineEnd (cs : List Char) : List Char := (newline? cs).getD cs

/-- Quoted text of any form at the front, and what follows it. -/
def quotedText? : List Char → Option (String × List Char)
  | '"' :: '"' :: '"' :: rest =>
    (tripleBasic? (rest.length + 1) (skipFirstLineEnd rest)).map fun (s, rest) => (String.ofList s, rest)
  | '\'' :: '\'' :: '\'' :: rest =>
    (tripleLiteral? (skipFirstLineEnd rest)).map fun (s, rest) => (String.ofList s, rest)
  | '"' :: rest => (basic? (rest.length + 1) rest).map fun (s, rest) => (String.ofList s, rest)
  | '\'' :: rest => (literal? rest).map fun (s, rest) => (String.ofList s, rest)
  | _ => none

end LockService.Toml
