import LockService.Toml.Quoted
import LockService.Toml.Scalar

/-!
# Reading a TOML document

A document is a sequence of lines: blank ones, keys with values, and headers that name the table to which the
following keys belong. Arrays and tables in braces may run over several lines and may have a comma behind their last
item; they nest at most 80 deep, and a dotted key has at most 80 names.
-/

namespace LockService.Toml

/-- How deep arrays and tables in braces may nest, and how many names a key may have. -/
def maxDepth : Nat := 80

/-- Whether a character may stand in a key without quotes. -/
def isBareKeyChar (c : Char) : Bool := c.isAlphanum || c = '_' || c = '-'

/-- One name of a key, and what follows it. -/
def name? (cs : List Char) : Option (String × List Char) :=
  match cs with
  | '"' :: rest => (basic? (rest.length + 1) rest).map fun (s, rest) => (String.ofList s, rest)
  | '\'' :: rest => (literal? rest).map fun (s, rest) => (String.ofList s, rest)
  | _ =>
    let bare := cs.takeWhile isBareKeyChar
    if bare.isEmpty then none else some (String.ofList bare, cs.dropWhile isBareKeyChar)

/-- A dotted key of at most `fuel` names: the names before the last one, the last one, and the text after the key and
the spaces behind it. -/
def key? : Nat → List Char → Option (List String × String × List Char)
  | 0, _ => none
  | fuel + 1, cs => do
    let (first, rest) ← name? (skipSpace cs)
    match skipSpace rest with
    | '.' :: rest =>
      let (path, last, rest) ← key? fuel rest
      some (first :: path, last, rest)
    | rest => some ([], first, rest)

mutual

/-- A value at the front, inside `depth` arrays and tables in braces, and what follows it. -/
def value? (fuel depth : Nat) (cs : List Char) : Option (Value × List Char) :=
  match fuel with
  | 0 => none
  | fuel + 1 =>
    match cs with
    | '[' :: rest =>
      if maxDepth ≤ depth then none
      else (items? fuel (depth + 1) rest).map fun (items, rest) => (.array items, rest)
    | '\x7b' :: rest =>
      if maxDepth ≤ depth then none
      else (pairs? fuel (depth + 1) (.header, []) rest).map fun (table, rest) => (.table .inline table.2, rest)
    | '"' :: _ | '\'' :: _ => (quotedText? cs).map fun (s, rest) => (.text s, rest)
    | _ =>
      let (scalar, rest) := scalarText cs
      (scalar? scalar).map (·, rest)

/-- The items of an array from an item or the closing bracket on. -/
def items? (fuel depth : Nat) (cs : List Char) : Option (List Value × List Char) :=
  match fuel with
  | 0 => none
  | fuel + 1 =>
    match skipFiller cs with
    | ']' :: rest => some ([], rest)
    | cs => do
      let (item, rest) ← value? fuel depth cs
      match skipFiller rest with
      | ',' :: rest =>
        let (items, rest) ← items? fuel depth rest
        some (item :: items, rest)
      | ']' :: rest => some ([item], rest)
      | _ => none

/-- The keys and values of a table in braces from a key or the closing brace on. -/
def pairs? (fuel depth : Nat) (table : Growing) (cs : List Char) : Option (Growing × List Char) :=
  match fuel with
  | 0 => none
  | fuel + 1 =>
    match skipFiller cs with
    | '\x7d' :: rest => some (table, rest)
    | cs => do
      let (path, name, rest) ← key? maxDepth cs
      let '=' :: rest := skipFiller rest | none
      let (value, rest) ← value? fuel depth (skipFiller rest)
      let table ← addValue path name value table
      match skipFiller rest with
      | ',' :: rest => pairs? fuel depth table rest
      | '\x7d' :: rest => some (table, rest)
      | _ => none

end

/-- A document while it is read: the whole table, and the path of the table to which keys belong. -/
structure Reading where
  root : Growing := (.header, [])
  current : List String := []

/-- A header after its opening bracket or brackets. -/
def header? (r : Reading) (element : Bool) (cs : List Char) : Option (Reading × List Char) := do
  let (path, name, rest) ← key? maxDepth cs
  let rest ←
    match element, rest with
    | true, ']' :: ']' :: rest => some rest
    | false, ']' :: rest => some rest
    | _, _ => none
  let root ← if element then openElement path name r.root else openTable path name r.root
  let rest ← lineEnd? rest
  some ({ root, current := path ++ [name] }, rest)

/-- A key with its value, up to the end of the line. -/
def pair? (r : Reading) (cs : List Char) : Option (Reading × List Char) := do
  let (path, name, rest) ← key? maxDepth cs
  let '=' :: rest := rest | none
  let (value, rest) ← value? (2 * cs.length) 0 (skipSpace rest)
  let root ← changeAt false (addValue path name value) r.current r.root
  let rest ← lineEnd? rest
  some ({ r with root }, rest)

/-- The lines of a document, at most `fuel` of them. -/
def lines? : Nat → Reading → List Char → Option Reading
  | 0, _, _ => none
  | fuel + 1, r, cs =>
    match skipFiller cs with
    | [] => some r
    | '#' :: rest => if (rest.dropWhile isPlain).isEmpty then some r else none
    | '[' :: '[' :: rest => do
      let (r, rest) ← header? r true rest
      lines? fuel r rest
    | '[' :: rest => do
      let (r, rest) ← header? r false rest
      lines? fuel r rest
    | cs => do
      let (r, rest) ← pair? r cs
      lines? fuel r rest

/-- The values of a document. A byte-order mark at its start is skipped. -/
def document? (source : String) : Option Entries :=
  let cs :=
    match source.toList with
    | '\ufeff' :: rest => rest
    | cs => cs
  (lines? (cs.length + 1) {} cs).map fun r => r.root.2

end LockService.Toml
