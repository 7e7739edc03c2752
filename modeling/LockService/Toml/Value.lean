import LockService.Pending.Assoc

/-!
# Values of a TOML document

A document is a table of named values. While a document is read, tables can grow by headers and by dotted keys, and
how a table came about decides what may still be added to it (`Origin`).
-/

namespace LockService.Toml

/-- How a table came about. -/
inductive Origin where
  /-- By its own header, or as the document itself. -/
  | header
  /-- As the parent of a table that has a header. -/
  | implied
  /-- As the prefix of a dotted key. -/
  | dotted
  /-- In braces; nothing can be added to it. -/
  | inline
deriving DecidableEq

/-- A value. Numbers with a fraction and moments in time keep no more than their type. -/
inductive Value where
  | text (s : String)
  | integer (n : Int)
  | real
  | truth (b : Bool)
  | moment
  | array (items : List Value)
  | table (origin : Origin) (entries : List (String × Value))
  /-- The tables under a header in double brackets. -/
  | tables (items : List (List (String × Value)))

/-- Named values. -/
abbrev Entries := List (String × Value)

/-- A table under construction: its origin and its entries. -/
abbrev Growing := Origin × Entries

/-- Changes the table at a path, which is made where it is missing. A path of dotted keys (`dotted`) does not lead
into tables that have their own header; no path leads into a table in braces or into another value. The path leads
into the last of the tables under a header in double brackets. -/
def changeAt (dotted : Bool) (change : Growing → Option Growing) : List String → Growing → Option Growing
  | [], table => change table
  | name :: rest, (origin, entries) =>
    match Assoc.get? name entries with
    | none => do
      let (o, es) ← changeAt dotted change rest (if dotted then .dotted else .implied, [])
      some (origin, Assoc.insert name (.table o es) entries)
    | some (.table o es) =>
      if o = .inline ∨ (dotted ∧ o = .header) then none
      else do
        let (o, es) ← changeAt dotted change rest (o, es)
        some (origin, Assoc.insert name (.table o es) entries)
    | some (.tables items) =>
      match items.getLast? with
      | none => none
      | some last => do
        let (_, es) ← changeAt dotted change rest (.header, last)
        some (origin, Assoc.insert name (.tables (items.dropLast ++ [es])) entries)
    | some _ => none

/-- Adds a value under a dotted key. A key of one name adds to a table that has not grown by dotted keys, and a longer
one to a table that has; a name that is taken is refused. -/
def addValue (path : List String) (name : String) (value : Value) : Growing → Option Growing :=
  changeAt true (fun (origin, entries) =>
    if decide (origin = .dotted) = path.isEmpty then none
    else if (Assoc.get? name entries).isSome then none
    else some (origin, Assoc.insert name value entries)) path

/-- Opens the table of a header. It may exist already only as the parent of other headers. -/
def openTable (path : List String) (name : String) : Growing → Option Growing :=
  changeAt false (fun (origin, entries) =>
    match Assoc.get? name entries with
    | none => some (origin, Assoc.insert name (.table .header []) entries)
    | some (.table .implied es) => some (origin, Assoc.insert name (.table .header es) entries)
    | some _ => none) path

/-- Opens one more of the tables under a header in double brackets. -/
def openElement (path : List String) (name : String) : Growing → Option Growing :=
  changeAt false (fun (origin, entries) =>
    match Assoc.get? name entries with
    | none => some (origin, Assoc.insert name (.tables [[]]) entries)
    | some (.tables items) => some (origin, Assoc.insert name (.tables (items ++ [[]])) entries)
    | some _ => none) path

end LockService.Toml
