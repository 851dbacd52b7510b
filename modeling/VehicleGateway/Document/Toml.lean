import VehicleGateway.Document.Table
import VehicleGateway.Document.Toml.Number

/-!
# Documents in TOML

`read` gives the tree of a text, or nothing if the text is not TOML.
-/

namespace VehicleGateway.Toml

/-- The items of a list up to its closing bracket.  A comma may stand after the last one. -/
def listItems (value : Reader Document) : (fuel : Nat) → Reader (List Document)
  | 0, _ => none
  | fuel + 1, cs =>
    match skipLines cs.length cs with
    | ']' :: rest => some ([], rest)
    | cs' => do
      let (item, rest) ← value cs'
      match skipLines rest.length rest with
      | ']' :: rest' => some ([item], rest')
      | ',' :: rest' =>
        let (more, rest'') ← listItems value fuel rest'
        some (item :: more, rest'')
      | _ => none

/-- One key with its value. -/
def keyValue (value : Reader Document) (cs : List Char) :
    Option ((List String × Document) × List Char) := do
  let (path, rest) ← key cs
  match rest with
  | '=' :: rest' =>
    let (v, rest'') ← value (skipBlanks rest')
    some ((path, v), rest'')
  | _ => none

/-- The entries of a table on one line, after the first. -/
def tableEntries (value : Reader Document) :
    (fuel : Nat) → Document → Reader Document
  | 0, _, _ => none
  | fuel + 1, d, cs => do
    let ((path, v), rest) ← keyValue value cs
    let d' ← Document.addValue path v d
    match skipBlanks rest with
    | '\x7d' :: rest' => some (d', rest')
    | ',' :: rest' => tableEntries value fuel d' rest'
    | _ => none

/-- Closes a table that was written on one line. -/
def closed : Document → Document
  | .table _ entries => .table .closed entries
  | d => d

/-- A value, in which lists and tables are nested at most `depth` deep. -/
def value : (depth : Nat) → Reader Document
  | depth, cs =>
    match cs with
    | '"' :: _ | '\'' :: _ => (string cs).map fun (s, rest) => (.text s, rest)
    | 't' :: 'r' :: 'u' :: 'e' :: rest => some (.bool true, rest)
    | 'f' :: 'a' :: 'l' :: 's' :: 'e' :: rest => some (.bool false, rest)
    | '[' :: rest =>
      match depth with
      | 0 => none
      | depth + 1 =>
        (listItems (value depth) (rest.length + 1) rest).map fun (items, r) =>
          (Document.array items, r)
    | '\x7b' :: rest =>
      match depth with
      | 0 => none
      | depth + 1 =>
        match skipBlanks rest with
        | '\x7d' :: rest' => some (Document.object [], rest')
        | rest' =>
          (tableEntries (value depth) (rest'.length + 1) (.table .headed []) rest').map
            fun (d, r) => (closed d, r)
    | _ => scalar cs

/-- A header, after its first bracket: the path of a table, or of a growing list. -/
def header (cs : List Char) : Option ((Bool × List String) × List Char) :=
  match cs with
  | '[' :: rest => do
    let (path, rest) ← key rest
    match rest with
    | ']' :: ']' :: rest' => some ((true, path), rest')
    | _ => none
  | _ => do
    let (path, rest) ← key cs
    match rest with
    | ']' :: rest' => some ((false, path), rest')
    | _ => none

/-- Reads line after line into a draft. -/
def lines : (fuel : Nat) → Document.Draft → List Char → Option Document
  | 0, _, _ => none
  | fuel + 1, draft, cs =>
    match skipBlanks cs with
    | [] => draft.close
    | '#' :: _ => do lines fuel draft (← endLine? cs)
    | '\n' :: _ | '\r' :: _ => do lines fuel draft (← endLine? cs)
    | '[' :: rest => do
      let ((growing, path), rest) ← header rest
      let rest ← endLine? rest
      let draft ← if growing then draft.extend path else draft.begin path
      lines fuel draft rest
    | cs' => do
      -- The table of the line is a level of its own.
      let ((path, v), rest) ← keyValue (value (depthLimit - 1)) cs'
      let rest ← endLine? rest
      lines fuel (← draft.add path v) rest

/-- The document that a text spells.  A byte order mark may stand in front. -/
def read (text : String) : Option Document :=
  let cs := match text.toList with
    | '\ufeff' :: rest => rest
    | cs => cs
  lines (cs.length + 1) {} cs

end VehicleGateway.Toml
