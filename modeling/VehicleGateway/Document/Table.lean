import VehicleGateway.Document

/-!
# Tables under construction

A written document adds to its tables in several places: under headers, by keys with dots, and
inside closed values.  A table is defined only once, and what was closed stays closed.
-/

namespace VehicleGateway.Document

/-- Whether a table exists only because of what is inside it. -/
def TableForm.implicit : TableForm → Bool
  | .implied | .dotted => true
  | _ => false

/-- Changes the table at a path below a table; tables that are missing come into being.  A path of
dots passes only through tables that came into being that way, any other also through the last
table of a growing list. -/
def change (dots : Bool) (f : Document → Option Document) :
    List String → Document → Option Document
  | [], d => f d
  | key :: rest, .table form entries =>
    let fresh : Document := .table (if dots then .dotted else .implied) []
    match (lookup key entries).getD fresh with
    | .table form' entries' =>
      if dots && !TableForm.implicit form' || form' = .closed then none
      else (change dots f rest (.table form' entries')).map fun d => .table form (put key d entries)
    | .list true items =>
      match items.getLast? with
      | none => none
      | some last =>
        (change dots f rest last).map fun d =>
          .table form (put key (.list true (items.dropLast ++ [d])) entries)
    | _ => none
  | _, _ => none

/-- Adds an entry that is new.  A key with dots adds to a table that dots have made, and one without
to any other. -/
def addEntry (dots : Bool) (key : String) (value : Document) : Document → Option Document
  | .table form entries =>
    if (form = .dotted) != dots then none
    else match lookup key entries with
      | some _ => none
      | none => some (.table form (entries ++ [(key, value)]))
  | _ => none

/-- Adds the value of a key, which may have dots, to a table. -/
def addValue (path : List String) (value : Document) (d : Document) : Option Document :=
  match path.getLast? with
  | none => none
  | some key =>
    let parents := path.dropLast
    change true (addEntry (!parents.isEmpty) key value) parents d

/-- A document under construction: all tables but one, and that one with its place. -/
structure Draft where
  root : Document := .table .headed []
  current : Document := .table .headed []
  /-- The place of the current table; the root has none. -/
  path : List String := []
  /-- Whether the current table joins a growing list. -/
  joins : Bool := false

namespace Draft

/-- Puts the current table in its place. -/
def close (d : Draft) : Option Document :=
  match d.path.getLast? with
  | none => some d.current
  | some key =>
    let place : Document → Option Document
      | .table form entries =>
        if d.joins then
          match lookup key entries with
          | some (.list true items) =>
            some (.table form (put key (.list true (items ++ [d.current])) entries))
          | none => some (.table form (put key (.list true [d.current]) entries))
          | some _ => none
        else match lookup key entries with
          | none => some (.table form (put key d.current entries))
          | some _ => none
      | _ => none
    change false place d.path.dropLast d.root

/-- Begins the table of a header.  It may have come into being by the header of a table inside. -/
def begin (d : Draft) (path : List String) : Option Draft := do
  let root ← d.close
  let key ← path.getLast?
  let present ← change false some path.dropLast root
  let find : Document → Option (Option Document)
    | .table _ entries => some (lookup key entries)
    | _ => none
  let entry ← locate path.dropLast present find
  match entry with
  | none => some { root := present, current := .table .headed [], path }
  -- So far it was there for the sake of the tables inside it.
  | some (.table .implied entries) =>
    let root' ← change false (fun
      | .table form es => some (.table form (remove key es))
      | _ => none) path.dropLast present
    some { root := root', current := .table .headed entries, path }
  | some _ => none
where
  /-- Looks at the table at a path that exists. -/
  locate {α : Type} : List String → Document → (Document → Option α) → Option α
    | [], d, f => f d
    | key :: rest, .table _ entries, f =>
      match lookup key entries with
      | some (.list true items) => (items.getLast?).bind fun last => locate rest last f
      | some d => locate rest d f
      | none => none
    | _, _, _ => none

/-- Begins a further table of a growing list. -/
def extend (d : Draft) (path : List String) : Option Draft := do
  let root ← d.close
  let key ← path.getLast?
  let root' ← change false (fun
    | .table form entries =>
      match lookup key entries with
      | none | some (.list true _) => some (.table form entries)
      | some _ => none
    | _ => none) path.dropLast root
  some { root := root', path, joins := true }

/-- Adds a value to the current table. -/
def add (d : Draft) (path : List String) (value : Document) : Option Draft :=
  (addValue path value d.current).map fun current => { d with current }

end Draft
end VehicleGateway.Document
