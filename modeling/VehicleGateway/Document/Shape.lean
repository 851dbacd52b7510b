import VehicleGateway.Document

/-!
# Reading values out of documents

A record can be written as a table, or as a list of its fields in order; entries that are not fields
are ignored.  A choice is written as its name, or as a table with only that name in it.  The two
notations differ in small things: which lists may be too long, and what stands beside a lone name.
-/

namespace VehicleGateway

/-- The notation in which a document was written. -/
inductive Notation where
  | toml
  | json
  deriving DecidableEq, Repr

namespace Document

/-- The fields of a record: where they are found by name. -/
abbrev Fields := String → Option Document

/-- The items of a list under the names of the fields. -/
def byPosition (names : List String) (items : List Document) : Fields := fun name =>
  lookup name (names.zip items)

/-- The fields of a record with the names given.  A date counts as a record without any. -/
def fields (surplus : Bool) (names : List String) : Document → Option Fields
  | .table _ entries => some fun name => lookup name entries
  | .stamp => some fun _ => none
  | .list _ items =>
    if !surplus && names.length < items.length then none else some (byPosition names items)
  | _ => none

/-- Whether a notation lets the list of a record be too long. -/
def allowsSurplus : Notation → Bool
  | .toml => true
  | .json => false

/-- A field that has to be there. -/
def required {α : Type} (f : Fields) (name : String) (read : Document → Option α) : Option α :=
  (f name).bind read

/-- A field with a default. -/
def optional {α : Type} (f : Fields) (name : String) (read : Document → Option α) (d : α) :
    Option α :=
  match f name with
  | none => some d
  | some v => read v

/-- A number below a bound. -/
def natBelow (bound : Nat) : Document → Option Nat
  | .int n => if 0 ≤ n ∧ n < bound then some n.toNat else none
  | _ => none

/-- A number of 64 bits. -/
def natural : Document → Option Nat := natBelow 0x10000000000000000

/-- A number of 32 bits. -/
def word : Document → Option UInt32 := fun d => (natBelow 0x100000000 d).map .ofNat

/-- A number of 8 bits. -/
def byte : Document → Option UInt8 := fun d => (natBelow 0x100 d).map .ofNat

/-- A truth value. -/
def truth : Document → Option Bool
  | .bool b => some b
  | _ => none

/-- A text. -/
def string : Document → Option String
  | .text s => some s
  | _ => none

/-- A text, or nothing. -/
def maybeString : Document → Option (Option String)
  | .null => some none
  | .text s => some (some s)
  | _ => none

/-- A list. -/
def items {α : Type} (read : Document → Option α) : Document → Option (List α)
  | .list _ ds => ds.mapM read
  | _ => none

/-- What may stand beside the lone name of a choice. -/
def nothing : Notation → Document → Bool
  | .toml, .table _ entries => entries.isEmpty
  | .toml, .list _ items => items.isEmpty
  | .json, .null => true
  | _, _ => false

/-- One of several choices. -/
def choice {α : Type} (n : Notation) (name : α → String) (all : List α) : Document → Option α
  | .text s => all.find? fun a => name a = s
  | .table _ [(s, d)] => if nothing n d then all.find? fun a => name a = s else none
  | _ => none

/-- A record of which one text says what kind it is: the kind, and the record.  In a list the kind
comes first, and the rest may not be too long. -/
def kinded : Document → Option (String × Document)
  | .table form entries =>
    match lookup "type" entries with
    | some (.text kind) => some (kind, .table form entries)
    | _ => none
  | .list _ (.text kind :: rest) => some (kind, .array rest)
  | _ => none

end Document
end VehicleGateway
