/-!
# Documents

A document is a tree of tables, lists and single values, as it is written in a configuration.  Of
values that no configuration uses, real numbers and dates, only the kind is kept.

Tables know how they were written, since that decides whether more may be added to them.
-/

namespace VehicleGateway

/-- How a table was written. -/
inductive TableForm where
  /-- As one closed value. -/
  | closed
  /-- Under a header of its own. -/
  | headed
  /-- By the header of a table inside. -/
  | implied
  /-- By a key with dots. -/
  | dotted
  deriving DecidableEq, Repr

/-- A tree of tables, lists and values. -/
inductive Document where
  | null
  | bool (b : Bool)
  | int (n : Int)
  | real
  | text (s : String)
  | stamp
  /-- A list; a growing one takes on tables by headers. -/
  | list (growing : Bool) (items : List Document)
  | table (form : TableForm) (entries : List (String × Document))
  deriving Inhabited

namespace Document

/-- The entry of a key. -/
def lookup (key : String) : List (String × Document) → Option Document
  | [] => none
  | (k, d) :: rest => if k = key then some d else lookup key rest

/-- Puts a document in place of the entry of a key, or at the end. -/
def put (key : String) (d : Document) : List (String × Document) → List (String × Document)
  | [] => [(key, d)]
  | (k, d') :: rest => if k = key then (k, d) :: rest else (k, d') :: put key d rest

/-- Removes the entry of a key. -/
def remove (key : String) (entries : List (String × Document)) : List (String × Document) :=
  entries.filter fun e => e.1 ≠ key

/-- A list that is one value. -/
def array (items : List Document) : Document := list false items

/-- A table that is one value. -/
def object (entries : List (String × Document)) : Document := table .closed entries

end Document
end VehicleGateway
