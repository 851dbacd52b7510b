import VehicleGateway.Document
import VehicleGateway.Text.Hex

/-!
# Looking into documents

What a document holds under a name, with a default where it holds nothing of the kind.
-/

namespace VehicleGateway.Document

/-- The entry of a name, or null. -/
def field (d : Document) (name : String) : Document :=
  match d with
  | .table _ entries => (lookup name entries).getD .null
  | _ => .null

/-- Whether there is an entry of a name. -/
def has (d : Document) (name : String) : Bool :=
  match d with
  | .table _ entries => (lookup name entries).isSome
  | _ => false

/-- The items of a list. -/
def toList : Document → List Document
  | .list _ items => items
  | _ => []

/-- The entries of a table. -/
def toEntries : Document → List (String × Document)
  | .table _ entries => entries
  | _ => []

/-- A natural number. -/
def toNat? : Document → Option Nat
  | .int n => if 0 ≤ n then some n.toNat else none
  | _ => none

/-- A text. -/
def toText? : Document → Option String
  | .text s => some s
  | _ => none

/-- The number under a name. -/
def nat (d : Document) (name : String) (default : Nat := 0) : Nat :=
  ((d.field name).toNat?).getD default

/-- The text under a name. -/
def str (d : Document) (name : String) (default : String := "") : String :=
  ((d.field name).toText?).getD default

/-- The truth value under a name. -/
def flag (d : Document) (name : String) (default : Bool := false) : Bool :=
  match d.field name with
  | .bool b => b
  | _ => default

/-- The number of eight bits under a name. -/
def octet (d : Document) (name : String) (default : Nat := 0) : UInt8 :=
  .ofNat (d.nat name default)

/-- The number of 32 bits under a name. -/
def quad (d : Document) (name : String) : UInt32 :=
  .ofNat (d.nat name)

/-- The items of the list under a name. -/
def each (d : Document) (name : String) : List Document :=
  (d.field name).toList

/-- The numbers of eight bits in the list under a name. -/
def octets (d : Document) (name : String) : List UInt8 :=
  (d.each name).map fun item => .ofNat (item.toNat?.getD 0)

/-- The bytes that a text of hexadecimal digits spells. -/
def unhex (s : String) : Bytes :=
  match Hex.decode s with
  | .ok data => data
  | .error _ => []

/-- The bytes under a name. -/
def bytes (d : Document) (name : String) : Bytes :=
  unhex (d.str name)

end VehicleGateway.Document
