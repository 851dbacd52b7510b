import VehicleGateway.Registry
import VehicleGateway.Text.Column
import VehicleGateway.Text.Hex

/-!
# The listing of the registry

One line for each ECU below a line of headings, in columns of fixed width.
-/

namespace VehicleGateway

/-- The line of an ECU. -/
def EcuRecord.line (number : Nat) (r : EcuRecord) : String :=
  " ".intercalate [Column.left 4 (toString number), Column.left 9 r.protocol.title,
    Column.left 3 (toString r.interface.toNat), Column.left 13 r.status.title,
    Column.left 7 r.order.title, Column.left 7 (if r.secure then "yes" else "no"),
    "0x" ++ Hex.ofWord r.version]

namespace Registry

/-- The headings. -/
def headings : String :=
  "ECU  PROTOCOL  IF  STATUS        ENDIAN  SECURE  FIRMWARE"

/-- The lines of all ECUs from number `i` on. -/
def lines : Nat → List EcuRecord → List String
  | _, [] => []
  | i, r :: rest => r.line i :: lines (i + 1) rest

/-- The listing of a registry. -/
def listing (r : Registry) : List String :=
  headings :: lines 0 r.records

end Registry
end VehicleGateway
