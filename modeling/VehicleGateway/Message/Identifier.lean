import VehicleGateway.Text.Hex

/-!
# Message identifiers

An identifier is 29 bits wide.  Bits 24, 25 and 26 say whether a message carries data, a command
or firmware; exactly one of them is set, and the bits above are clear.  Below them stands the index
of a route, or eight clear bits, the number of an ECU and a code.

`Identifier.heading` takes an identifier apart and `Identifier.data`, `Identifier.command` and
`Identifier.firmware` put one together.
-/

namespace VehicleGateway

/-- The number of an ECU, which is its position in the registry. -/
abbrev EcuNo := UInt8

/-- What a message is about. -/
inductive Category where
  | data
  | command
  | firmware
  deriving DecidableEq, Repr

/-- The name of a category in diagnostics. -/
def Category.title : Category → String
  | .data => "Data"
  | .command => "Command"
  | .firmware => "Firmware"

/-- The value of the bits above the low 24 in an identifier of a category. -/
def Category.mark : Category → Nat
  | .data => 1
  | .command => 2
  | .firmware => 4

/-- The parts of an identifier. -/
inductive Heading where
  | data (index : Nat)
  | command (ecu : EcuNo) (code : UInt8)
  | firmware (ecu : EcuNo) (code : UInt8)
  deriving DecidableEq, Repr

/-- Why bytes or numbers do not make a message. -/
inductive MessageFault where
  | tooLong (length : Nat)
  | malformed (raw : UInt32)
  | indexTooLarge (index : UInt32)
  | unknownOpcode (code : UInt8)
  deriving DecidableEq, Repr

/-- The wording of a fault. -/
def MessageFault.message : MessageFault → String
  | .tooLong n => s!"Payload too large: {n} bytes (max 64)"
  | .malformed raw => "Malformed identifier 0x" ++ Hex.ofWord raw
  | .indexTooLarge i => s!"Data index {i.toNat} does not fit the identifier"
  | .unknownOpcode c => s!"Unknown command opcode {c.toNat}"

/-- A message identifier, which need not be well formed. -/
structure Identifier where
  raw : UInt32
  deriving DecidableEq, Repr

namespace Identifier

/-- The identifier with given upper bits and low 24 bits. -/
def assemble (c : Category) (low : Nat) : Identifier :=
  ⟨.ofNat (c.mark * 0x1000000 + low)⟩

/-- The identifier of data for a route; indices need 24 bits. -/
def data (index : UInt32) : Except MessageFault Identifier :=
  if index.toNat < 0x1000000 then .ok (assemble .data index.toNat)
  else .error (.indexTooLarge index)

/-- The identifier of a command to or from an ECU. -/
def command (ecu : EcuNo) (code : UInt8) : Identifier :=
  assemble .command (ecu.toNat * 0x100 + code.toNat)

/-- The identifier of firmware traffic to or from an ECU. -/
def firmware (ecu : EcuNo) (code : UInt8) : Identifier :=
  assemble .firmware (ecu.toNat * 0x100 + code.toNat)

/-- The category that the bits above the low 24 name. -/
def category? (i : Identifier) : Option Category :=
  match i.raw.toNat / 0x1000000 with
  | 1 => some .data
  | 2 => some .command
  | 4 => some .firmware
  | _ => none

/-- The parts of an identifier.  One without a category, or with a reserved bit set, has none. -/
def heading (i : Identifier) : Except MessageFault Heading :=
  let low := i.raw.toNat % 0x1000000
  match i.category? with
  | none => .error (.malformed i.raw)
  | some .data => .ok (.data low)
  | some .command =>
    if low < 0x10000 then .ok (.command (.ofNat (low / 0x100)) (.ofNat low))
    else .error (.malformed i.raw)
  | some .firmware =>
    if low < 0x10000 then .ok (.firmware (.ofNat (low / 0x100)) (.ofNat low))
    else .error (.malformed i.raw)

/-- An identifier as eight hexadecimal digits. -/
def display (i : Identifier) : String :=
  "0x" ++ Hex.ofWord i.raw

end Identifier
end VehicleGateway
