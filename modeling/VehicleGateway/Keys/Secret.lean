import VehicleGateway.Cipher.Block
import VehicleGateway.Text.Blank
import VehicleGateway.Text.Hex

/-!
# Keys and element identities as text

A key is a block, and the identity of a secure element has fifteen bytes.  Both are written in
hexadecimal; only around a key may there be blanks.
-/

namespace VehicleGateway

/-- A key. -/
abbrev Key := Block

/-- The identity of a secure element. -/
abbrev ElementId := Vector UInt8 15

/-- Why a text is no key. -/
inductive KeyTextFault where
  | hex (fault : Hex.Fault)
  | length (n : Nat)
  deriving DecidableEq, Repr

/-- The wording of a fault. -/
def KeyTextFault.message : KeyTextFault → String
  | .hex f => "Invalid key hex: " ++ f.message
  | .length n => s!"Key must be 16 bytes, got {n}"

/-- The key that a text spells. -/
def Key.ofText (text : String) : Except KeyTextFault Key :=
  match Hex.decode (Blank.trim text) with
  | .error e => .error (.hex e)
  | .ok data =>
    match Block.ofBytes? data with
    | some key => .ok key
    | none => .error (.length data.length)

/-- The identity that is exactly these bytes. -/
def ElementId.ofBytes? (data : Bytes) : Option ElementId :=
  if h : data.toArray.size = 15 then some ⟨data.toArray, h⟩ else none

/-- The identity of zeros, which stands for any element. -/
def ElementId.wildcard : ElementId := Vector.replicate 15 0

end VehicleGateway
