import VehicleGateway.Message.Identifier

/-!
# Messages and frames

A frame is what passes over a bus: an interface, 32 identifier bits of which 29 count, and data of
any length.  A message is what the gateway works with: its payload has at most 64 bytes.  A frame
becomes a message only if its identifier has a category.
-/

namespace VehicleGateway

/-- A frame on one of the interfaces. -/
structure Frame where
  interface : UInt8
  id : UInt32
  data : Bytes
  deriving DecidableEq, Repr

/-- A message, with the interface on which it came in. -/
structure Message where
  id : Identifier
  interface : UInt8 := 0
  payload : Bytes
  fits : payload.length ≤ 64
  deriving DecidableEq

namespace Message

/-- The longest payload. -/
def maxPayload : Nat := 64

/-- A message with any identifier, as the gateway itself makes one. -/
def make (id : Identifier) (payload : Bytes) (interface : UInt8 := 0) :
    Except MessageFault Message :=
  if h : payload.length ≤ 64 then .ok { id, interface, payload, fits := h }
  else .error (.tooLong payload.length)

/-- The 29 bits of a frame's identifier that count. -/
def significant (raw : UInt32) : Identifier :=
  ⟨.ofNat (raw.toNat % 0x20000000)⟩

/-- The message in a frame.  The identifier is judged before the length. -/
def ofFrame (f : Frame) : Except MessageFault Message :=
  let id := significant f.id
  match id.category? with
  | none => .error (.malformed f.id)
  | some _ => make id f.data f.interface

end Message
end VehicleGateway
