import VehicleGateway.Checksum
import VehicleGateway.Ecu.Record

/-!
# The stored form of a record

Sixteen bytes: the format (always one), protocol, interface, status, byte order, flags, the firmware
version most significant byte first, four zeros, and the checksum of all that.
-/

namespace VehicleGateway.EcuRecord

/-- The length of a stored record. -/
def storedLength : Nat := 16

/-- The flag byte: bit 0 says that encrypted firmware is taken. -/
def flags (r : EcuRecord) : UInt8 :=
  if r.secure then 1 else 0

/-- Whether a flag byte says that encrypted firmware is taken. -/
def secureFlag (b : UInt8) : Bool :=
  b.toNat % 2 = 1

/-- The stored form up to the checksum. -/
def body (r : EcuRecord) : Bytes :=
  [1, r.protocol.code, r.interface, r.status.code, r.order.code, r.flags]
    ++ Bytes.ofWordBig r.version ++ [0, 0, 0, 0]

/-- The stored form of a record. -/
def encode (r : EcuRecord) : Bytes :=
  r.body ++ Bytes.ofHalfBig (Checksum.ofBytes r.body)

/-- The record of which bytes are the stored form.  Length, format and checksum are judged in this
order, and before any field. -/
def decode (data : Bytes) : Except RecordFault EcuRecord :=
  match data with
  | [format, p, interface, s, o, fl, v3, v2, v1, v0, _, _, _, _, c1, c0] =>
    if format ≠ 1 then .error (.format format)
    else if Checksum.ofBytes (data.take 14) ≠ Bytes.halfBig c1 c0 then .error .checksum
    else do
      let protocol ← Protocol.ofCode p
      let status ← Status.ofCode s
      let order ← ByteOrder.ofCode o
      return { protocol, interface, status, order,
               secure := secureFlag fl, version := Bytes.wordBig v3 v2 v1 v0 }
  | _ => .error (.length data.length)

theorem length_encode (r : EcuRecord) : r.encode.length = storedLength := rfl

end VehicleGateway.EcuRecord
