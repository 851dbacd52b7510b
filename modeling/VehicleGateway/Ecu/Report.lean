import VehicleGateway.Ecu.Stored

/-!
# Reports

What an ECU sends about itself.  The full report has nine bytes: protocol, interface, status, byte
order, flags and the firmware version in that byte order.  The identity report has three: protocol,
interface and flags, of which bit 1 stands for the byte order.  Bytes past the end are ignored.
-/

namespace VehicleGateway.EcuRecord

/-- The full report of a record. -/
def report (r : EcuRecord) : Bytes :=
  [r.protocol.code, r.interface, r.status.code, r.order.code, r.flags] ++ r.order.ofWord r.version

/-- The record in a full report.  The byte order is judged first. -/
def ofReport (payload : Bytes) : Except RecordFault EcuRecord :=
  match payload with
  | p :: interface :: s :: o :: fl :: a :: b :: c :: d :: _ => do
    let order ← ByteOrder.ofCode o
    let protocol ← Protocol.ofCode p
    let status ← Status.ofCode s
    return { protocol, interface, status, order,
             secure := secureFlag fl, version := order.word a b c d }
  | _ => .error (.length payload.length)

/-- Whether a flag byte of an identity report names the order that begins with the most significant
byte. -/
def bigFlag (b : UInt8) : Bool :=
  b.toNat / 2 % 2 = 1

/-- A record with what an identity report says. -/
def withIdentity (r : EcuRecord) (payload : Bytes) : Except RecordFault EcuRecord :=
  match payload with
  | p :: interface :: fl :: _ => do
    let protocol ← Protocol.ofCode p
    return { r with protocol, interface,
                    order := if bigFlag fl then .big else .little, secure := secureFlag fl }
  | _ => .error (.length payload.length)

/-- A record with the firmware version that a version report names in the record's byte order. -/
def withVersion (r : EcuRecord) (payload : Bytes) : Except RecordFault EcuRecord :=
  match payload with
  | a :: b :: c :: d :: _ => .ok { r with version := r.order.word a b c d }
  | _ => .error (.length payload.length)

/-- The status that a status report names. -/
def reportedStatus (payload : Bytes) : Except RecordFault Status :=
  match payload with
  | s :: _ => Status.ofCode s
  | [] => .error (.length 0)

theorem length_report (r : EcuRecord) : r.report.length = 9 := by
  cases h : r.order <;> simp [report, ByteOrder.ofWord, h, Bytes.ofWordBig, Bytes.ofWordLittle]

end VehicleGateway.EcuRecord
