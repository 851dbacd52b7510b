import VehicleGateway.Ecu.Record
import VehicleGateway.Failure

/-!
# The registry

The records of all ECUs.  An ECU's number is its position; numbers have eight bits, so only the
first 256 records have one of their own.
-/

namespace VehicleGateway

/-- The records of all ECUs, by number. -/
structure Registry where
  records : List EcuRecord
  deriving DecidableEq, Repr

namespace Registry

/-- The number of records. -/
def size (r : Registry) : Nat :=
  r.records.length

/-- Whether an ECU has a record. -/
def contains (r : Registry) (ecu : EcuNo) : Bool :=
  ecu.toNat < r.size

/-- The numbers of all records in order; they start over after 255. -/
def numbers (r : Registry) : List EcuNo :=
  (List.range r.size).map .ofNat

/-- The record of an ECU, if it has one. -/
def get? (r : Registry) (ecu : EcuNo) : Option EcuRecord :=
  r.records[ecu.toNat]?

/-- The record of an ECU. -/
def get (r : Registry) (ecu : EcuNo) : Except Failure EcuRecord :=
  match r.get? ecu with
  | some record => .ok record
  | none => .error (.unknownEcu ecu)

/-- The status of an ECU, if it has a record. -/
def status? (r : Registry) (ecu : EcuNo) : Option Status :=
  (r.get? ecu).map (·.status)

/-- Changes the record of an ECU; without such a record nothing changes. -/
def modify (r : Registry) (ecu : EcuNo) (f : EcuRecord → EcuRecord) : Registry :=
  ⟨r.records.modify ecu.toNat f⟩

/-- Gives an ECU a new record. -/
def replace (r : Registry) (ecu : EcuNo) (record : EcuRecord) : Registry :=
  r.modify ecu fun _ => record

/-- Gives an ECU a new status. -/
def setStatus (r : Registry) (ecu : EcuNo) (status : Status) : Registry :=
  r.modify ecu fun record => { record with status }

theorem get?_of_get {r : Registry} {ecu : EcuNo} {record : EcuRecord}
    (h : r.get ecu = .ok record) : r.get? ecu = some record := by
  unfold get at h
  split at h
  case h_1 hrecord =>
    obtain rfl := Except.ok.inj h
    exact hrecord
  case h_2 => cases h

@[simp] theorem size_modify (r : Registry) (ecu : EcuNo) (f : EcuRecord → EcuRecord) :
    (r.modify ecu f).size = r.size := by
  simp [size, modify]

theorem get?_modify (r : Registry) (ecu other : EcuNo) (f : EcuRecord → EcuRecord) :
    (r.modify ecu f).get? other = if ecu = other then (r.get? other).map f else r.get? other := by
  simp only [get?, modify, List.getElem?_modify]
  by_cases h : ecu = other
  · simp [h]
  · have h' : ecu.toNat ≠ other.toNat := fun e => h (UInt8.toNat_inj.mp e)
    simp [h, h']

end Registry
end VehicleGateway
