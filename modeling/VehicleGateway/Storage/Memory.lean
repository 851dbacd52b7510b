import VehicleGateway.Dictionary
import VehicleGateway.Storage

/-!
# Storage in memory

Records, images and headers in dictionaries.  While an outage is set, every call fails with its
reason.
-/

namespace VehicleGateway

/-- Storage in memory. -/
structure Memory where
  records : Dictionary EcuNo Bytes := ∅
  images : Dictionary String Bytes := ∅
  headers : Dictionary String Bytes := ∅
  outage : Option String := none

namespace Memory

/-- An answer, unless there is an outage. -/
def serve {α : Type} (m : Memory) (answer : Except StorageFault α) : Except StorageFault α :=
  match m.outage with
  | some reason => .error (.unavailable reason)
  | none => answer

/-- Puts an image in place of one of the same name. -/
def addImage (m : Memory) (name : String) (data : Bytes) : Memory :=
  { m with images := m.images.insert name data }

/-- Puts a header record in place of one for the same image. -/
def addHeader (m : Memory) (name : String) (data : Bytes) : Memory :=
  { m with headers := m.headers.insert name data }

/-- Puts bytes in place of an ECU's record, also during an outage. -/
def putRecord (m : Memory) (ecu : EcuNo) (data : Bytes) : Memory :=
  { m with records := m.records.insert ecu data }

instance : Storage Memory where
  readRecord m ecu := m.serve (.ok (m.records.get? ecu))
  writeRecord m ecu data := m.serve (.ok (m.putRecord ecu data))
  readImage m image offset wanted :=
    m.serve <| match m.images.get? image with
      | none => .error (.noImage image)
      | some data => .ok (data.window offset wanted)
  readHeader m image := m.serve (.ok (m.headers.get? image))

end Memory
end VehicleGateway
