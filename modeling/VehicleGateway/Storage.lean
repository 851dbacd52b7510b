import VehicleGateway.Bytes
import VehicleGateway.Failure

/-!
# Storage

What the gateway asks of a storage: the record of an ECU, a stretch of a firmware image, and the
header record that may lie beside an image.
-/

namespace VehicleGateway

/-- Why a storage does not do what it is asked. -/
inductive StorageFault where
  | unavailable (reason : String)
  | noImage (name : String)
  | badName (name : String)
  /-- The device below refuses. -/
  | device (detail : String)
  deriving DecidableEq, Repr

namespace StorageFault

/-- The wording of a fault. -/
def message : StorageFault → String
  | unavailable reason => "Storage unavailable: " ++ reason
  | noImage name => "Firmware image not found: " ++ name
  | badName name => "Invalid image name: " ++ name
  | device detail => "I/O error: " ++ detail

/-- The failure a fault is reported as. -/
def failure (f : StorageFault) : Failure :=
  .because .storage f.message

end StorageFault

/-- A kind of storage with contents `σ`.  A call that fails leaves the contents as they were. -/
class Storage (σ : Type) where
  /-- The stored record of an ECU, if one was ever written. -/
  readRecord : σ → EcuNo → Except StorageFault (Option Bytes)
  /-- Stores a record in place of the one before. -/
  writeRecord : σ → EcuNo → Bytes → Except StorageFault σ
  /-- At most `wanted` bytes of an image from `offset` on; fewer only at its end. -/
  readImage : σ → (image : String) → (offset wanted : Nat) → Except StorageFault Bytes
  /-- The header record of an image, if there is one. -/
  readHeader : σ → (image : String) → Except StorageFault (Option Bytes)

end VehicleGateway
