import VehicleGateway.Ecu.Stored
import VehicleGateway.Registry
import VehicleGateway.Storage

/-!
# Storing and restoring the registry

Restoring takes over every stored record that decodes and marks an ECU as corrupted whose stored
bytes do not.  It stops at the first record that cannot be read; what it took over before stays.
-/

namespace VehicleGateway

/-- What restoring found: records taken over, ECUs without one, and records that do not decode. -/
structure Restored where
  loaded : Nat := 0
  missing : Nat := 0
  corrupted : Nat := 0
  deriving DecidableEq, Repr

namespace Registry

/-- Takes over what was read for one ECU. -/
def takeOver (r : Registry) (found : Restored) (ecu : EcuNo) : Option Bytes → Registry × Restored
  | none => (r, { found with missing := found.missing + 1 })
  | some data =>
    match EcuRecord.decode data with
    | .ok record => (r.replace ecu record, { found with loaded := found.loaded + 1 })
    | .error _ => (r.setStatus ecu .corrupted, { found with corrupted := found.corrupted + 1 })

/-- Restores the given ECUs one after the other. -/
def restoreEach (read : EcuNo → Except StorageFault (Option Bytes)) :
    List EcuNo → Registry → Restored → Registry × Except StorageFault Restored
  | [], r, found => (r, .ok found)
  | ecu :: rest, r, found =>
    match read ecu with
    -- The ECUs before this one keep what was taken over for them.
    | .error e => (r, .error e)
    | .ok data =>
      let (r', found') := r.takeOver found ecu data
      restoreEach read rest r' found'

/-- Restores all ECUs from a storage. -/
def restore {σ : Type} [Storage σ] (r : Registry) (store : σ) :
    Registry × Except StorageFault Restored :=
  restoreEach (Storage.readRecord store) r.numbers r {}

/-- Stores records under the numbers from `i` on.  What was stored before a fault stays stored. -/
def storeEach {σ : Type} [Storage σ] :
    Nat → List EcuRecord → σ → σ × Except StorageFault Unit
  | _, [], store => (store, .ok ())
  | i, record :: rest, store =>
    match Storage.writeRecord store (.ofNat i) record.encode with
    | .error e => (store, .error e)
    | .ok store' => storeEach (i + 1) rest store'

/-- Stores all records; the answer is their number. -/
def storeAll {σ : Type} [Storage σ] (r : Registry) (store : σ) : σ × Except StorageFault Nat :=
  let (store', done) := storeEach 0 r.records store
  (store', done.map fun _ => r.size)

/-- Stores the record of one ECU. -/
def storeOne {σ : Type} [Storage σ] (r : Registry) (store : σ) (ecu : EcuNo) :
    Except StorageFault σ :=
  match r.get ecu with
  | .error e => .error (.unavailable e.message)
  | .ok record => Storage.writeRecord store ecu record.encode

end Registry
end VehicleGateway
