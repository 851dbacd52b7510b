import VehicleGateway.Bus
import VehicleGateway.Keys.Vault
import VehicleGateway.Registry.Restore
import VehicleGateway.Update.Inboxes

/-!
# What the parts of the gateway share

The time, the records of the ECUs, the bus, the storage, the keys and the inboxes of the updates.
Times are in milliseconds.
-/

namespace VehicleGateway

/-- What the parts of a gateway with a storage of kind `σ` share. -/
structure World (σ : Type) where
  now : Nat := 0
  registry : Registry
  bus : Bus
  storage : σ
  /-- The keys, if there is a secure element. -/
  keys : Option Vault := none
  inboxes : Inboxes := {}

namespace World

variable {σ : Type}

/-- Starts a transmission for a sender that waits for some time. -/
def launch (w : World σ) (wait : Nat) (f : Frame) : Except BusFault Flight :=
  w.bus.launch w.now wait f

/-- The end of a transmission, if its time has come. -/
def land? (w : World σ) (flight : Flight) : Option (World σ × Sent) :=
  (w.bus.land w.now flight).map fun (bus, sent) => ({ w with bus }, sent)

/-- Stores the record of an ECU; where the storage refuses, it stays as it was. -/
def persist [Storage σ] (w : World σ) (ecu : EcuNo) : World σ :=
  match w.registry.storeOne w.storage ecu with
  | .ok storage => { w with storage }
  | .error _ => w

end World
end VehicleGateway
