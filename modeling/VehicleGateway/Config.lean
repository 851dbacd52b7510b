import VehicleGateway.Config.Fault
import VehicleGateway.Ecu.Record
import VehicleGateway.Keys.Flags
import VehicleGateway.Keys.Slot
import VehicleGateway.Message.Identifier

/-!
# Configurations

Everything that is fixed when the gateway starts, with the values that hold when a configuration
does not say otherwise.  Times are in milliseconds.
-/

namespace VehicleGateway

/-- An ECU; its number is its position. -/
structure EcuConfig where
  protocol : Protocol
  interface : UInt8
  order : ByteOrder := .big
  secure : Bool := false
  version : UInt32 := 0
  deriving DecidableEq, Repr

/-- A route with its index. -/
structure RouteConfig where
  index : UInt32
  label : String
  destinations : List EcuNo := []
  deriving DecidableEq, Repr

/-- The router. -/
structure RouterConfig where
  queueDepth : Nat := 64
  /-- The longest time for one forwarded frame. -/
  sendTimeout : Nat := 100
  deriving DecidableEq, Repr

/-- The supervisor of the ECUs. -/
structure SupervisorConfig where
  queueDepth : Nat := 32
  /-- The time between two rounds of status requests. -/
  heartbeat : Nat := 1000
  /-- The pause between two requests of a round. -/
  pause : Nat := 5
  /-- Whether a record is stored whenever an ECU's response changes it. -/
  autoPersist : Bool := true
  deriving DecidableEq, Repr

/-- Firmware updates. -/
structure FirmwareConfig where
  /-- The longest time for each response. -/
  ackTimeout : Nat := 1000
  /-- The depth of an update's inbox. -/
  sessionQueue : Nat := 8
  /-- The slot of the key that encrypts chunks and authenticates headers. -/
  updateKey : KeySlot := .user 1
  /-- Whether the header record of an image is checked. -/
  verifyHeader : Bool := true
  deriving DecidableEq, Repr

/-- A key that is loaded at the start. -/
structure ProvisionedKey where
  slot : KeySlot
  /-- The key in hexadecimal. -/
  key : String
  counter : Nat
  flags : KeyFlags := {}
  deriving DecidableEq, Repr

/-- The secure element. -/
structure ElementConfig where
  /-- The identity in hexadecimal. -/
  identity : String := "000000000000000000000000000001"
  latency : Nat := 0
  deriving DecidableEq, Repr

/-- Keys and the secure element. -/
structure KeyConfig where
  timeout : Nat := 500
  /-- The master key in hexadecimal. -/
  masterKey : Option String := none
  keys : List ProvisionedKey := []
  element : ElementConfig := {}
  deriving DecidableEq, Repr

/-- The channel to the ECUs. -/
inductive TransportConfig where
  | mock (interfaces : UInt8) (latency : Nat)
  | socketCan (interfaces : List String) (buffer : Nat)
  deriving DecidableEq, Repr

/-- The channel that is used when none is configured. -/
def TransportConfig.standard : TransportConfig := .mock 4 0

/-- A configuration. -/
structure Config where
  ecus : List EcuConfig := []
  routes : List RouteConfig := []
  router : RouterConfig := {}
  supervisor : SupervisorConfig := {}
  firmware : FirmwareConfig := {}
  keys : KeyConfig := {}
  transport : TransportConfig := .standard
  /-- The folder of the stored records and images. -/
  folder : String := "./data"
  deriving DecidableEq, Repr

end VehicleGateway
