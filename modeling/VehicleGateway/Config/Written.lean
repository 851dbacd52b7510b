import VehicleGateway.Config
import VehicleGateway.Document

/-!
# Writing a configuration

The tree of a configuration, with every value that has a default.
-/

namespace VehicleGateway.Config

open Document

/-- A natural number. -/
def number (n : Nat) : Document := .int n

/-- An ECU. -/
def ecuTree (e : EcuConfig) : Document :=
  object [("protocol", .text e.protocol.name), ("interface", number e.interface.toNat),
    ("endianness", .text e.order.name), ("secure", .bool e.secure),
    ("firmware_version", number e.version.toNat)]

/-- A route. -/
def routeTree (r : RouteConfig) : Document :=
  object [("index", number r.index.toNat), ("label", .text r.label),
    ("destinations", array (r.destinations.map fun d => number d.toNat))]

/-- The flags of a key. -/
def flagsTree (f : KeyFlags) : Document :=
  object [("write_protection", .bool f.writeProtection),
    ("boot_protection", .bool f.bootProtection),
    ("debugger_protection", .bool f.debuggerProtection), ("key_usage", .bool f.macOnly),
    ("wildcard", .bool f.wildcard)]

/-- A key that is loaded at the start. -/
def keyTree (k : ProvisionedKey) : Document :=
  object [("slot", .text k.slot.name), ("key", .text k.key), ("counter", number k.counter),
    ("flags", flagsTree k.flags)]

/-- Keys and the secure element.  A master key that is not set is left out. -/
def keysTree (c : KeyConfig) : Document :=
  let master := match c.masterKey with
    | some key => [("master_key", Document.text key)]
    | none => []
  object (("command_timeout_ms", number c.timeout) :: master ++
    [("keys", array (c.keys.map keyTree)),
     ("element", object [("type", .text "emulated"), ("uid", .text c.element.identity),
       ("latency_ms", number c.element.latency)])])

/-- The channel to the ECUs. -/
def transportTree : TransportConfig → Document
  | .mock interfaces latency =>
    object [("type", .text "mock"), ("interfaces", number interfaces.toNat),
      ("latency_ms", number latency)]
  | .socketCan interfaces buffer =>
    object [("type", .text "socketcan"), ("interfaces", array (interfaces.map .text)),
      ("rx_buffer", number buffer)]

/-- The tree of a configuration. -/
def toDocument (c : Config) : Document :=
  object [("ecus", array (c.ecus.map ecuTree)), ("routes", array (c.routes.map routeTree)),
    ("router", object [("queue_depth", number c.router.queueDepth),
      ("send_timeout_ms", number c.router.sendTimeout)]),
    ("controller", object [("queue_depth", number c.supervisor.queueDepth),
      ("heartbeat_ms", number c.supervisor.heartbeat),
      ("inter_ecu_delay_ms", number c.supervisor.pause),
      ("auto_persist", .bool c.supervisor.autoPersist)]),
    ("firmware", object [("ack_timeout_ms", number c.firmware.ackTimeout),
      ("session_queue", number c.firmware.sessionQueue),
      ("update_key", .text c.firmware.updateKey.name),
      ("verify_header", .bool c.firmware.verifyHeader)]),
    ("she", keysTree c.keys), ("transport", transportTree c.transport),
    ("storage", object [("dir", .text c.folder)])]

end VehicleGateway.Config
