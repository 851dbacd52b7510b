import VehicleGateway.Bus
import VehicleGateway.Config.Shape
import VehicleGateway.Document.Toml
import VehicleGateway.Keys.Secret
import VehicleGateway.Registry
import VehicleGateway.Router.Table

/-!
# Checking a configuration

A configuration that passes can be put to work: its registry, its routing table and its keys can be
made, and on the mock channel every ECU has an interface that exists.
-/

namespace VehicleGateway

/-- The record of an ECU at the start. -/
def EcuConfig.record (e : EcuConfig) : EcuRecord :=
  { protocol := e.protocol, interface := e.interface, order := e.order, secure := e.secure,
    version := e.version }

/-- The route without its index. -/
def RouteConfig.route (r : RouteConfig) : Route :=
  { label := r.label, destinations := r.destinations }

/-- The key that is written in hexadecimal. -/
def ProvisionedKey.value (k : ProvisionedKey) : Except ConfigFault Key :=
  match Key.ofText k.key with
  | .ok key => .ok key
  | .error fault => .error (.invalid (k.slot.name ++ ": " ++ fault.message))

/-- The identity that is written in hexadecimal. -/
def ElementConfig.value (e : ElementConfig) : Except ConfigFault ElementId :=
  match Hex.decode e.identity with
  | .error fault => .error (.invalid ("Element UID: " ++ fault.message))
  | .ok data =>
    match ElementId.ofBytes? data with
    | some identity => .ok identity
    | none => .error (.invalid "Element UID must be 15 bytes")

namespace KeyConfig

/-- The master key, if there is one. -/
def master (c : KeyConfig) : Except ConfigFault (Option Key) :=
  match c.masterKey with
  | none => .ok none
  | some text =>
    match Key.ofText text with
    | .ok key => .ok (some key)
    | .error fault => .error (.invalid ("master_key: " ++ fault.message))

/-- Checks one key after the other: first its value, then its slot. -/
def checkKeys : List ProvisionedKey → Except ConfigFault Unit
  | [] => .ok ()
  | k :: rest =>
    match k.value with
    | .error fault => .error fault
    | .ok _ =>
      if k.slot = .master ∨ k.slot = .ram then
        .error (.invalid s!"Slot {k.slot.name} cannot be provisioned from [[she.keys]]")
      else checkKeys rest

/-- Checks the keys. -/
def check (c : KeyConfig) : Except ConfigFault Unit := do
  let _ ← c.master
  if !c.keys.isEmpty && c.masterKey.isNone then
    .error (.invalid "Provisioned keys require she.master_key")
  else
    checkKeys c.keys
    let _ ← c.element.value
    .ok ()

end KeyConfig

namespace Config

/-- The registry at the start. -/
def registry (c : Config) : Registry :=
  ⟨c.ecus.map EcuConfig.record⟩

/-- The routing table. -/
def routing (c : Config) : Except ConfigFault RoutingTable :=
  let named := c.routes.map fun r => (r.index, r.route)
  match RoutingTable.ofIndexed named c.ecus.length with
  | .ok table => .ok table
  | .error fault => .error (.invalid fault.failure.message)

/-- The first ECU, from number `i` on, on an interface that does not exist. -/
def strayEcu (interfaces : UInt8) : Nat → List EcuConfig → Option (Nat × UInt8)
  | _, [] => none
  | i, e :: rest =>
    if interfaces ≤ e.interface then some (i, e.interface) else strayEcu interfaces (i + 1) rest

/-- Checks that the interfaces of all ECUs exist on the mock channel.  The names of another channel
are not counted. -/
def checkInterfaces (c : Config) : Except ConfigFault Unit :=
  match c.transport with
  | .mock interfaces _ =>
    match strayEcu interfaces 0 c.ecus with
    | none => .ok ()
    | some (i, interface) =>
      .error (.invalid
        s!"ECU {i} uses interface {interface.toNat} but only {interfaces.toNat} are configured")
  | .socketCan _ _ => .ok ()

/-- Checks a configuration. -/
def check (c : Config) : Except ConfigFault Unit := do
  -- Of several faults the first in this order is reported.
  if c.ecus.isEmpty then .error (.invalid "At least one ECU is required")
  else if 256 < c.ecus.length then
    .error (.invalid s!"Too many ECUs: {c.ecus.length} (max 256)")
  else if c.router.queueDepth = 0 ∨ c.supervisor.queueDepth = 0 ∨ c.firmware.sessionQueue = 0 then
    .error (.invalid "Queue depths must be non-zero")
  else
    c.checkInterfaces
    let _ ← c.routing
    c.keys.check

/-- The configuration in a text, if it passes. -/
def ofToml (text : String) : Except ConfigFault Config :=
  match (Toml.read text).bind (ofDocument .toml) with
  | none => .error (.malformed "not a configuration")
  | some c => c.check.map fun _ => c

/-- The configuration in a tree, if it passes. -/
def ofTree (d : Document) : Except ConfigFault Config :=
  match ofDocument .json d with
  | none => .error (.malformed "not a configuration")
  | some c => c.check.map fun _ => c

end Config

/-- The channel of a configuration.  Only the mock channel can be opened. -/
def TransportConfig.connect : TransportConfig → Except BusFault Bus
  | .mock interfaces latency => .ok { interfaces, latency }
  | .socketCan interfaces _ =>
    .error (.unsupported
      ("Cannot open " ++ Quoted.list interfaces ++ ": built without SocketCAN support"))

end VehicleGateway
