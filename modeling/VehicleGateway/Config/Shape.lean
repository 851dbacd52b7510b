import VehicleGateway.Config
import VehicleGateway.Document.Shape

/-!
# Reading a configuration
-/

namespace VehicleGateway.Config

open Document

/-- An ECU. -/
def readEcu (n : Notation) (d : Document) : Option EcuConfig := do
  let f ← fields (allowsSurplus n)
    ["protocol", "interface", "endianness", "secure", "firmware_version"] d
  return {
    protocol := ← required f "protocol" (choice n Protocol.name Protocol.all)
    interface := ← required f "interface" byte
    order := ← optional f "endianness" (choice n ByteOrder.name ByteOrder.all) .big
    secure := ← optional f "secure" truth false
    version := ← optional f "firmware_version" word 0 }

/-- A route. -/
def readRoute (n : Notation) (d : Document) : Option RouteConfig := do
  let f ← fields (allowsSurplus n) ["index", "label", "destinations"] d
  return {
    index := ← required f "index" word
    label := ← required f "label" string
    destinations := ← optional f "destinations" (items byte) [] }

/-- The router. -/
def readRouter (n : Notation) (d : Document) : Option RouterConfig := do
  let f ← fields (allowsSurplus n) ["queue_depth", "send_timeout_ms"] d
  let base : RouterConfig := {}
  return {
    queueDepth := ← optional f "queue_depth" natural base.queueDepth
    sendTimeout := ← optional f "send_timeout_ms" natural base.sendTimeout }

/-- The supervisor. -/
def readSupervisor (n : Notation) (d : Document) : Option SupervisorConfig := do
  let f ← fields (allowsSurplus n)
    ["queue_depth", "heartbeat_ms", "inter_ecu_delay_ms", "auto_persist"] d
  let base : SupervisorConfig := {}
  return {
    queueDepth := ← optional f "queue_depth" natural base.queueDepth
    heartbeat := ← optional f "heartbeat_ms" natural base.heartbeat
    pause := ← optional f "inter_ecu_delay_ms" natural base.pause
    autoPersist := ← optional f "auto_persist" truth base.autoPersist }

/-- A slot by name. -/
def readSlot (d : Document) : Option KeySlot := do
  match KeySlot.ofName (← string d) with
  | .ok slot => some slot
  | .error _ => none

/-- Firmware updates. -/
def readFirmware (n : Notation) (d : Document) : Option FirmwareConfig := do
  let f ← fields (allowsSurplus n)
    ["ack_timeout_ms", "session_queue", "update_key", "verify_header"] d
  let base : FirmwareConfig := {}
  return {
    ackTimeout := ← optional f "ack_timeout_ms" natural base.ackTimeout
    sessionQueue := ← optional f "session_queue" natural base.sessionQueue
    updateKey := ← optional f "update_key" readSlot base.updateKey
    verifyHeader := ← optional f "verify_header" truth base.verifyHeader }

/-- The flags of a key. -/
def readFlags (n : Notation) (d : Document) : Option KeyFlags := do
  let f ← fields (allowsSurplus n)
    ["write_protection", "boot_protection", "debugger_protection", "key_usage", "wildcard"] d
  return {
    writeProtection := ← optional f "write_protection" truth false
    bootProtection := ← optional f "boot_protection" truth false
    debuggerProtection := ← optional f "debugger_protection" truth false
    macOnly := ← optional f "key_usage" truth false
    wildcard := ← optional f "wildcard" truth false }

/-- A key that is loaded at the start. -/
def readKey (n : Notation) (d : Document) : Option ProvisionedKey := do
  let f ← fields (allowsSurplus n) ["slot", "key", "counter", "flags"] d
  return {
    slot := ← required f "slot" readSlot
    key := ← required f "key" string
    counter := ← required f "counter" (natBelow 0x100000000)
    flags := ← optional f "flags" (readFlags n) {} }

/-- The secure element, of which there is one kind. -/
def readElement (d : Document) : Option ElementConfig := do
  let (kind, rest) ← kinded d
  if kind ≠ "emulated" then none
  else
    let f ← fields false ["uid", "latency_ms"] rest
    let base : ElementConfig := {}
    return {
      identity := ← optional f "uid" string base.identity
      latency := ← optional f "latency_ms" natural base.latency }

/-- Keys and the secure element. -/
def readKeys (n : Notation) (d : Document) : Option KeyConfig := do
  let f ← fields (allowsSurplus n) ["command_timeout_ms", "master_key", "keys", "element"] d
  let base : KeyConfig := {}
  return {
    timeout := ← optional f "command_timeout_ms" natural base.timeout
    masterKey := ← optional f "master_key" maybeString none
    keys := ← optional f "keys" (items (readKey n)) []
    element := ← optional f "element" readElement base.element }

/-- The channel to the ECUs. -/
def readTransport (d : Document) : Option TransportConfig := do
  let (kind, rest) ← kinded d
  if kind = "mock" then
    let f ← fields false ["interfaces", "latency_ms"] rest
    return .mock (← optional f "interfaces" byte 4) (← optional f "latency_ms" natural 0)
  else if kind = "socketcan" then
    let f ← fields false ["interfaces", "rx_buffer"] rest
    return .socketCan (← required f "interfaces" (items string))
      (← optional f "rx_buffer" natural 1024)
  else none

/-- The place of stored records and images. -/
def readStorage (n : Notation) (d : Document) : Option String := do
  let f ← fields (allowsSurplus n) ["dir"] d
  optional f "dir" string ({} : Config).folder

/-- A configuration. -/
def ofDocument (n : Notation) (d : Document) : Option Config := do
  let f ← fields (allowsSurplus n)
    ["ecus", "routes", "router", "controller", "firmware", "she", "transport", "storage"] d
  return {
    ecus := ← optional f "ecus" (items (readEcu n)) []
    routes := ← optional f "routes" (items (readRoute n)) []
    router := ← optional f "router" (readRouter n) {}
    supervisor := ← optional f "controller" (readSupervisor n) {}
    firmware := ← optional f "firmware" (readFirmware n) {}
    keys := ← optional f "she" (readKeys n) {}
    transport := ← optional f "transport" readTransport .standard
    folder := ← optional f "storage" (readStorage n) ({} : Config).folder }

end VehicleGateway.Config
