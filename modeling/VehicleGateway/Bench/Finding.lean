import VehicleGateway.Config.Fault
import VehicleGateway.Ecu.Record
import VehicleGateway.Firmware.Header
import VehicleGateway.Keys.Call
import VehicleGateway.Message
import VehicleGateway.Update.Fault

/-!
# Findings

What a bench reports: a tree of numbers, texts and tables, with faults of every kind as leaves.
-/

namespace VehicleGateway

/-- A fault of any kind. -/
inductive AnyFault where
  | message (f : MessageFault)
  | record (f : RecordFault)
  | header (f : HeaderFault)
  | storage (f : StorageFault)
  | failure (f : Failure)
  | element (f : ElementFault)
  | key (f : KeyFault)
  | config (f : ConfigFault)
  | bus (f : BusFault)
  | update (f : UpdateFault)
  /-- A fault that ended an update, with the failure that it is reported as. -/
  | ended (f : UpdateFault)
  | text (reason : String)

/-- What a bench reports. -/
inductive Finding where
  | none
  | truth (b : Bool)
  | number (n : Nat)
  | text (s : String)
  | fault (f : AnyFault)
  | list (items : List Finding)
  | table (entries : List (String × Finding))
  deriving Inhabited

namespace Finding

/-- All is well, and there is nothing more to say. -/
def okay : Finding := .text "ok"

/-- A number of eight bits. -/
def octet (b : UInt8) : Finding := .number b.toNat

/-- Bytes in hexadecimal. -/
def bytes (data : Bytes) : Finding := .text (Hex.ofBytes data)

/-- A block in hexadecimal. -/
def block (b : Block) : Finding := bytes b.toList

/-- A value that may be missing. -/
def maybe {α : Type} (f : α → Finding) : Option α → Finding
  | some a => f a
  | Option.none => .none

/-- A value or a fault. -/
def either {ε α : Type} (fault : ε → AnyFault) (f : α → Finding) : Except ε α → Finding
  | .ok a => f a
  | .error e => .fault (fault e)

/-- An ECU record. -/
def record (r : EcuRecord) : Finding :=
  .table [("protocol", .text r.protocol.name), ("interface", octet r.interface),
    ("status", .text r.status.name), ("endianness", .text r.order.name),
    ("secure_capable", .truth r.secure), ("firmware_version", .number r.version.toNat)]

/-- A message. -/
def message (m : Message) : Finding :=
  .table [("id", .number m.id.raw.toNat), ("interface", octet m.interface),
    ("payload", bytes m.payload), ("len", .number m.payload.length),
    ("is_empty", .truth m.payload.isEmpty)]

/-- A frame: interface, identifier and data. -/
def frame (f : Frame) : Finding :=
  .list [octet f.interface, .number f.id.toNat, bytes f.data]

/-- A response of a secure element.  Of random blocks only the length is reported. -/
def response : Response → Finding
  | .data d => .table [("data", bytes d)]
  | .mac m => .table [("mac", block m)]
  | .verified v => .table [("verified", .truth v)]
  | .random _ => .table [("random_len", .number 16)]
  | .keyLoaded r =>
    .table [("m4", bytes (r.address.toList ++ r.proof.toList)), ("m5", block r.code)]
  | .identity e s m => .table [("uid", bytes e.toList), ("status", octet s), ("mac", block m)]
  | .challenge _ => .table [("challenge_len", .number 16)]
  | .done => .text "done"

/-- What the caller of the key service is told. -/
def keyAnswer : KeyAnswer → Finding
  | .response r => response r
  | .identity e => .table [("uid", bytes e.toList)]
  | .counter n => .table [("counter", .number n)]
  | .noted n => .table [("counter", maybe .number n)]
  | .done => okay

/-- The outcome of a key call. -/
def keyOutcome (show' : KeyAnswer → Finding) (o : KeyOutcome) : Finding :=
  either .key show' o

end Finding
end VehicleGateway
