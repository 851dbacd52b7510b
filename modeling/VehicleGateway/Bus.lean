import VehicleGateway.Failure
import VehicleGateway.Message

/-!
# The bus

The channel over which the gateway transmits.  A transmission is judged when it starts: the bus has
to be connected, the interface has to exist and the data has to fit.  After that it takes the time
of the bus, unless its sender does not wait that long; then the frame is not transmitted.
-/

namespace VehicleGateway

/-- Why a frame is not transmitted, or a channel not opened. -/
inductive BusFault where
  | connectionFailed (reason : String)
  | connectionClosed
  | sendFailed (reason : String)
  | timeout (interface : UInt8)
  | unknownInterface (interface : UInt8)
  | tooLong (length : Nat)
  | badConfig (reason : String)
  | unsupported (what : String)
  deriving DecidableEq, Repr

namespace BusFault

/-- The wording of a fault. -/
def message : BusFault → String
  | connectionFailed reason => "Connection failed: " ++ reason
  | connectionClosed => "Connection closed"
  | sendFailed reason => "Send failed: " ++ reason
  | timeout i => s!"Send timed out on interface {i.toNat}"
  | unknownInterface i => s!"Unknown interface {i.toNat}"
  | tooLong n => s!"Frame too long: {n} bytes"
  | badConfig reason => "Invalid configuration: " ++ reason
  | unsupported what => "Transport not supported: " ++ what

/-- The kind of failure that a fault is. -/
def kind : BusFault → FailureKind
  | badConfig _ | unsupported _ => .config
  | _ => .transport

/-- The failure a fault is reported as. -/
def failure (f : BusFault) : Failure :=
  .because f.kind f.message

end BusFault

/-- A transmission under way. -/
structure Flight where
  frame : Frame
  /-- When the frame is transmitted. -/
  arrival : Nat
  /-- Until when the sender waits. -/
  limit : Nat
  deriving DecidableEq, Repr

/-- The end of a transmission. -/
abbrev Sent := Except BusFault Unit

/-- The channel over which the gateway transmits. -/
structure Bus where
  /-- The number of interfaces. -/
  interfaces : UInt8
  /-- The time that a transmission takes. -/
  latency : Nat := 0
  connected : Bool := true
  /-- The frames transmitted with their times, the last one first. -/
  record : List (Nat × Frame) := []

namespace Bus

/-- Why a frame cannot be transmitted now. -/
def refusal (b : Bus) (f : Frame) : Option BusFault :=
  if !b.connected then some .connectionClosed
  else if b.interfaces ≤ f.interface then some (.unknownInterface f.interface)
  else if Message.maxPayload < f.data.length then some (.tooLong f.data.length)
  else none

/-- Starts a transmission for a sender that waits for some time. -/
def launch (b : Bus) (now wait : Nat) (f : Frame) : Except BusFault Flight :=
  match b.refusal f with
  | some fault => .error fault
  | none => .ok { frame := f, arrival := now + b.latency, limit := now + wait }

/-- Transmits a frame. -/
def transmit (b : Bus) (now : Nat) (f : Frame) : Bus :=
  { b with record := (now, f) :: b.record }

/-- The end of a transmission, if its time has come. -/
def land (b : Bus) (now : Nat) (flight : Flight) : Option (Bus × Sent) :=
  if flight.arrival ≤ flight.limit then
    if flight.arrival ≤ now then some (b.transmit now flight.frame, .ok ()) else none
  else if flight.limit ≤ now then some (b, .error (.timeout flight.frame.interface))
  else none

/-- The number of frames transmitted. -/
def count (b : Bus) : Nat := b.record.length

end Bus

/-- When a transmission ends. -/
def Flight.due (flight : Flight) : Nat := min flight.arrival flight.limit

end VehicleGateway
