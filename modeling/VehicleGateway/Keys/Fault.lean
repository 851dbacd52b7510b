import VehicleGateway.Failure
import VehicleGateway.Keys.Slot
import VehicleGateway.Text.Span

/-!
# What goes wrong with keys

Errors that a secure element reports, and those of the service in front of it.
-/

namespace VehicleGateway

/-- An error that a secure element reports. -/
inductive ElementFault where
  | sequence
  | notAvailable
  | notPermitted
  | empty
  | writeProtected
  | updateRejected
  | noDebugging
  | busy
  | memory
  | length (n : Nat)
  | cancelled
  | general
  deriving DecidableEq, Repr

/-- The wording of an element's error. -/
def ElementFault.message : ElementFault → String
  | .sequence => "Command issued out of sequence"
  | .notAvailable => "Key not available for this operation"
  | .notPermitted => "Key usage not permitted"
  | .empty => "Key slot is empty"
  | .writeProtected => "Key slot is write protected"
  | .updateRejected => "Key update rejected"
  | .noDebugging => "Debugging not authorized"
  | .busy => "Secure element busy"
  | .memory => "Secure element memory failure"
  | .length n => s!"Invalid data length {n}"
  | .cancelled => "Command cancelled"
  | .general => "General secure element error"

/-- Why a call of the key service does not succeed. -/
inductive KeyFault where
  | busy
  /-- The element did not answer in time; the time is in microseconds. -/
  | timeout (micros : Nat)
  | notIncreasing (slot : KeySlot) (counter stored : Nat)
  | overflow (counter : Nat)
  | badSlot (slot : KeySlot)
  | noAuthority
  | unverified
  | unexpected (command : String)
  | element (fault : ElementFault)
  | closed
  deriving DecidableEq, Repr

namespace KeyFault

/-- The wording of a fault. -/
def message : KeyFault → String
  | busy => "Secure element busy"
  | timeout us => "Secure element command timed out after " ++ Span.ofMicros us
  | notIncreasing slot counter stored =>
    s!"Anti-replay violation on {slot.name}: counter {counter} does not exceed {stored}"
  | overflow counter => s!"Counter {counter} exceeds 28 bits"
  | badSlot slot => s!"Slot {slot.name} cannot be loaded this way"
  | noAuthority => "Authorization key not provisioned"
  | unverified => "Key load verification failed (M4/M5 mismatch)"
  | unexpected command => "Unexpected secure element response to " ++ command
  | element fault => "Secure element error: " ++ fault.message
  | closed => "Key service task ended without a result"

/-- The kind of failure that a fault is.  Being busy is a matter of resources, silence one of
transport, all else one of security. -/
def kind : KeyFault → FailureKind
  | busy | element .busy => .resource
  | timeout _ => .transport
  | _ => .security

/-- The failure a fault is reported as. -/
def failure (f : KeyFault) : Failure :=
  .because f.kind f.message

end KeyFault
end VehicleGateway
