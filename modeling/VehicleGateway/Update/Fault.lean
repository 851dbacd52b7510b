import VehicleGateway.Bus
import VehicleGateway.Keys.Fault
import VehicleGateway.Storage

/-!
# What goes wrong in an update

An update passes through stages, and it fails for one cause.
-/

namespace VehicleGateway

/-- How far an update has come. -/
inductive Stage where
  | idle
  | resetSent
  | beginSent
  | awaitingChallenge
  | transferring
  | endSent
  | complete
  | failed
  deriving DecidableEq, Repr

namespace Stage

/-- The name of a stage. -/
def name : Stage → String
  | idle => "idle"
  | resetSent => "reset_sent"
  | beginSent => "begin_sent"
  | awaitingChallenge => "awaiting_challenge"
  | transferring => "transferring"
  | endSent => "end_sent"
  | complete => "complete"
  | failed => "failed"

/-- The name of a stage in diagnostics. -/
def title : Stage → String
  | idle => "Idle"
  | resetSent => "ResetSent"
  | beginSent => "BeginSent"
  | awaitingChallenge => "AwaitingChallenge"
  | transferring => "Transferring"
  | endSent => "EndSent"
  | complete => "Complete"
  | failed => "Failed"

/-- Every stage. -/
def all : List Stage :=
  [idle, resetSent, beginSent, awaitingChallenge, transferring, endSent, complete, failed]

/-- Whether no other stage follows. -/
def terminal (s : Stage) : Bool :=
  s = complete || s = failed

end Stage

/-- Why an update fails. -/
inductive UpdateFault where
  | timeout (stage : Stage)
  | unexpected (stage : Stage) (payload : Bytes)
  | refused (stage : Stage)
  | challengeLength (n : Nat)
  | badHeader (reason : String)
  | storage (fault : StorageFault)
  | key (fault : KeyFault)
  | noKeyService
  | bus (fault : BusFault)
  | inboxClosed
  | aborted
  deriving DecidableEq, Repr

namespace UpdateFault

/-- The wording of a fault. -/
def message : UpdateFault → String
  | timeout s => "No response in state " ++ s.title
  | unexpected s payload => "Unexpected response " ++ Hex.listing payload ++ " in state " ++ s.title
  | refused s => "ECU refused in state " ++ s.title
  | challengeLength n => s!"Challenge has {n} bytes, expected 16"
  | badHeader reason => "Invalid firmware header: " ++ reason
  | storage fault => "Firmware image unreadable: " ++ fault.message
  | key fault => "Key service failure: " ++ fault.message
  | noKeyService => "No key service configured"
  | bus fault => "Transport failure: " ++ fault.message
  | inboxClosed => "Session inbox closed"
  | aborted => "Session task aborted"

/-- The kind of failure that a fault is. -/
def kind : UpdateFault → FailureKind
  | timeout _ | bus _ => .transport
  | unexpected _ _ | refused _ | challengeLength _ | inboxClosed | aborted => .protocol
  | badHeader _ | noKeyService => .security
  | key .busy => .resource
  | key _ => .security
  | storage _ => .storage

/-- Whether the gateway itself, or the image, is at fault and not the ECU. -/
def fatal : UpdateFault → Bool
  | badHeader _ | storage _ | key _ | noKeyService => true
  | _ => false

/-- The failure a fault is reported as. -/
def failure (f : UpdateFault) : Failure :=
  .because f.kind f.message

end UpdateFault
end VehicleGateway
