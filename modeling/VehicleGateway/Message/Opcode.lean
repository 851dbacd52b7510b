import VehicleGateway.Message.Identifier

/-!
# Command codes

What the gateway can ask of an ECU.  The ECU answers under the identifier of the question.
-/

namespace VehicleGateway

/-- A command to an ECU. -/
inductive Opcode where
  | reportAll
  | reportIdentity
  | reportVersion
  | reportStatus
  | reset
  | sleep
  deriving DecidableEq, Repr

namespace Opcode

/-- The code of a command. -/
def code : Opcode → UInt8
  | .reportAll => 1
  | .reportIdentity => 2
  | .reportVersion => 3
  | .reportStatus => 4
  | .reset => 5
  | .sleep => 6

/-- The command with a code. -/
def ofCode (c : UInt8) : Except MessageFault Opcode :=
  if c = 1 then .ok .reportAll
  else if c = 2 then .ok .reportIdentity
  else if c = 3 then .ok .reportVersion
  else if c = 4 then .ok .reportStatus
  else if c = 5 then .ok .reset
  else if c = 6 then .ok .sleep
  else .error (.unknownOpcode c)

/-- The name of a command in diagnostics. -/
def title : Opcode → String
  | .reportAll => "RequestAll"
  | .reportIdentity => "RequestId"
  | .reportVersion => "RequestFirmwareVersion"
  | .reportStatus => "RequestStatus"
  | .reset => "Reset"
  | .sleep => "Sleep"

theorem ofCode_code (o : Opcode) : ofCode o.code = .ok o := by
  cases o <;> rfl

end Opcode
end VehicleGateway
