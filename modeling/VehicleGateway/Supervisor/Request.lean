import VehicleGateway.Message.Opcode
import VehicleGateway.World

/-!
# Requests

A command to an ECU is a message without payload, sent on the ECU's interface.
-/

namespace VehicleGateway.Supervisor

/-- The frame of a command. -/
def requestFrame (record : EcuRecord) (ecu : EcuNo) (o : Opcode) : Frame :=
  ⟨record.interface, (Identifier.command ecu o.code).raw, []⟩

/-- Starts to send a command to an ECU. -/
def request {σ : Type} (w : World σ) (timeout : Nat) (ecu : EcuNo) (o : Opcode) :
    Except Failure Flight :=
  match w.registry.get ecu with
  | .error failure => .error failure
  | .ok record =>
    match w.launch timeout (requestFrame record ecu o) with
    | .ok flight => .ok flight
    | .error fault => .error fault.failure

end VehicleGateway.Supervisor
