import VehicleGateway.Ecu.Report
import VehicleGateway.Message.Opcode
import VehicleGateway.World

/-!
# Responses

An ECU answers a command under the identifier of the command, and the answer changes its record.
Whether an ECU is under update is not for it to say: an answer neither begins nor ends that.
-/

namespace VehicleGateway

/-- The status after a reported one: `updating` neither comes nor goes by a report. -/
def Status.after (old reported : Status) : Status :=
  if old = .updating ∨ reported = .updating then old else reported

/-- A record after the response to a command. -/
def EcuRecord.afterResponse (r : EcuRecord) (o : Opcode) (payload : Bytes) :
    Except RecordFault EcuRecord :=
  match o with
  | .reportAll =>
    (EcuRecord.ofReport payload).map fun report =>
      { report with status := r.status.after report.status }
  | .reportIdentity => r.withIdentity payload
  | .reportVersion => r.withVersion payload
  | .reportStatus =>
    (EcuRecord.reportedStatus payload).map fun status => { r with status := r.status.after status }
  | .reset => .ok { r with status := r.status.after .normal }
  | .sleep => .ok { r with status := r.status.after .sleeping }

namespace Supervisor

/-- The ECU and the command that a message responds to. -/
def question (m : Message) : Except Failure (EcuNo × Opcode) :=
  match m.id.heading with
  | .ok (.command ecu code) =>
    match Opcode.ofCode code with
    | .ok o => .ok (ecu, o)
    | .error fault => .error (.because .protocol fault.message)
  | _ => .error (.because .protocol ("Not a command message: " ++ m.id.display))

/-- What a message says about an ECU: the record before and after it. -/
def reading (registry : Registry) (m : Message) :
    Except Failure (EcuNo × EcuRecord × EcuRecord) := do
  let (ecu, o) ← question m
  let before ← registry.get ecu
  match before.afterResponse o m.payload with
  | .ok record => .ok (ecu, before, record)
  | .error fault =>
    .error (.because .protocol s!"ECU {ecu.toNat} {o.title} response: {fault.message}")

/-- Applies a message from an ECU to its record.  A record that changes is stored, if records are
to be; the storage may refuse. -/
def accept {σ : Type} [Storage σ] (persists : Bool) (w : World σ) (m : Message) :
    World σ × Except Failure EcuRecord :=
  match reading w.registry m with
  | .error failure => (w, .error failure)
  | .ok (ecu, before, record) =>
    let w' := { w with registry := w.registry.replace ecu record }
    (if record ≠ before ∧ persists then w'.persist ecu else w', .ok record)

end Supervisor
end VehicleGateway
