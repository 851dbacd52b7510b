import VehicleGateway.Bench.Script
import VehicleGateway.Registry.Restore
import VehicleGateway.Storage.Memory

/-!
# A bench for the registry

A registry and a storage in memory.
-/

namespace VehicleGateway.Bench.Registry

/-- What is found in the record of an ECU, if it has one. -/
def inRecord (r : VehicleGateway.Registry) (ecu : EcuNo) (f : EcuRecord → Finding) : Finding :=
  Finding.either .failure f (r.get ecu)

/-- One step. -/
def step (s : VehicleGateway.Registry × Memory) (d : Document) :
    (VehicleGateway.Registry × Memory) × Finding :=
  let (r, m) := s
  let ecu := d.octet "ecu"
  match d.str "do" with
  | "len" => (s, .table [("len", .number r.size), ("is_empty", .truth (r.size = 0))])
  | "ids" => (s, .list (r.numbers.map Finding.octet))
  | "contains" => (s, .truth (r.contains ecu))
  | "get" => (s, inRecord r ecu Finding.record)
  | "status" => (s, inRecord r ecu fun x => .text x.status.name)
  | "set_status" =>
    ((r.setStatus ecu (Reading.status (d.str "status")), m),
      inRecord r ecu fun x => .table [("previous", .text x.status.name)])
  | "update" =>
    let r' := r.modify ecu fun x => Reading.recordWith x (d.field "set")
    ((r', m), inRecord r' ecu Finding.record)
  | "replace" =>
    ((r.replace ecu (Reading.record (d.field "record")), m), inRecord r ecu fun _ => .okay)
  | "snapshot" => (s, .list (r.records.map Finding.record))
  | "store_to" =>
    let (m', done) := r.storeAll m
    ((r, m'), Finding.either .storage (fun n => .table [("stored", .number n)]) done)
  | "store_one" =>
    match r.storeOne m ecu with
    | .ok m' => ((r, m'), .okay)
    | .error f => (s, .fault (.storage f))
  | "load_from" =>
    let (r', found) := r.restore m
    ((r', m), Finding.either .storage (fun (x : Restored) => .table [("loaded", .number x.loaded),
      ("missing", .number x.missing), ("corrupted", .number x.corrupted)]) found)
  | "put_record" => ((r, m.putRecord ecu (d.bytes "data")), .okay)
  | "stored" => (s, Finding.maybe Finding.bytes (m.records.get? ecu))
  | _ => ((r, { m with outage := Reading.outage d }), .okay)

/-- Runs a script. -/
def run (d : Document) : Finding :=
  .table [("steps",
    .list (Script.run step (⟨Reading.records (d.each "records")⟩, {}) (d.each "steps")))]

end VehicleGateway.Bench.Registry
