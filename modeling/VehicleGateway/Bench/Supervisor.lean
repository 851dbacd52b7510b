import VehicleGateway.Bench.Registry
import VehicleGateway.Bench.Rig
import VehicleGateway.Config.Shape
import VehicleGateway.Registry.Listing

/-!
# A bench for the supervisor
-/

namespace VehicleGateway.Bench.Supervisor

/-- A command to an ECU, sent while the caller waits. -/
def request (r : Rig) (d : Document) : Rig × Finding :=
  match Opcode.ofCode (d.octet "opcode") with
  | .error fault => (r, .fault (.message fault))
  | .ok o =>
    match r.waitForErrand (·.request (d.octet "ecu") o) with
    | (r', some (.requested result)) => (r', Finding.done .failure result)
    | (r', _) => (r', .none)

/-- Carries out a step. -/
def act (r : Rig) (d : Document) : Rig × Finding :=
  let ecu := d.octet "ecu"
  let g := r.gateway
  match d.str "do" with
  | "inbound" =>
    match Reading.message d with
    | .error fault => (r, .fault (.message fault))
    | .ok m =>
      let (g', result) := g.accept m
      (r.change fun _ => g', Finding.either .failure Finding.record result)
  | "command" => request r d
  | "heartbeat" =>
    match r.waitForErrand (·.poll) with
    | (r', some (.polled n)) => (r', .table [("polled", .number n)])
    | (r', _) => (r', .none)
  | "print" => (r, Finding.lines g.registry.listing)
  | "set" =>
    let registry := g.registry.modify ecu fun x => Reading.recordWith x (d.field "set")
    (r.change fun g => { g with registry }, Registry.inRecord registry ecu Finding.record)
  | "snapshot" => (r, .list (g.registry.records.map Finding.record))
  | "unavailable" =>
    (r.change fun g => { g with storage := { g.storage with outage := Reading.outage d } }, .okay)
  | "connected" =>
    (r.change fun g => { g with bus := { g.bus with connected := d.flag "value" } }, .okay)
  | "advance" => (r.advance (d.nat "ms"), .okay)
  | "spawn" => ((r.change (·.openSupervisor (d.nat "depth" 32))).wake .supervisor, .okay)
  | "push" =>
    match Reading.message d with
    | .error fault => (r, .fault (.message fault))
    | .ok m =>
      ((r.change fun g => { g with tray := g.tray.post m }).wake .supervisor,
        .text (match g.tray.posting with
          | .queued => "ok"
          | .full => "full"
          | .gone => "closed"))
  | _ => ((r.change fun g => { g with tray := g.tray.dropSender }).settle, .okay)

/-- One step, with what is seen after it. -/
def step (r : Rig) (d : Document) : Rig × Finding :=
  let (acted, found) := act r d
  let r' := if d.flag "hold" then acted else acted.settle
  r'.report found [("stored", Finding.stored r'.gateway.storage)]

/-- Runs a script. -/
def run (d : Document) : Finding :=
  let config := (Config.readSupervisor .json (d.field "config")).getD {}
  let gateway : Gateway Memory :=
    { registry := ⟨Reading.records (d.each "records")⟩
      bus := Reading.bus d
      storage := {}
      sendTimeout := d.nat "send_timeout_ms" 100
      supervision := { config with autoPersist := config.autoPersist && d.flag "storage" true } }
  let (r, items) := Script.runThrough step { gateway } (d.each "steps")
  .table [("steps", .list items),
    ("records", .list (r.gateway.registry.records.map Finding.record))]

end VehicleGateway.Bench.Supervisor
