import VehicleGateway.Bench.Supervisor
import VehicleGateway.Bench.Keys
import VehicleGateway.Gateway.Start
import VehicleGateway.Keys.Provision

/-!
# A bench for the whole gateway
-/

namespace VehicleGateway.Bench.Gateway

/-- A gateway on a bench, and whether it was shut down. -/
structure Room where
  rig : Rig
  down : Bool := false

/-- The header record of an image: as it is, or with the tag of some data under some key. -/
def header (d : Document) : Bytes :=
  if d.has "hex" then d.bytes "hex"
  else
    let tag := Mac.tag (Reading.block d "key") (Reading.blob (d.field "data"))
    FirmwareHeader.encode
      { opcode := d.octet "opcode", version := d.quad "version", length := d.quad "length",
        target := d.octet "target", tag }

/-- The report of an update. -/
def updateReport (u : UpdateReport) : Finding :=
  .table [("ecu", Finding.octet u.ecu), ("image", .text u.image), ("secure", .truth u.secure),
    ("state", .text Stage.complete.name), ("chunks", .number u.chunks), ("bytes", .number u.bytes),
    ("padded", .truth u.padded),
    ("firmware_version", Finding.maybe (fun v : UInt32 => .number v.toNat) u.version)]

/-- What is seen of an update before it first moves. -/
def started (g : VehicleGateway.Gateway Memory) (handle : Nat) : Finding :=
  match g.sessions[handle]? with
  | none => .none
  | some s =>
    .table [("handle", .number handle), ("ecu", Finding.octet s.ecu), ("state", .text s.stage.name),
      ("status", Finding.maybe (fun x : Status => .text x.name) (g.registry.status? s.ecu)),
      ("active", .truth (g.inboxes.active s.ecu))]

/-- Starts an update. -/
def startUpdate (r : Rig) (d : Document) : Rig × Finding :=
  match r.gateway.startUpdate (d.octet "ecu") (d.str "image") (d.flag "secure") with
  | .error failure => (r, .fault (.failure failure))
  | .ok g =>
    let n := r.gateway.sessions.length
    ((r.change fun _ => g).wake (.session n), started g n)

/-- Makes a key call and waits for its end. -/
def callKeys (r : Rig) (d : Document) : Rig × Finding :=
  match Keys.readCall (d.field "call"), r.gateway.keys with
  | .error f, _ => (r, Keys.notBuilt f)
  | .ok _, none => (r, .none)
  | .ok asked, some vault =>
    match (r.change (·.callKeys asked.request)).waitForKeys vault.service.calls.length with
    | (r', some outcome) => (r', Finding.keyOutcome asked.display outcome)
    | (r', none) => (r', .none)

/-- Makes a key call that runs on its own. -/
def detachKeys (r : Rig) (d : Document) : Rig × Finding :=
  match Keys.readCall (d.field "call"), r.gateway.keys with
  | .error f, _ => (r, Keys.notBuilt f)
  | .ok _, none => (r, .okay)
  | .ok asked, some vault =>
    ((r.change (·.callKeys asked.request)).wake (.keyCall vault.service.calls.length), .okay)

/-- Carries out a step on a rig. -/
def act (r : Rig) (d : Document) : Rig × Finding :=
  let ecu := d.octet "ecu"
  let g := r.gateway
  match d.str "do" with
  | "inject" => (r.inject [Reading.frame d (d.bytes "data")], .okay)
  | "advance" => (r.advance (d.nat "ms"), .okay)
  | "submit" =>
    match Reading.message d with
    | .error fault => (r, .fault (.message fault))
    | .ok m =>
      let (r', result) := r.submit m
      (r', Finding.done .failure result)
  | "start_update" => startUpdate r d
  | "wait" =>
    match r.waitForSession (d.nat "handle") with
    | (r', some result) => (r', Finding.either .ended updateReport result)
    | (r', none) => (r', .none)
  | "set_status" =>
    (r.change fun g =>
        { g with registry := g.registry.setStatus ecu (Reading.status (d.str "status")) },
      Registry.inRecord g.registry ecu fun x => .table [("previous", .text x.status.name)])
  | "get" => (r, Registry.inRecord g.registry ecu Finding.record)
  | "stats" => (r, Finding.stats g.stats)
  | "command" => Supervisor.request r d
  | "print" => (r, Finding.lines g.registry.listing)
  | "unavailable" =>
    (r.change fun g => { g with storage := { g.storage with outage := Reading.outage d } }, .okay)
  | "connected" =>
    (r.change fun g => { g with bus := { g.bus with connected := d.flag "value" } }, .okay)
  | "add_image" =>
    let data := Reading.blob (d.field "data")
    (r.change fun g => { g with storage := g.storage.addImage (d.str "name") data }, .okay)
  | "add_header" =>
    let data := header (d.field "header")
    (r.change fun g => { g with storage := g.storage.addHeader (d.str "name") data }, .okay)
  | "ecus" =>
    let ecus := { Reading.ecus (d.field "ecus") with planned := r.ecus.planned }
    ({ r with ecus }, .okay)
  | "key" => callKeys r d
  | "key_spawn" => detachKeys r d
  | _ =>
    let (g', result) := g.shutdown
    (r.change fun _ => g', Finding.either .failure (fun n => .table [("stored", .number n)]) result)

/-- One step, with what is seen after it. -/
def step (r : Room) (d : Document) : Room × Finding :=
  let down := r.down || d.str "do" = "shutdown"
  let (acted, found) := act r.rig d
  let rig := if d.flag "hold" then acted else acted.settle
  let g := rig.gateway
  let (rig', item) := rig.report found
    [("sessions", .list (g.sessions.map fun s => .text s.stage.name)),
      ("status", .list (g.registry.records.map fun x => .text x.status.name)),
      ("active", if down then .none else .number g.active)]
  ({ rig := rig', down }, item)

/-- What the storage holds at the start. -/
def storage (d : Document) : Memory :=
  let m : Memory := { outage := (d.field "unavailable").toText? }
  let m := (d.each "images").foldl
    (fun m i => m.addImage (i.str "name") (Reading.blob (i.field "data"))) m
  let m := (d.each "headers").foldl
    (fun m h => m.addHeader (h.str "name") (header (h.field "header"))) m
  (d.each "stored").foldl (fun m s => m.putRecord (s.octet "ecu") (s.bytes "data")) m

/-- Starts a gateway and runs a script on it. -/
def runOn (d : Document) (c : Config) (keys : Option Vault) (now : Nat) : List (String × Finding) :=
  match Gateway.start c now (Reading.bus (d.field "channel")) (storage d) keys with
  | .error failure => [("start", .fault (.failure failure))]
  | .ok gateway =>
    let rig : Rig := { gateway, ecus := Reading.ecus (d.field "ecus") }
    let settled := rig.settle
    let watched := settled.watch
    let start : Finding :=
      .table [("t", .number settled.gateway.now), ("sent", Finding.transmissions watched.seen),
        ("keys", .truth keys.isSome)]
    let (r, items) := Script.runThrough step { rig := { watched with seen := [] } } (d.each "steps")
    let g := r.rig.gateway
    [("start", start), ("steps", .list items), ("stats", Finding.stats g.stats),
      ("records", .list (g.registry.records.map Finding.record)),
      ("stored", Finding.stored g.storage)]

/-- Runs a script. -/
def run (d : Document) : Finding :=
  match Config.ofDocument .json (d.field "config") with
  | none => .fault (.config (.malformed ""))
  | some c =>
    if d.flag "keys" true then
      match c.keys.vault Reading.entropy with
      | .error fault => .table [("create", .fault (.config fault))]
      | .ok vault =>
        let (vault', now, provisioned) := vault.provision 0 c.keys
        .table (("provisioned", Finding.either .failure .number provisioned) ::
          runOn d c (some vault') now)
    else .table (runOn d c none 0)

end VehicleGateway.Bench.Gateway
