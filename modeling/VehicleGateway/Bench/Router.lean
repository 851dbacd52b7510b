import VehicleGateway.Bench.Rig
import VehicleGateway.Bench.Registry

/-!
# A bench for the router

A router with bare queues in place of the supervisor and of the updates.  At first a step routes a
message itself; once the router is opened it takes messages from its queue.
-/

namespace VehicleGateway.Bench.Router

/-- A router on a bench. -/
structure Room where
  rig : Rig
  /-- The inboxes that are still held, by ECU. -/
  held : Dictionary EcuNo Nat := ∅

/-- The name of a reason. -/
def reasonName : DropReason → String
  | .unrouted => "Unrouted"
  | .malformed => "Malformed"
  | .queueFull => "QueueFull"
  | .noSession => "NoSession"
  | .sendFailed => "SendFailed"

/-- What became of a message. -/
def delivery : Delivery → Finding
  | .forwarded n => .table [("forwarded", .number n)]
  | .toSupervisor => .text "to_controller"
  | .toSession ecu => .table [("to_session", Finding.octet ecu)]
  | .dropped reason => .table [("dropped", .text (reasonName reason))]

/-- Takes a message out of a queue, or says why there is none. -/
def taken (last : String) (box : Mailbox Message) : Option (Message × Mailbox Message) × Finding :=
  match box.take? with
  | some (m, rest) => (some (m, rest), Finding.message m)
  | none => (none, .text (if box.finished then last else "Empty"))

/-- The frames of a step that may stand for several. -/
def frames (d : Document) : List Frame :=
  (List.range (d.nat "repeat" 1)).map fun i =>
    let f := Reading.frame d (d.bytes "data")
    { f with id := f.id + .ofNat (i * d.nat "id_step") }

/-- Claims an ECU. -/
def claim (r : Room) (ecu : EcuNo) (depth : Nat) : Room × Finding :=
  match r.rig.gateway.inboxes.claim ecu depth with
  | .error failure => (r, .fault (.failure failure))
  | .ok (inboxes, n) =>
    ({ rig := r.rig.change fun g => { g with inboxes }, held := r.held.insert ecu n },
      .table [("claimed", Finding.octet ecu)])

/-- Carries out a step. -/
def act (r : Room) (d : Document) : Room × Finding :=
  let ecu := d.octet "ecu"
  let g := r.rig.gateway
  let change (f : Gateway Memory → Gateway Memory) : Room := { r with rig := r.rig.change f }
  match d.str "do" with
  | "submit" =>
    match Reading.message d with
    | .error fault => (r, .fault (.message fault))
    | .ok m =>
      match r.rig.waitForErrand (·.route m) with
      | (rig, some (.delivered d)) => ({ r with rig }, delivery d)
      | (rig, _) => ({ r with rig }, .none)
  | "controller_recv" =>
    if g.tray.hasReader then
      match taken "gone" g.tray with
      | (some (_, tray), found) => (change fun g => { g with tray }, found)
      | (none, found) => (r, found)
    else (r, .text "gone")
  | "controller_drop" => (change fun g => { g with tray := g.tray.dropReader }, .okay)
  | "claim" => claim r ecu (d.nat "depth" 1)
  | "release" =>
    (change fun g => { g with inboxes := g.inboxes.release ecu }, .truth (g.inboxes.active ecu))
  | "session_recv" =>
    match r.held.get? ecu with
    | none => (r, .text "gone")
    | some n =>
      match taken "Disconnected" ((g.inboxes.boxes[n]?).getD .shut) with
      | (some (_, box), found) =>
        (change fun g => { g with inboxes := g.inboxes.modify n fun _ => box }, found)
      | (none, found) => (r, found)
  | "session_drop" =>
    match r.held.get? ecu with
    | none => (r, .truth false)
    | some n =>
      ({ rig := r.rig.change fun g => { g with inboxes := g.inboxes.abandon n }
         held := r.held.erase ecu }, .truth true)
  | "connected" =>
    (change fun g => { g with bus := { g.bus with connected := d.flag "value" } }, .okay)
  | "update" =>
    let registry := g.registry.modify ecu fun x => Reading.recordWith x (d.field "set")
    (change fun g => { g with registry }, Registry.inRecord registry ecu Finding.record)
  | "advance" => ({ r with rig := r.rig.advance (d.nat "ms") }, .okay)
  | "spawn" =>
    let opened := (r.rig.change (·.openRouter (d.nat "depth" 1))).wake .router
    ({ r with rig := if d.flag "receiver" then (opened.change (·.openReceiver)).wake .receiver
        else opened }, .okay)
  | "try_submit" =>
    match Reading.message d with
    | .error fault => (r, .fault (.message fault))
    | .ok m =>
      let (rig, result) := r.rig.submit m
      ({ r with rig }, Finding.done .failure result)
  | "inject" => ({ r with rig := r.rig.inject (frames d) }, .okay)
  | _ => ({ r with rig := r.rig.haltRouter }, .okay)

/-- The ECUs that are claimed, in the order of their numbers. -/
def claimed (i : Inboxes) : List EcuNo :=
  ((List.range 256).map UInt8.ofNat).filter i.active

/-- One step, with what is seen after it. -/
def step (r : Room) (d : Document) : Room × Finding :=
  let (acted, found) := act r d
  let rig := if d.flag "hold" then acted.rig else acted.rig.settle
  let inboxes := rig.gateway.inboxes
  let (rig', item) := rig.report found
    [("stats", Finding.stats rig.gateway.stats), ("sessions", .number inboxes.count),
      ("active", .list ((claimed inboxes).map Finding.octet))]
  ({ acted with rig := rig' }, item)

/-- The route in a table entry. -/
def route (d : Document) : Route :=
  { label := d.str "label", destinations := d.octets "destinations" }

/-- Runs a script. -/
def run (d : Document) : Finding :=
  let gateway : Gateway Memory :=
    { registry := ⟨Reading.records (d.each "records")⟩
      bus := Reading.bus d
      storage := {}
      routes := ⟨(d.each "routes").map route⟩
      sendTimeout := d.nat "send_timeout_ms" 100
      tray := { depth := d.nat "controller_depth" 1 } }
  let (r, items) := Script.runThrough step { rig := { gateway } } (d.each "steps")
  .table [("steps", .list items), ("no_sessions", .truth (r.rig.gateway.inboxes.count = 0))]

end VehicleGateway.Bench.Router
