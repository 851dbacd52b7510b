import VehicleGateway.Bench.Rig

/-!
# A bench for the bus

A bus with one listener, who has been there from the start.
-/

namespace VehicleGateway.Bench.Channel

/-- A bus with a clock and a listener. -/
structure Room where
  now : Nat := 0
  bus : Bus
  arrivals : Arrivals := {}

/-- Transmits a frame; the sender waits as long as it takes. -/
def send (r : Room) (f : Frame) : Room × Finding :=
  match r.bus.refusal f with
  | some fault => (r, .fault (.bus fault))
  | none =>
    let now := r.now + r.bus.latency
    ({ r with now, bus := r.bus.transmit now f }, .okay)

/-- Carries out a step. -/
def act (r : Room) (d : Document) : Room × Finding :=
  match d.str "do" with
  | "send" => send r (Reading.frame d (Reading.blob (d.field "data")))
  | "inject" =>
    let f := Reading.frame d (Reading.blob (d.field "data"))
    ({ r with arrivals := r.arrivals.push f }, .okay)
  | "recv" =>
    match r.arrivals.next? with
    | none => (r, .text "Empty")
    | some (f, arrivals) => ({ r with arrivals }, Finding.maybe Finding.frame f)
  | "connected" =>
    let connected := d.flag "value"
    ({ r with bus := { r.bus with connected } }, .truth connected)
  | "sent_with_id" =>
    let found := r.bus.record.reverse.filter fun e => e.2.id = d.quad "id"
    (r, .list (found.map fun e => .list [Finding.octet e.2.interface, Finding.bytes e.2.data]))
  | "sent_count" => (r, .number r.bus.count)
  | _ => ({ r with bus := { r.bus with record := [] } }, .okay)

/-- One step, with what is seen after it. -/
def step (r : Room) (d : Document) : Room × Finding :=
  let (r', found) := act r d
  let frames := r'.bus.record.take (r'.bus.count - r.bus.count)
  (r', .table [("t", .number r'.now), ("r", found), ("sent", Finding.transmissions frames)])

/-- Runs a script. -/
def run (d : Document) : Finding :=
  .table [("steps", .list (Script.run step { bus := Reading.bus d } (d.each "steps")))]

end VehicleGateway.Bench.Channel
