import VehicleGateway.Clockwork
import VehicleGateway.Bench.Ecus
import VehicleGateway.Bench.Script
import VehicleGateway.Gateway.Step
import VehicleGateway.Storage.Memory

/-!
# The rig

A gateway, or some of its parts, with scripted ECUs on its bus and a storage in memory.  Parts that
are given something to do from outside have their turns in that order.
-/

namespace VehicleGateway.Bench

/-- A gateway on a bench. -/
structure Rig where
  gateway : Gateway Memory
  ecus : Ecus := {}
  /-- The frames that the ECUs have seen since the last step, the last one first. -/
  seen : List (Nat × Frame) := []
  /-- The parts that were given something to do while all were held, in that order. -/
  line : List Part := []

/-- Who moves on a bench. -/
inductive Mover where
  | ecus
  | part (p : Part)

namespace Rig

/-- The ECUs see the frames that were transmitted. -/
def watch (r : Rig) : Rig :=
  let frames := r.gateway.bus.record
  { r with
    gateway := { r.gateway with bus := { r.gateway.bus with record := [] } }
    ecus := frames.foldr (fun (t, f) e => e.react t f) r.ecus
    seen := frames ++ r.seen }

/-- The parts of the gateway in the order of their turns. -/
def order (r : Rig) : List Part :=
  r.line ++ r.gateway.parts.filter (· ∉ r.line)

/-- The move of the ECUs: they see what was transmitted, or send what is due. -/
def ecuStep? (r : Rig) : Option Rig :=
  if r.gateway.bus.record.isEmpty then
    (r.ecus.emit? r.gateway.now).map fun (f, ecus) =>
      { r with ecus, gateway := r.gateway.inject f }
  else some r.watch

instance : Clockwork Rig Mover where
  now r := r.gateway.now
  setNow r now := { r with gateway := { r.gateway with now } }
  actors r := .ecus :: r.order.map .part
  step?
    | r, .ecus => r.ecuStep?
    | r, .part p => (r.gateway.step? p).map fun gateway => { r with gateway }
  due?
    | r, .ecus => r.ecus.due?
    | r, .part p => r.gateway.due? p
  backlog
    | _, .ecus => 0
    | r, .part p => r.gateway.backlog p

/-- A part that was given something to do stands behind those that were before. -/
def wake (p : Part) (r : Rig) : Rig :=
  if p ∈ r.line then r else { r with line := r.line ++ [p] }

/-- Turns for all until nobody can move. -/
def settle (r : Rig) : Rig := { Clockwork.settle r with line := [] }

/-- Lets the clock go on. -/
def advance (r : Rig) (n : Nat) : Rig := Clockwork.advance r.settle n

/-- Lets the clock go on until a condition holds. -/
def runUntil (done : Rig → Bool) (r : Rig) : Rig :=
  if done r then r else Clockwork.run done r.settle

/-- A turn for one part before all others. -/
def urge (r : Rig) (p : Part) : Rig :=
  (Clockwork.turn (.part p) Clockwork.bound Clockwork.takesPerTurn false r).1

/-- Changes the gateway. -/
def change (r : Rig) (f : Gateway Memory → Gateway Memory) : Rig :=
  { r with gateway := f r.gateway }

/-- Frames come in over the bus. -/
def inject (r : Rig) (frames : List Frame) : Rig :=
  (r.change fun g => frames.foldl Gateway.inject g).wake .receiver

/-- Queues a message for the router.  A router that is busy with a transmission does not notice. -/
def submit (r : Rig) (m : Message) : Rig × Except Failure Unit :=
  let (g, result) := r.gateway.submit m
  let r' := r.change fun _ => g
  (if g.forwarding.isSome then r' else r'.wake .router, result)

/-- Tells the router to stop. -/
def haltRouter (r : Rig) : Rig :=
  (r.change (·.haltRouter)).wake .router

/-- Gives the gateway an errand and waits for its end. -/
def waitForErrand (r : Rig) (f : Gateway Memory → Gateway Memory) : Rig × Option ErrandResult :=
  let ended (r : Rig) : Bool := (r.gateway.errand.bind Errand.result?).isSome
  let r' := ((r.change f).urge .errand).runUntil ended
  (r'.change fun g => { g with errand := none }, r'.gateway.errand.bind Errand.result?)

/-- Waits for the end of a key call. -/
def waitForKeys (r : Rig) (call : Nat) : Rig × Option KeyOutcome :=
  let r' := (r.urge (.keyCall call)).runUntil fun r => (r.gateway.keyOutcome? call).isSome
  (r', r'.gateway.keyOutcome? call)

/-- Waits for the end of a session, if there is one. -/
def waitForSession (r : Rig) (n : Nat) : Rig × Option (Except UpdateFault UpdateReport) :=
  let session (r : Rig) := r.gateway.sessions[n]?
  let r' := r.runUntil fun r => (session r).all (·.report?.isSome)
  (r', (session r').bind (·.report?))

end Rig

/-- The frames of one time are shown in groups: first data and what has no meaning, then commands,
then firmware, the last two by ECU. -/
def frameGroup (f : Frame) : Nat :=
  match (Identifier.mk f.id).heading with
  | .ok (.command ecu _) => 256 + ecu.toNat
  | .ok (.firmware ecu _) => 512 + ecu.toNat
  | _ => 0

/-- Whether a transmitted frame is shown before another, or may be. -/
def shownFirst (a b : Nat × Frame) : Bool :=
  if a.1 = b.1 then frameGroup a.2 ≤ frameGroup b.2 else a.1 < b.1

end VehicleGateway.Bench

namespace VehicleGateway.Finding

/-- A frame with the time of its transmission. -/
def timed : Nat × Frame → Finding
  | (t, f) => .list [.number t, octet f.interface, .number f.id.toNat, bytes f.data]

/-- Frames in the order in which they are shown, given the last one first. -/
def transmissions (frames : List (Nat × Frame)) : Finding :=
  .list ((frames.reverse.mergeSort Bench.shownFirst).map timed)

/-- The counters of the router. -/
def stats (s : RouterStats) : Finding :=
  .table [("received", .number s.received), ("forwarded", .number s.forwarded),
    ("to_controller", .number s.toSupervisor), ("to_session", .number s.toSession),
    ("unrouted", .number s.unrouted), ("malformed", .number s.malformed),
    ("queue_full", .number s.queueFull), ("no_session", .number s.noSession),
    ("send_failed", .number s.sendFailed), ("dropped", .number s.dropped)]

/-- The records that are stored, by ECU. -/
def stored (m : Memory) : Finding :=
  .table (m.records.entries.map fun (ecu, data) => (toString ecu.toNat, bytes data))

/-- The lines of a listing. -/
def lines (ls : List String) : Finding :=
  .table [("lines", .list (ls.map .text))]

/-- That something was done, or why not. -/
def done {ε α : Type} (fault : ε → AnyFault) (r : Except ε α) : Finding :=
  either fault (fun _ => okay) r

end VehicleGateway.Finding

namespace VehicleGateway.Bench.Rig

/-- What is seen after a step: the time, what the step found, the frames transmitted since the last
step, and more. -/
def report (r : Rig) (found : Finding) (more : List (String × Finding)) : Rig × Finding :=
  let watched := r.watch
  ({ watched with seen := [] },
    .table ([("t", .number r.gateway.now), ("r", found),
      ("sent", Finding.transmissions watched.seen)] ++ more))

end VehicleGateway.Bench.Rig

namespace VehicleGateway.Reading

/-- The message in a step. -/
def message (d : Document) : Except MessageFault Message :=
  Message.make ⟨d.quad "id"⟩ (d.bytes "payload")

/-- The bus of a bench. -/
def bus (d : Document) : Bus :=
  { interfaces := d.octet "interfaces" 4, latency := d.nat "latency_ms" }

end VehicleGateway.Reading
