import VehicleGateway.Bus.Arrivals
import VehicleGateway.Config
import VehicleGateway.Router
import VehicleGateway.Supervisor.Heartbeat
import VehicleGateway.Supervisor.Response
import VehicleGateway.Update.Session

/-!
# The gateway

A receiver takes frames off the bus and queues them for the router.  The router sends each message
on its way.  The supervisor applies the answers of the ECUs to their records, and the heartbeat asks
the ECUs for their status.  Sessions carry out updates.  All of them share one `World`.

This module holds the state of all that and what is done to it from outside.  How its parts move is
said in `VehicleGateway.Gateway.Step`.
-/

namespace VehicleGateway

/-- The end of an errand. -/
inductive ErrandResult where
  | requested (result : Except Failure Unit)
  | polled (count : Nat)
  | delivered (delivery : Delivery)

/-- Something that the gateway does for a caller who waits for it. -/
inductive Errand where
  /-- A command is sent to an ECU. -/
  | requesting (flight : Flight)
  /-- All ECUs are asked for their status. -/
  | polling (round : Round)
  /-- A message is to be routed. -/
  | routing (m : Message)
  | forwarding (f : Forwarding)
  | ended (result : ErrandResult)

/-- When an errand that waits goes on. -/
def Errand.due? : Errand → Option Nat
  | .requesting flight => some flight.due
  | .polling round => round.due?
  | .forwarding f => f.due?
  | .routing _ | .ended _ => none

/-- The result of an errand that has ended. -/
def Errand.result? : Errand → Option ErrandResult
  | .ended result => some result
  | _ => none

/-- A gateway with a storage of kind `σ`. -/
structure Gateway (σ : Type) extends World σ where
  routes : RoutingTable := ⟨[]⟩
  /-- The longest time for a forwarded frame or a command. -/
  sendTimeout : Nat := 100
  supervision : SupervisorConfig := {}
  firmware : FirmwareConfig := {}
  stats : RouterStats := {}
  /-- The frames that the receiver has not looked at, if there is a receiver. -/
  arrivals : Option Arrivals := none
  /-- The messages that wait for the router; it has a reader while the router runs. -/
  queue : Mailbox Message := .shut
  /-- Whether the router was told to stop and had no turn since. -/
  halting : Bool := false
  /-- The data message that the router is busy with. -/
  forwarding : Option Forwarding := none
  /-- The answers that wait for the supervisor. -/
  tray : Mailbox Message := .shut
  /-- Whether the supervisor runs. -/
  supervising : Bool := false
  heartbeat : Option Heartbeat := none
  /-- All sessions in the order of their start. -/
  sessions : List Session := []
  /-- The key calls that were made from outside. -/
  keyCalls : List Nat := []
  errand : Option Errand := none

namespace Gateway

variable {σ : Type}

/-- The times that a round of status requests keeps. -/
def roundTerms (g : Gateway σ) : RoundTerms :=
  { pause := g.supervision.pause, timeout := g.sendTimeout }

/-- A frame comes in over the bus. -/
def inject (g : Gateway σ) (f : Frame) : Gateway σ :=
  { g with arrivals := g.arrivals.map (·.push f) }

/-- Queues a message for the router, which does not wait for room. -/
def submit (g : Gateway σ) (m : Message) : Gateway σ × Except Failure Unit :=
  match g.queue.posting with
  | .queued => ({ g with queue := g.queue.post m }, .ok ())
  | .full =>
    ({ g with stats := g.stats.drop .queueFull },
      .error (.because .resource "Router queue full"))
  | .gone => (g, .error (.because .resource "Router stopped"))

/-- Starts an update. -/
def startUpdate (g : Gateway σ) (ecu : EcuNo) (image : String) (secure : Bool) :
    Except Failure (Gateway σ) :=
  (g.toWorld.startUpdate g.firmware ecu image secure).map fun (w, s) =>
    { g with toWorld := w, sessions := g.sessions ++ [s] }

/-- The number of ECUs under update. -/
def active (g : Gateway σ) : Nat :=
  g.inboxes.count

/-- Starts to send a command to an ECU. -/
def request (g : Gateway σ) (ecu : EcuNo) (o : Opcode) : Gateway σ :=
  let errand := match Supervisor.request g.toWorld g.sendTimeout ecu o with
    | .ok flight => .requesting flight
    | .error failure => .ended (.requested (.error failure))
  { g with errand := some errand }

/-- Starts to ask all ECUs for their status. -/
def poll (g : Gateway σ) : Gateway σ :=
  { g with errand := some (.polling (Round.ofRegistry g.registry)) }

/-- Starts to route a message for a caller who waits. -/
def route (g : Gateway σ) (m : Message) : Gateway σ :=
  { g with errand := some (.routing m) }

/-- Applies an answer of an ECU to its record. -/
def accept [Storage σ] (g : Gateway σ) (m : Message) : Gateway σ × Except Failure EcuRecord :=
  let (w, result) := Supervisor.accept g.supervision.autoPersist g.toWorld m
  ({ g with toWorld := w }, result)

/-- Makes a key call from outside; without keys there is none to make. -/
def callKeys (g : Gateway σ) (request : KeyRequest) : Gateway σ :=
  match g.keys with
  | none => g
  | some vault =>
    { g with
      keys := some (vault.addCall request)
      keyCalls := g.keyCalls ++ [vault.service.calls.length] }

/-- The outcome of a key call. -/
def keyOutcome? (g : Gateway σ) (call : Nat) : Option KeyOutcome :=
  g.keys.bind (·.outcome? call)

/-- Lets the router run. -/
def openRouter (g : Gateway σ) (depth : Nat) : Gateway σ :=
  { g with queue := { depth } }

/-- Lets the receiver run. -/
def openReceiver (g : Gateway σ) : Gateway σ :=
  { g with arrivals := some {} }

/-- Lets the supervisor run, with its heartbeat. -/
def openSupervisor (g : Gateway σ) (depth : Nat) : Gateway σ :=
  { g with tray := { depth }, supervising := true, heartbeat := some { beat := g.now } }

/-- Tells the router to stop.  It does so at its next turn; until then messages are still queued for
it, although it will not take them. -/
def haltRouter (g : Gateway σ) : Gateway σ :=
  { g with halting := true }

/-- Stops the router.  What waits for it is lost. -/
def stopRouter (g : Gateway σ) : Gateway σ :=
  { g with queue := g.queue.dropReader, halting := false, forwarding := none }

/-- Stops the supervisor and its heartbeat. -/
def stopSupervisor (g : Gateway σ) : Gateway σ :=
  { g with tray := g.tray.dropReader, supervising := false, heartbeat := none }

/-- Stops everything but the sessions. -/
def stop (g : Gateway σ) : Gateway σ :=
  { g.stopRouter.stopSupervisor with arrivals := none }

/-- Stops the gateway and stores the records of all ECUs. -/
def shutdown [Storage σ] (g : Gateway σ) : Gateway σ × Except Failure Nat :=
  let (storage, stored) := g.registry.storeAll g.storage
  ({ g.stop with storage }, stored.mapError StorageFault.failure)

end Gateway
end VehicleGateway
