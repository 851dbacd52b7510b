import VehicleGateway.Gateway.Clock
import VehicleGateway.Gateway.Start
import VehicleGateway.Keys.Entropy
import VehicleGateway.Keys.Provision
import VehicleGateway.Registry.Listing
import VehicleGateway.Storage.Memory

/-!
# The program

What the program does with its arguments and a configuration.  It opens the channel, loads the
keys, starts a gateway, lets it run for some time and shuts it down.  Its answer is a list of lines,
or the first failure.
-/

namespace VehicleGateway.Program

/-- What the program is asked to do. -/
structure Task where
  /-- Whether the demonstration runs, and no configuration is read. -/
  demo : Bool := false
  /-- Whether the registry is listed after the start. -/
  listing : Bool := false
  /-- How long the gateway runs, in milliseconds. -/
  span : Nat := 0
  deriving DecidableEq, Repr

/-- How the program is called. -/
def usage : String :=
  "Usage: gateway [--demo] [--print-registry] [--run MILLISECONDS] < CONFIGURATION"

/-- Reads the arguments.  A later one takes the place of an earlier one. -/
def Task.read : Task → List String → Option Task
  | t, [] => some t
  | t, "--demo" :: rest => read { t with demo := true } rest
  | t, "--print-registry" :: rest => read { t with listing := true } rest
  | t, "--run" :: n :: rest =>
    match n.toNat? with
    | some span => read { t with span } rest
    | none => none
  | _, _ => none

/-- Three ECUs on the mock channel, the first of which tells the others how fast the vehicle is. -/
def demonstration : Config :=
  { ecus :=
      [{ protocol := .canFd, interface := 0, secure := true },
       { protocol := .can, interface := 1 },
       { protocol := .can, interface := 2, order := .little }]
    routes := [{ index := 0, label := "vehicle_speed", destinations := [1, 2] }] }

/-- The line of a frame that was transmitted. -/
def frameLine (sent : Nat × Frame) : String :=
  let (t, f) := sent
  s!"{t} ms: 0x" ++ Hex.ofWord f.id ++ s!" on interface {f.interface.toNat}: " ++ Hex.listing f.data

/-- Runs a gateway from its start to its end. -/
def runGateway (c : Config) (task : Task) (seed : Block) : Except Failure (List String) := do
  let bus ← c.transport.connect.mapError BusFault.failure
  let vault ← (c.keys.vault (Entropy.drawn seed)).mapError ConfigFault.failure
  let (provisioned, now, loaded) := vault.provision 0 c.keys
  let keys ← loaded
  let started ← Gateway.start c now bus ({} : Memory) (some provisioned)
  let listing := if task.listing then started.registry.listing else []
  let ran := started.runFor task.span
  let stored ← ran.shutdown.2
  .ok ((s!"Provisioned {keys} keys" :: listing) ++ ran.bus.record.reverse.map frameLine ++
    [s!"Stored {stored} ECU records"])

/-- Carries out a task; `text` is the configuration as it was read. -/
def carryOut (task : Task) (text : String) (seed : Block) : Except Failure (List String) := do
  let c ← if task.demo then .ok demonstration else (Config.ofToml text).mapError ConfigFault.failure
  runGateway c task seed

end VehicleGateway.Program
