import VehicleGateway.Bench.Script

/-!
# A bench for the secure element
-/

namespace VehicleGateway.Bench.Element

/-- A secure element with a clock, and the last challenge it gave. -/
structure Room where
  now : Nat := 0
  device : Device
  challenge : Block := Block.zero

/-- The slots that exist. -/
def allSlots : List KeySlot :=
  [.master, .bootMac, .ram] ++
    (List.range KeySlot.userSlots).map fun n => .user (.ofNat (n + 1))

/-- The counters of all slots that have one. -/
def counters (counter? : KeySlot → Option Nat) : Finding :=
  .table (allSlots.filterMap fun s => (counter? s).map fun n => (s.name, .number n))

/-- Carries out a command. -/
def perform (r : Room) (c : Command) : Room × Finding :=
  let (device, now, result) := r.device.perform r.now c
  let challenge := match result with
    | .ok (.challenge b) => b
    | _ => r.challenge
  ({ now, device, challenge }, Finding.either .element Finding.response result)

/-- Carries out a step. -/
def act (r : Room) (d : Document) : Room × Finding :=
  if d.str "cmd" = "CANCEL" then ({ r with device := r.device.cancel }, .okay)
  else if d.str "cmd" = "DEBUG_AUTH" && d.has "key" then
    let identity :=
      if d.has "uid" then Reading.identity d "uid" else r.device.element.identity
    perform r (.debugAuthorize
      (VehicleGateway.Element.debugProof (Reading.block d "key") r.challenge identity))
  else match Reading.command d with
    | .ok c => perform r c
    | .error f => (r, .table [("build", .fault (.element f))])

/-- One step, with what is seen after it. -/
def step (r : Room) (d : Document) : Room × Finding :=
  let (r', found) := act r d
  (r', .table [("t", .number r'.now), ("r", found),
    ("counters", counters r'.device.element.counter?), ("cancels", .number r'.device.cancels)])

/-- Runs a script. -/
def run (d : Document) : Finding :=
  let device : Device := { element := Reading.element d, latency := d.nat "latency_ms" }
  .table [("steps", .list (Script.run step { device } (d.each "steps")))]

end VehicleGateway.Bench.Element
