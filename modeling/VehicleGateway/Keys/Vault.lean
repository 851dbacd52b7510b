import VehicleGateway.Keys.Service

/-!
# The key service on its element

A device is an element that needs some time for every command.  For a test of the service it can be
given answers to expect commands with, in place of its own.  A vault is a key service on a device,
with the commands that are under way.
-/

namespace VehicleGateway

/-- An answer that a device gives to the next command of a name. -/
structure Stand where
  command : String
  delay : Nat
  result : Except ElementFault Response

/-- A secure element with a latency. -/
structure Device where
  element : Element
  latency : Nat := 0
  /-- Answers in place of the element's own, each for one command. -/
  stands : List Stand := []
  /-- How often a command was given up. -/
  cancels : Nat := 0

/-- Executes a command on the element at once, after the latency. -/
def Device.perform (d : Device) (now : Nat) (command : Command) :
    Device × Nat × Except ElementFault Response :=
  let (element, result) := d.element.execute command
  ({ d with element }, now + d.latency, result)

/-- Tells the device to give up a command. -/
def Device.cancel (d : Device) : Device :=
  { d with element := d.element.cancel, cancels := d.cancels + 1 }

/-- A command under way. -/
structure Invocation where
  command : Command
  /-- When the device answers. -/
  due : Nat
  /-- Until when the service waits. -/
  limit : Nat
  /-- The answer, if it is not the element's own. -/
  stand : Option (Except ElementFault Response) := none

/-- A key service on a device. -/
structure Vault where
  service : KeyService
  device : Device
  /-- The commands under way, by call. -/
  underWay : Dictionary Nat Invocation := ∅

namespace Vault

/-- Takes the first answer that was set for commands of a name. -/
def takeStand (name : String) : List Stand → Option Stand × List Stand
  | [] => (none, [])
  | s :: rest =>
    if s.command = name then (some s, rest)
    else
      let (found, rest') := takeStand name rest
      (found, s :: rest')

/-- Gives a command to the device. -/
def invoke (v : Vault) (now n : Nat) (command : Command) : Vault :=
  let (stand, stands) := takeStand command.name v.device.stands
  let invocation : Invocation :=
    { command
      due := now + (match stand with | some s => s.delay | none => v.device.latency)
      limit := now + v.service.timeout
      stand := stand.map (·.result) }
  { v with device := { v.device with stands }, underWay := v.underWay.insert n invocation }

/-- The device answers a command: an element does its work only now. -/
def complete (v : Vault) (now n : Nat) (i : Invocation) : Vault :=
  let v := { v with underWay := v.underWay.erase n }
  match i.stand with
  | some result => { v with service := v.service.step now n (.answer result) }
  | none =>
    let (element, result) := v.device.element.execute i.command
    { v with
      device := { v.device with element }
      service := v.service.step now n (.answer result) }

/-- The service gives up a command and tells the device to stop. -/
def cancel (v : Vault) (now n : Nat) : Vault :=
  { v with device := v.device.cancel, service := v.service.step now n .stopped }

/-- The next step of a call, if it does not have to wait for the token or for a later time. -/
def step? (v : Vault) (now n : Nat) : Option Vault := do
  let call ← v.service.call? n
  let event (e : KeyEvent) : Vault := { v with service := v.service.step now n e }
  match call.stage with
  | .ended _ => none
  | .entering | .granted => some (event .go)
  | .queued limit =>
    if v.service.holder = some n then some (event .go)
    else if limit ≤ now then some (event .giveUp)
    else none
  | .cancelling => some (v.cancel now n)
  | stage =>
    match v.underWay.get? n, stage.command? with
    | none, some command => some (v.invoke now n command)
    | none, none => none
    | some i, _ =>
      -- An answer that comes at the limit still counts.
      if i.due ≤ now ∧ i.due ≤ i.limit then some (v.complete now n i)
      else if i.limit ≤ now then
        some { v with
          underWay := v.underWay.erase n
          service := v.service.step now n .expire }
      else none

/-- When a call that waits can go on without anything else happening. -/
def due? (v : Vault) (n : Nat) : Option Nat := do
  let call ← v.service.call? n
  match call.stage with
  | .queued limit => some limit
  | _ => (v.underWay.get? n).map fun i => min i.due i.limit

/-- Opens a call. -/
def addCall (v : Vault) (request : KeyRequest) : Vault :=
  { v with service := v.service.addCall request }

/-- Starts a command at once, if the token is free. -/
def start (v : Vault) (command : Command) : Option Vault :=
  (v.service.start command).map fun service => { v with service }

/-- The outcome of a call that ended. -/
def outcome? (v : Vault) (n : Nat) : Option KeyOutcome :=
  (v.service.call? n).bind (·.outcome?)

/-- Runs a call to its end, with time passing as it needs.  Calls take fewer steps than `fuel`. -/
def run (n : Nat) : (fuel now : Nat) → Vault → Vault × Nat
  | 0, now, v => (v, now)
  | fuel + 1, now, v =>
    match v.step? now n with
    | some v' => run n fuel now v'
    | none =>
      match v.outcome? n, v.due? n with
      | none, some later => run n fuel (max now later) v
      | _, _ => (v, now)

/-- More than the steps of any call. -/
def callSteps : Nat := 32

/-- Makes a call while no other call is under way. -/
def call (v : Vault) (now : Nat) (request : KeyRequest) : Vault × Nat × KeyOutcome :=
  let n := v.service.calls.length
  let (v', now') := run n callSteps now (v.addCall request)
  (v', now', (v'.outcome? n).getD (.error .closed))

end Vault
end VehicleGateway
