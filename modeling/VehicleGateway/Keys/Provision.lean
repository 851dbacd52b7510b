import VehicleGateway.Config.Check
import VehicleGateway.Keys.Vault

/-!
# Loading the configured keys

First the master key is set, then the other keys are loaded in the order in which they stand in the
configuration.  The first one that is refused ends it.  Without a master key nothing is loaded.
-/

namespace VehicleGateway

/-- A fault of the configuration or of the key service as it is reported. -/
def KeyOutcome.loaded (o : KeyOutcome) : Except Failure Unit :=
  match o with
  | .ok _ => .ok ()
  | .error fault => .error fault.failure

/-- The order to load a key. -/
def ProvisionedKey.request (k : ProvisionedKey) (key : Key) : KeyRequest :=
  .load k.slot key k.counter k.flags

/-- Loads keys one after the other. -/
def Vault.loadKeys (v : Vault) (now : Nat) : List ProvisionedKey → Vault × Nat × Except Failure Unit
  | [] => (v, now, .ok ())
  | k :: rest =>
    match k.value with
    | .error fault => (v, now, .error fault.failure)
    | .ok key =>
      let (v', now', outcome) := v.call now (k.request key)
      match outcome.loaded with
      | .error failure => (v', now', .error failure)
      | .ok () => loadKeys v' now' rest

/-- Loads the configured keys; the answer is how many there are besides the master key. -/
def Vault.provision (v : Vault) (now : Nat) (c : KeyConfig) : Vault × Nat × Except Failure Nat :=
  match c.master with
  | .error fault => (v, now, .error fault.failure)
  | .ok none => (v, now, .ok 0)
  | .ok (some master) =>
    let (v', now', outcome) := v.call now (.setMaster master)
    match outcome.loaded with
    | .error failure => (v', now', .error failure)
    | .ok () =>
      let (v'', now'', done) := v'.loadKeys now' c.keys
      (v'', now'', done.map fun _ => c.keys.length)

/-- A vault on a fresh element as it is configured. -/
def KeyConfig.vault (c : KeyConfig) (entropy : Nat → Block) : Except ConfigFault Vault :=
  c.element.value.map fun identity =>
    { service := { timeout := c.timeout }
      device := { element := { identity, entropy }, latency := c.element.latency } }

end VehicleGateway
