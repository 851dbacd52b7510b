import VehicleGateway.Config.Check
import VehicleGateway.Gateway

/-!
# Starting a gateway

A gateway starts only from a configuration that passes its check.  The records in the storage take
the place of the configured ones; where the storage fails, what it gave until then is kept.
-/

namespace VehicleGateway.Gateway

/-- Starts a gateway. -/
def start {σ : Type} [Storage σ] (c : Config) (now : Nat) (bus : Bus) (storage : σ)
    (keys : Option Vault) : Except Failure (Gateway σ) :=
  match c.check, c.routing with
  | .error fault, _ | .ok _, .error fault => .error fault.failure
  | .ok _, .ok routes =>
    let g : Gateway σ :=
      { now, bus, storage, keys, routes
        registry := (c.registry.restore storage).1
        sendTimeout := c.router.sendTimeout
        supervision := c.supervisor
        firmware := c.firmware }
    .ok (((g.openSupervisor (max c.supervisor.queueDepth 1)).openRouter
      (max c.router.queueDepth 1)).openReceiver)

end VehicleGateway.Gateway
