import VehicleGateway.Clockwork
import VehicleGateway.Gateway.Step

/-!
# A gateway on the clock

The parts of a gateway are the actors of a clockwork, so that a gateway runs by itself for as long
as its clock goes on.
-/

namespace VehicleGateway

instance {σ : Type} [Storage σ] : Clockwork (Gateway σ) Part where
  now g := g.now
  setNow g now := { g with now }
  actors := Gateway.parts
  step? := Gateway.step?
  due? := Gateway.due?
  backlog := Gateway.backlog

namespace Gateway

variable {σ : Type} [Storage σ]

/-- Lets a gateway run for some time. -/
def runFor (g : Gateway σ) (span : Nat) : Gateway σ :=
  Clockwork.advance g span

end Gateway
end VehicleGateway
