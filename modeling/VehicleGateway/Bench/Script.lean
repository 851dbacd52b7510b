import VehicleGateway.Bench.Finding
import VehicleGateway.Bench.Reading

/-!
# Scripts

A script is a list of steps, each of which is carried out on what the steps before have left.
-/

namespace VehicleGateway.Script

/-- What the steps of a script find, one after the other. -/
def run {σ : Type} (step : σ → Document → σ × Finding) : σ → List Document → List Finding
  | _, [] => []
  | s, d :: rest =>
    let (s', found) := step s d
    found :: run step s' rest

/-- The state after the steps of a script, and what they find. -/
def runThrough {σ : Type} (step : σ → Document → σ × Finding) :
    σ → List Document → σ × List Finding
  | s, [] => (s, [])
  | s, d :: rest =>
    let (s', found) := step s d
    let (s'', more) := runThrough step s' rest
    (s'', found :: more)

end VehicleGateway.Script
