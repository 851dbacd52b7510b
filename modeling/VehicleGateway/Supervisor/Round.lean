import VehicleGateway.Supervisor.Request

/-!
# Rounds of status requests

A round asks the ECUs for their status, one after the other and with a pause in between.  An ECU
under update is passed over.  An ECU that cannot be asked counts as asked.
-/

namespace VehicleGateway

/-- The times that a round keeps. -/
structure RoundTerms where
  /-- The pause between two requests. -/
  pause : Nat
  /-- The longest time for one request. -/
  timeout : Nat

/-- A round of status requests. -/
structure Round where
  /-- The ECUs whose turn is still to come, or has begun. -/
  rest : List EcuNo
  /-- The number of ECUs asked. -/
  polled : Nat := 0
  /-- Until when the round pauses before it asks the first ECU of `rest`. -/
  pausing : Option Nat := none
  /-- The request to the first ECU of `rest`. -/
  flight : Option Flight := none

namespace Round

/-- A round over all ECUs. -/
def ofRegistry (r : Registry) : Round :=
  { rest := r.numbers }

/-- The turn of the first ECU is over, and it was asked. -/
def advance (r : Round) : Round :=
  { rest := r.rest.tail, polled := r.polled + 1 }

/-- Asks an ECU. -/
def ask {σ : Type} (t : RoundTerms) (w : World σ) (r : Round) (ecu : EcuNo) : Round :=
  match Supervisor.request w t.timeout ecu .reportStatus with
  | .ok flight => { r with pausing := none, flight := some flight }
  | .error _ => r.advance

/-- Whether an ECU is asked at all. -/
def wanted (registry : Registry) (ecu : EcuNo) : Bool :=
  match registry.status? ecu with
  | none | some .updating => false
  | some _ => true

/-- The turn of an ECU begins: it is asked, passed over, or asked after a pause. -/
def visit {σ : Type} (t : RoundTerms) (w : World σ) (r : Round) (ecu : EcuNo) : Round :=
  if !wanted w.registry ecu then { r with rest := r.rest.tail }
  else if 0 < r.polled ∧ 0 < t.pause then { r with pausing := some (w.now + t.pause) }
  else r.ask t w ecu

/-- Where a round leads. -/
inductive Next (σ : Type) where
  /-- Nothing happens before a later time. -/
  | waits
  | goesOn (w : World σ) (r : Round)
  | ends (polled : Nat)

/-- The next step. -/
def next {σ : Type} (t : RoundTerms) (w : World σ) (r : Round) : Next σ :=
  match r.rest with
  | [] => .ends r.polled
  | ecu :: _ =>
    match r.flight, r.pausing with
    | some flight, _ =>
      match w.land? flight with
      | none => .waits
      -- Whether the request got through makes no difference.
      | some (w', _) => .goesOn w' r.advance
    | none, some later => if later ≤ w.now then .goesOn w (r.ask t w ecu) else .waits
    | none, none => .goesOn w (r.visit t w ecu)

/-- When a round that waits goes on. -/
def due? (r : Round) : Option Nat :=
  match r.flight with
  | some flight => some flight.due
  | none => r.pausing

end Round
end VehicleGateway
