import VehicleGateway.Router.Delivery
import VehicleGateway.World

/-!
# Forwarding

A data message goes to the destinations of its route, one after the other, on the interface that
each has at its turn.  A destination that is not reached does not keep the message from the others.
-/

namespace VehicleGateway

/-- A data message on its way. -/
structure Forwarding where
  id : Identifier
  payload : Bytes
  /-- The destinations that are still to come. -/
  rest : List EcuNo
  /-- The number of destinations reached. -/
  delivered : Nat := 0
  /-- The transmission to the destination whose turn it is. -/
  flight : Option Flight := none

namespace Forwarding

/-- The frame for a destination on an interface. -/
def frame (f : Forwarding) (interface : UInt8) : Frame :=
  ⟨interface, f.id.raw, f.payload⟩

/-- What became of the message when all destinations had their turn. -/
def outcome (f : Forwarding) : Delivery :=
  if f.delivered = 0 then .dropped .sendFailed else .forwarded f.delivered

/-- Counts a destination if it was reached. -/
def tally (f : Forwarding) : Sent → Forwarding
  | .ok () => { f with flight := none, delivered := f.delivered + 1 }
  | .error _ => { f with flight := none }

/-- The turn of a destination; one that is not registered or cannot be sent to is passed over. -/
def visit {σ : Type} (w : World σ) (timeout : Nat) (f : Forwarding) (ecu : EcuNo) : Forwarding :=
  match w.registry.get? ecu with
  | none => f
  -- A transmission that the bus refuses leaves no flight, and the next destination has its turn.
  | some record => { f with flight := (w.launch timeout (f.frame record.interface)).toOption }

/-- Where forwarding leads. -/
inductive Next (σ : Type) where
  /-- Nothing happens before a later time. -/
  | waits
  | goesOn (w : World σ) (f : Forwarding)
  | ends (d : Delivery)

/-- The next step. -/
def next {σ : Type} (w : World σ) (timeout : Nat) (f : Forwarding) : Next σ :=
  match f.flight with
  | some flight =>
    match w.land? flight with
    | none => .waits
    | some (w', sent) => .goesOn w' (f.tally sent)
  | none =>
    match f.rest with
    | [] => .ends f.outcome
    | ecu :: rest => .goesOn w ({ f with rest }.visit w timeout ecu)

/-- When a message that waits goes on. -/
def due? (f : Forwarding) : Option Nat :=
  f.flight.map (·.due)

end Forwarding
end VehicleGateway
