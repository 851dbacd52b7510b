import VehicleGateway.Router.Forwarding
import VehicleGateway.Router.Table

/-!
# Routing

Every message that enters the gateway takes exactly one path: data goes to the destinations of its
route, an answer to a command to the supervisor, and firmware traffic to the update of its ECU.
Queues are never waited for.
-/

namespace VehicleGateway.Router

/-- Where a message goes first. -/
inductive Path (σ : Type) where
  /-- Its fate is known. -/
  | settled (w : World σ) (tray : Mailbox Message) (d : Delivery)
  | forwarding (f : Forwarding)

/-- What becomes of a message in a queue for it. -/
def ofPosting (reached : Delivery) : Posting → Delivery
  | .queued => reached
  | .full => .dropped .queueFull
  | .gone => .dropped .noSession

/-- Where a message goes.  The tray is the queue of the supervisor. -/
def path {σ : Type} (routes : RoutingTable) (w : World σ) (tray : Mailbox Message) (m : Message) :
    Path σ :=
  match m.id.heading with
  | .error _ => .settled w tray (.dropped .malformed)
  | .ok (.data index) =>
    match routes.lookup index with
    | none => .settled w tray (.dropped .unrouted)
    | some route =>
      -- A route that leads nowhere is as good as none.
      if route.destinations.isEmpty then .settled w tray (.dropped .unrouted)
      else .forwarding { id := m.id, payload := m.payload, rest := route.destinations }
  | .ok (.command ecu _) =>
    if w.registry.contains ecu then
      .settled w (tray.post m) (ofPosting .toSupervisor tray.posting)
    else .settled w tray (.dropped .malformed)
  | .ok (.firmware ecu _) =>
    .settled { w with inboxes := w.inboxes.post ecu m } tray
      (ofPosting (.toSession ecu) (w.inboxes.posting ecu))

end VehicleGateway.Router
