import VehicleGateway.Message.Identifier

/-!
# Deliveries

What becomes of a message that enters the gateway, and the counters that are kept of it.
-/

namespace VehicleGateway

/-- Why a message goes nowhere. -/
inductive DropReason where
  /-- There is no route, or the route leads nowhere. -/
  | unrouted
  /-- The identifier makes no sense, or names an ECU that does not exist. -/
  | malformed
  | queueFull
  /-- There is no update that waits for the message. -/
  | noSession
  /-- No destination could be reached. -/
  | sendFailed
  deriving DecidableEq, Repr

/-- What becomes of a message. -/
inductive Delivery where
  /-- Sent to some destinations. -/
  | forwarded (destinations : Nat)
  | toSupervisor
  | toSession (ecu : EcuNo)
  | dropped (reason : DropReason)
  deriving DecidableEq, Repr

/-- The counters of the router. -/
structure RouterStats where
  received : Nat := 0
  forwarded : Nat := 0
  toSupervisor : Nat := 0
  toSession : Nat := 0
  unrouted : Nat := 0
  malformed : Nat := 0
  queueFull : Nat := 0
  noSession : Nat := 0
  sendFailed : Nat := 0
  deriving DecidableEq, Repr

namespace RouterStats

/-- The number of messages that went nowhere. -/
def dropped (s : RouterStats) : Nat :=
  s.unrouted + s.malformed + s.queueFull + s.noSession + s.sendFailed

/-- The number of messages whose fate is known. -/
def settled (s : RouterStats) : Nat :=
  s.forwarded + s.toSupervisor + s.toSession + s.dropped

/-- Counts a message that the router takes up. -/
def receive (s : RouterStats) : RouterStats :=
  { s with received := s.received + 1 }

/-- Counts a message that goes nowhere. -/
def drop (s : RouterStats) : DropReason → RouterStats
  | .unrouted => { s with unrouted := s.unrouted + 1 }
  | .malformed => { s with malformed := s.malformed + 1 }
  | .queueFull => { s with queueFull := s.queueFull + 1 }
  | .noSession => { s with noSession := s.noSession + 1 }
  | .sendFailed => { s with sendFailed := s.sendFailed + 1 }

/-- Counts what became of a message. -/
def count (s : RouterStats) : Delivery → RouterStats
  | .forwarded _ => { s with forwarded := s.forwarded + 1 }
  | .toSupervisor => { s with toSupervisor := s.toSupervisor + 1 }
  | .toSession _ => { s with toSession := s.toSession + 1 }
  | .dropped reason => s.drop reason

theorem dropped_drop (s : RouterStats) (r : DropReason) : (s.drop r).dropped = s.dropped + 1 := by
  cases r <;> simp only [drop, dropped] <;> omega

theorem settled_count (s : RouterStats) (d : Delivery) : (s.count d).settled = s.settled + 1 := by
  cases d with
  | dropped r =>
    have h := s.dropped_drop r
    cases r <;> simp_all only [count, settled, drop] <;> omega
  | forwarded | toSupervisor | toSession => simp only [count, settled, dropped]; omega

theorem received_count (s : RouterStats) (d : Delivery) : (s.count d).received = s.received := by
  cases d with
  | dropped r => cases r <;> rfl
  | forwarded | toSupervisor | toSession => rfl

end RouterStats
end VehicleGateway
