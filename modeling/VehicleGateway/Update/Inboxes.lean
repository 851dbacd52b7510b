import VehicleGateway.Failure
import VehicleGateway.Dictionary
import VehicleGateway.Mailbox
import VehicleGateway.Message

/-!
# Inboxes

An ECU has at most one update at a time.  The update claims the ECU, with an inbox for what the ECU
answers, and releases it at its end.  Inboxes are numbered and stay after the release, so that what
is still inside can be taken out.
-/

namespace VehicleGateway

/-- All inboxes, and which of them is in use for which ECU. -/
structure Inboxes where
  boxes : List (Mailbox Message) := []
  inUse : Dictionary EcuNo Nat := ∅

namespace Inboxes

/-- Whether an update has claimed an ECU. -/
def active (i : Inboxes) (ecu : EcuNo) : Bool :=
  i.inUse.contains ecu

/-- The number of ECUs that are claimed. -/
def count (i : Inboxes) : Nat :=
  i.inUse.size

/-- Changes an inbox. -/
def modify (i : Inboxes) (n : Nat) (f : Mailbox Message → Mailbox Message) : Inboxes :=
  { i with boxes := i.boxes.modify n f }

/-- Claims an ECU; the answer has the number of its new inbox. -/
def claim (i : Inboxes) (ecu : EcuNo) (depth : Nat) : Except Failure (Inboxes × Nat) :=
  if i.active ecu then
    .error (.because .resource s!"Firmware session already active for ECU {ecu.toNat}")
  else
    .ok ({ boxes := i.boxes ++ [{ depth }], inUse := i.inUse.insert ecu i.boxes.length },
      i.boxes.length)

/-- Releases an ECU. -/
def release (i : Inboxes) (ecu : EcuNo) : Inboxes :=
  match i.inUse.get? ecu with
  | some n => { i.modify n Mailbox.dropSender with inUse := i.inUse.erase ecu }
  | none => i

/-- What would become of a message for the update of an ECU. -/
def posting (i : Inboxes) (ecu : EcuNo) : Posting :=
  match (i.inUse.get? ecu).bind (i.boxes[·]?) with
  | some box => box.posting
  | none => .gone

/-- Puts a message into the inbox in use for an ECU. -/
def post (i : Inboxes) (ecu : EcuNo) (m : Message) : Inboxes :=
  match i.inUse.get? ecu with
  | some n => i.modify n (·.post m)
  | none => i

/-- Takes the oldest message out of an inbox. -/
def take? (i : Inboxes) (n : Nat) : Option (Message × Inboxes) := do
  let box ← i.boxes[n]?
  let (m, box') ← box.take?
  some (m, i.modify n fun _ => box')

/-- Whether nothing is in an inbox and nothing will come. -/
def finished (i : Inboxes) (n : Nat) : Bool :=
  match i.boxes[n]? with
  | some box => box.finished
  | none => true

/-- The number of messages in an inbox. -/
def size (i : Inboxes) (n : Nat) : Nat :=
  match i.boxes[n]? with
  | some box => box.items.length
  | none => 0

/-- Nobody takes messages out of an inbox any more. -/
def abandon (i : Inboxes) (n : Nat) : Inboxes :=
  i.modify n Mailbox.dropReader

end Inboxes
end VehicleGateway
