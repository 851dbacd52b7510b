import VehicleGateway.Keys.Element

/-!
# Calls of the key service

What callers ask, what they are told, and the stages a call passes through.  A call first waits for
the token; while it holds the token it gives the element one command after the other.
-/

namespace VehicleGateway

/-- The form of response a caller expects. -/
inductive Want where
  | anything
  | data
  | mac
  | verdict
  | random
  | done
  deriving DecidableEq, Repr

/-- Whether a response has the expected form. -/
def Want.fits : Want → Response → Bool
  | .anything, _ => true
  | .data, .data _ => true
  | .mac, .mac _ => true
  | .verdict, .verified _ => true
  | .random, .random _ => true
  | .done, .done => true
  | _, _ => false

/-- What a caller asks of the key service. -/
inductive KeyRequest where
  /-- One command to the element. -/
  | ask (command : Command) (want : Want)
  /-- The element's identity. -/
  | identify
  /-- A key into a slot. -/
  | load (slot : KeySlot) (key : Key) (counter : Nat) (flags : KeyFlags)
  /-- A new master key, with the counter after the present one. -/
  | setMaster (key : Key)
  /-- No key in any slot. -/
  | erase
  /-- The counter that is noted for a slot. -/
  | count (slot : KeySlot)
  /-- A note of a slot that was loaded before. -/
  | remember (slot : KeySlot) (key : Option Key) (counter : Nat)
  deriving DecidableEq

/-- What a caller is told in the end. -/
inductive KeyAnswer where
  | response (r : Response)
  | identity (element : ElementId)
  | counter (n : Nat)
  /-- What is noted for a slot. -/
  | noted (counter : Option Nat)
  | done
  deriving DecidableEq

/-- The end of a call. -/
abbrev KeyOutcome := Except KeyFault KeyAnswer

/-- The stage of a call. -/
inductive CallStage where
  /-- Not yet run. -/
  | entering
  /-- Waits for the token, at most until the time given. -/
  | queued (limit : Nat)
  /-- Has the token and has not used it yet. -/
  | granted
  /-- The caller's own command is with the element. -/
  | asking (command : Command) (want : Want)
  /-- The element has been asked who it is. -/
  | naming
  /-- The element has been given an order. -/
  | loading (element : ElementId) (order : KeyOrder)
  /-- The element has been asked for a challenge. -/
  | challenging (element : ElementId)
  /-- The element has been given the answer to its challenge. -/
  | authorizing (proof : Block)
  /-- The element did not answer in time and is told to stop. -/
  | cancelling
  | ended (outcome : KeyOutcome)

/-- The command that is with the element. -/
def CallStage.command? : CallStage → Option Command
  | .asking command _ => some command
  | .naming => some (.identify Block.zero)
  | .loading _ order => some (.loadKey order)
  | .challenging _ => some .debugChallenge
  | .authorizing proof => some (.debugAuthorize proof)
  | _ => none

/-- A call. -/
structure KeyCall where
  request : KeyRequest
  stage : CallStage := .entering
  /-- The counter under which a new master key is loaded. -/
  counter : Nat := 0
  /-- The key that authorizes what the call does. -/
  authority : Key := Block.zero
  /-- Whether the outcome was handed out. -/
  taken : Bool := false

namespace KeyCall

/-- What a call loads. -/
def load? (c : KeyCall) : Option (KeySlot × Key × Nat × KeyFlags) :=
  match c.request with
  | .load slot key counter flags => some (slot, key, counter, flags)
  | .setMaster key => some (.master, key, c.counter, {})
  | _ => none

/-- The outcome of a call that ended. -/
def outcome? (c : KeyCall) : Option KeyOutcome :=
  match c.stage with
  | .ended outcome => some outcome
  | _ => none

/-- What the caller of a successful load is told. -/
def loadedAnswer (c : KeyCall) : KeyAnswer :=
  match c.request with
  | .setMaster _ => .counter c.counter
  | _ => .done

end KeyCall
end VehicleGateway
