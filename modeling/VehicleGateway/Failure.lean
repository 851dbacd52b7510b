import VehicleGateway.Message.Identifier

/-!
# Failures of the gateway

What a part of the gateway reports to its callers: a cause in words, filed under the kind that
decides how the failure is handled.
-/

namespace VehicleGateway

/-- The kinds of failure. -/
inductive FailureKind where
  | transport
  | protocol
  | security
  | resource
  | config
  | storage
  deriving DecidableEq, Repr

/-- The name of a kind in diagnostics. -/
def FailureKind.title : FailureKind → String
  | .transport => "Transport"
  | .protocol => "Protocol"
  | .security => "Security"
  | .resource => "Resource"
  | .config => "Config"
  | .storage => "Storage"

/-- A failure: a cause of some kind, or an ECU that the registry does not hold. -/
inductive Failure where
  | because (kind : FailureKind) (reason : String)
  | unknownEcu (ecu : EcuNo)
  deriving DecidableEq, Repr

namespace Failure

/-- The kind of a failure.  An unknown ECU is a breach of protocol. -/
def kind : Failure → FailureKind
  | because k _ => k
  | unknownEcu _ => .protocol

/-- How the wording of a failure of some kind begins. -/
def heading : FailureKind → String
  | .transport => "Transport error: "
  | .protocol => "Protocol error: "
  | .security => "Security error: "
  | .resource => "Resource error: "
  | .config => "Configuration error: "
  | .storage => "Storage error: "

/-- The wording of a failure. -/
def message : Failure → String
  | because k reason => heading k ++ reason
  | unknownEcu ecu => s!"ECU {ecu.toNat} is not in the registry"

end Failure

/-! ## Steps that may fail -/

section

variable {ε α β : Type} {x : Except ε α} {b : β}

/-- What succeeds as a whole has succeeded step by step. -/
theorem exists_of_bind_ok {f : α → Except ε β} (h : (x >>= f) = .ok b) :
    ∃ a, x = .ok a ∧ f a = .ok b := by
  cases x with
  | error e => cases h
  | ok a => exact ⟨a, rfl, h⟩

theorem exists_of_map_ok {f : α → β} (h : x.map f = .ok b) : ∃ a, x = .ok a ∧ f a = b := by
  cases x with
  | error e => cases h
  | ok a => exact ⟨a, rfl, Except.ok.inj h⟩

end

end VehicleGateway
