import VehicleGateway.Failure

/-!
# What goes wrong with a configuration
-/

namespace VehicleGateway

/-- Why there is no configuration. -/
inductive ConfigFault where
  | unreadable (detail : String)
  | malformed (detail : String)
  | invalid (reason : String)
  deriving DecidableEq, Repr

namespace ConfigFault

/-- The wording of a fault. -/
def message : ConfigFault → String
  | unreadable detail => "Failed to read config: " ++ detail
  | malformed detail => "Failed to parse config: " ++ detail
  | invalid reason => "Invalid config: " ++ reason

/-- The failure a fault is reported as. -/
def failure (f : ConfigFault) : Failure :=
  .because .config f.message

end ConfigFault
end VehicleGateway
