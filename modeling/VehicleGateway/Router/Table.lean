import VehicleGateway.Failure

/-!
# The routing table

Data messages carry the index of a route.  A routing table is a list of routes, and the index is the
position.  It can be built from routes that name their index, if these are the numbers from zero on
in any order.
-/

namespace VehicleGateway

/-- Where data messages of one index go. -/
structure Route where
  label : String
  destinations : List EcuNo := []
  deriving DecidableEq, Repr

/-- Routes by index. -/
structure RoutingTable where
  routes : List Route := []
  deriving DecidableEq, Repr

/-- Why routes do not make a table. -/
inductive RoutingFault where
  | unknownEcu (index : UInt32) (label : String) (ecu : EcuNo)
  | duplicate (index : UInt32)
  | gap (expected : Nat) (found : UInt32)
  deriving DecidableEq, Repr

namespace RoutingFault

/-- The wording of a fault. -/
def message : RoutingFault → String
  | unknownEcu i label ecu => s!"Route {i.toNat} ({label}) targets unknown ECU {ecu.toNat}"
  | duplicate i => s!"Duplicate route index {i.toNat}"
  | gap expected found =>
    s!"Routing table has a gap: expected index {expected}, found {found.toNat}"

/-- The failure a fault is reported as. -/
def failure (f : RoutingFault) : Failure :=
  .because .config f.message

end RoutingFault

namespace RoutingTable

/-- The route with an index. -/
def lookup (t : RoutingTable) (index : Nat) : Option Route :=
  t.routes[index]?

/-- The number of routes. -/
def size (t : RoutingTable) : Nat :=
  t.routes.length

/-- Puts a route among routes in ascending order of their indices. -/
def place (index : UInt32) (route : Route) :
    List (UInt32 × Route) → Except RoutingFault (List (UInt32 × Route))
  | [] => .ok [(index, route)]
  | (i, r) :: rest =>
    if index < i then .ok ((index, route) :: (i, r) :: rest)
    else if index = i then .error (.duplicate index)
    else (place index route rest).map ((i, r) :: ·)

/-- Puts routes in order.  Of each route the destinations are judged first, then its index. -/
def arrange (ecus : Nat) :
    List (UInt32 × Route) → List (UInt32 × Route) → Except RoutingFault (List (UInt32 × Route))
  | placed, [] => .ok placed
  | placed, (index, route) :: rest =>
    -- A route with both faults is reported for its destination.
    match route.destinations.find? fun ecu => ecus ≤ ecu.toNat with
    | some ecu => .error (.unknownEcu index route.label ecu)
    | none =>
      match place index route placed with
      | .error e => .error e
      | .ok placed' => arrange ecus placed' rest

/-- The routes alone, if their indices are the numbers from `expected` on. -/
def dense : Nat → List (UInt32 × Route) → Except RoutingFault (List Route)
  | _, [] => .ok []
  | expected, (index, route) :: rest =>
    if index.toNat = expected then (dense (expected + 1) rest).map (route :: ·)
    else .error (.gap expected index)

/-- The table of routes that name their index, for `ecus` ECUs. -/
def ofIndexed (routes : List (UInt32 × Route)) (ecus : Nat) : Except RoutingFault RoutingTable := do
  let placed ← arrange ecus [] routes
  let entries ← dense 0 placed
  return ⟨entries⟩

end RoutingTable
end VehicleGateway
