import VehicleGateway.Supervisor.Round

/-!
# The heartbeat

Rounds of status requests begin at regular times.  A round that takes longer than the period delays
the next one: a beat that is late by more than some milliseconds moves all later beats.
-/

namespace VehicleGateway

/-- The heartbeat. -/
structure Heartbeat where
  /-- When the next round is to begin. -/
  beat : Nat
  round : Option Round := none

namespace Heartbeat

/-- How late a beat may be without moving the later ones. -/
def tolerance : Nat := 5

/-- The time between two beats; it is never zero. -/
def period (configured : Nat) : Nat :=
  max configured 1

/-- The beat after one that was due at `beat` and comes now. -/
def nextBeat (period beat now : Nat) : Nat :=
  if beat + tolerance < now then now + period else beat + period

/-- The next step, if it need not wait. -/
def step? {σ : Type} (t : RoundTerms) (period : Nat) (w : World σ) (h : Heartbeat) :
    Option (World σ × Heartbeat) :=
  match h.round with
  | some round =>
    match round.next t w with
    | .waits => none
    | .goesOn w' round' => some (w', { h with round := some round' })
    -- The next round begins with the next beat, which may be overdue.
    | .ends _ => some (w, { h with round := none })
  | none =>
    if h.beat ≤ w.now then
      let round := Round.ofRegistry w.registry
      some (w, { beat := nextBeat period h.beat w.now, round := some round })
    else none

/-- When the heartbeat goes on. -/
def due? (h : Heartbeat) : Option Nat :=
  match h.round with
  | some round => round.due?
  | none => some h.beat

end Heartbeat
end VehicleGateway
