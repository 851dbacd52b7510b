/-!
# Actors on a common clock

A clockwork is a state with a clock and actors.  An actor moves as long as it need not wait; then
the next one has its turn.  When no actor can move, the clock goes on to the next time at which one
of them can.  Messages are taken in turns of limited length, so that nobody is kept out by a long
queue.
-/

namespace VehicleGateway

/-- A state `σ` with actors named by `α`. -/
class Clockwork (σ : Type) (α : outParam Type) where
  now : σ → Nat
  setNow : σ → Nat → σ
  /-- The actors in the order of their turns. -/
  actors : σ → List α
  /-- The next move of an actor, if it need not wait. -/
  step? : σ → α → Option σ
  /-- When an actor that waits can move again without the others. -/
  due? : σ → α → Option Nat
  /-- How many messages wait for an actor. -/
  backlog : σ → α → Nat

namespace Clockwork

variable {σ α : Type} [Clockwork σ α]

/-- The most messages that an actor takes in one turn. -/
def takesPerTurn : Nat := 128

/-- A bound on the number of moves; it is larger than that of any run. -/
def bound : Nat := 0x1000000000000000

/-- One turn of an actor, and whether it moved. -/
def turn (a : α) : (fuel takes : Nat) → (moved : Bool) → σ → σ × Bool
  | 0, _, moved, s => (s, moved)
  | fuel + 1, takes, moved, s =>
    match step? s a with
    | none => (s, moved)
    | some s' =>
      let taken := backlog s a - backlog s' a
      -- The turn ends before the move that would take one message too many.
      if takes < taken then (s, moved) else turn a fuel (takes - taken) true s'

/-- One turn for each of some actors, and whether any moved. -/
def pass : List α → (moved : Bool) → σ → σ × Bool
  | [], moved, s => (s, moved)
  | a :: rest, moved, s =>
    let (s', moved') := turn a bound takesPerTurn false s
    pass rest (moved || moved') s'

/-- Turns for all actors until nobody can move. -/
def settleWithin : (fuel : Nat) → σ → σ
  | 0, s => s
  | fuel + 1, s =>
    match pass (actors s) false s with
    | (s', true) => settleWithin fuel s'
    | (s', false) => s'

/-- Turns for all actors until nobody can move. -/
def settle (s : σ) : σ := settleWithin bound s

/-- The next time at which an actor can move again. -/
def nextDue (s : σ) : Option Nat :=
  ((actors s).filterMap fun a => (due? s a).filter (now s < ·)).min?

/-- Lets the clock go on to a time. -/
def advanceWithin (target : Nat) : (fuel : Nat) → σ → σ
  | 0, s => s
  | fuel + 1, s =>
    match (nextDue s).filter (· ≤ target) with
    | some t => advanceWithin target fuel (settle (setNow s t))
    -- Nothing more falls due, so the rest of the time passes at once.
    | none => if now s < target then settle (setNow s target) else s

/-- Lets the clock go on by `n`, with everything that falls due until then. -/
def advance (s : σ) (n : Nat) : σ :=
  advanceWithin (now s + n) bound (settle s)

/-- Lets the clock go on until a condition holds, or nothing is due any more. -/
def untilWithin (done : σ → Bool) : (fuel : Nat) → σ → σ
  | 0, s => s
  | fuel + 1, s =>
    if done s then s
    else match nextDue s with
      | some t => untilWithin done fuel (settle (setNow s t))
      | none => s

/-- Lets the clock go on until a condition holds. -/
def run (done : σ → Bool) (s : σ) : σ :=
  if done s then s else untilWithin done bound (settle s)

end Clockwork
end VehicleGateway
