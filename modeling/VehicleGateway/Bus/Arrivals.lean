import VehicleGateway.Message

/-!
# Arrivals

Frames that came in over the bus and were not looked at yet.  Only the newest are kept.  Whoever
looks at them is told first when some were lost.
-/

namespace VehicleGateway

/-- Frames that came in. -/
structure Arrivals where
  frames : List Frame := []
  /-- Whether frames were lost since the last notice. -/
  missed : Bool := false

namespace Arrivals

/-- The number of frames that are kept. -/
def capacity : Nat := 1024

/-- A frame comes in. -/
def push (a : Arrivals) (f : Frame) : Arrivals :=
  if a.frames.length < capacity then { a with frames := a.frames ++ [f] }
  -- The oldest frame makes room.
  else { frames := a.frames.tail ++ [f], missed := true }

/-- The oldest frame, or, before that, the notice that frames were lost. -/
def next? (a : Arrivals) : Option (Option Frame × Arrivals) :=
  if a.missed then some (none, { a with missed := false })
  else match a.frames with
    | [] => none
    | f :: rest => some (some f, { a with frames := rest })

/-- The number of things to be looked at. -/
def size (a : Arrivals) : Nat :=
  a.frames.length + if a.missed then 1 else 0

theorem length_frames_push_le (a : Arrivals) (f : Frame) (h : a.frames.length ≤ capacity) :
    (a.push f).frames.length ≤ capacity := by
  unfold push
  split
  · simpa using Nat.succ_le_of_lt (by assumption)
  · simp only [List.length_append, List.length_tail, List.length_singleton, capacity] at *
    omega

end Arrivals
end VehicleGateway
