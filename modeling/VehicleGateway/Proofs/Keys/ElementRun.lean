import VehicleGateway.Keys.Element

/-!
# Runs of a secure element

What is done to an element from outside is a list of commands and cancellations.  An element after
such a list is reached by `Element.actAll`; nothing else changes an element.  What is seen of it from
outside meanwhile is `Element.history`: the commands with their answers, and the cancellations.
-/

namespace VehicleGateway

/-- What is done to an element from outside. -/
inductive ElementAction where
  | command (c : Command)
  | cancel
  deriving DecidableEq

/-- What is seen of an action from outside. -/
inductive ElementEvent where
  | answered (c : Command) (result : Except ElementFault Response)
  | cancelled

/-- A challenge was answered rightly, and all keys were erased. -/
def ElementEvent.IsErase (event : ElementEvent) : Prop :=
  ∃ proof, event = .answered (.debugAuthorize proof) (.ok .done)

namespace Element

/-- An element that holds nothing yet. -/
def fresh (identity : ElementId) (entropy : Nat → Block) : Element :=
  { identity, entropy }

/-- An element after one action. -/
def act (e : Element) : ElementAction → Element
  | .command c => (e.execute c).1
  | .cancel => e.cancel

/-- An element after one action after the other. -/
def actAll (e : Element) (actions : List ElementAction) : Element :=
  actions.foldl act e

/-- What is seen of one action. -/
def event (e : Element) : ElementAction → ElementEvent
  | .command c => .answered c (e.execute c).2
  | .cancel => .cancelled

/-- What is seen of one action after the other. -/
def history (e : Element) : List ElementAction → List ElementEvent
  | [] => []
  | a :: later => e.event a :: (e.act a).history later

theorem actAll_append (e : Element) (actions later : List ElementAction) :
    e.actAll (actions ++ later) = (e.actAll actions).actAll later :=
  List.foldl_append

theorem history_append (e : Element) (actions later : List ElementAction) :
    e.history (actions ++ later) = e.history actions ++ (e.actAll actions).history later := by
  induction actions generalizing e with
  | nil => rfl
  | cons a actions ih => exact congrArg (e.event a :: ·) (ih (e.act a))

/-- What one action keeps, a run keeps. -/
theorem actAll_induction {P : Element → Prop} {e : Element} (h : P e)
    (hact : ∀ e a, P e → P (e.act a)) (actions : List ElementAction) : P (e.actAll actions) := by
  induction actions generalizing e with
  | nil => exact h
  | cons a actions ih => exact ih (hact e a h)

end Element
end VehicleGateway
