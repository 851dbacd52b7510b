/-!
# Mailboxes

A mailbox holds items in the order in which they came in, up to its depth.  Nobody waits to put an
item in: a full mailbox refuses it.  An item is only of use while somebody is there to take it, and
waiting for one only while somebody can still put it in, so a mailbox knows both.
-/

namespace VehicleGateway

/-- A queue of limited depth. -/
structure Mailbox (α : Type) where
  depth : Nat
  items : List α := []
  /-- Whether somebody can still put items in. -/
  hasSender : Bool := true
  /-- Whether somebody is there to take items out. -/
  hasReader : Bool := true
  deriving DecidableEq, Repr

/-- What becomes of an item. -/
inductive Posting where
  | queued
  | full
  | gone
  deriving DecidableEq, Repr

namespace Mailbox

variable {α : Type}

/-- A mailbox that neither takes items in nor gives any out. -/
def shut : Mailbox α :=
  { depth := 0, hasSender := false, hasReader := false }

/-- What would become of one more item. -/
def posting (m : Mailbox α) : Posting :=
  if !m.hasReader then .gone
  else if m.items.length < m.depth then .queued
  else .full

/-- Puts an item in, if there is room for it. -/
def post (m : Mailbox α) (a : α) : Mailbox α :=
  match m.posting with
  | .queued => { m with items := m.items ++ [a] }
  | _ => m

/-- Takes out the oldest item. -/
def take? (m : Mailbox α) : Option (α × Mailbox α) :=
  match m.items with
  | [] => none
  | a :: rest => some (a, { m with items := rest })

/-- Nobody takes items out any more; those inside are lost. -/
def dropReader (m : Mailbox α) : Mailbox α :=
  { m with items := [], hasReader := false }

/-- Nobody puts items in any more; those inside can still be taken out. -/
def dropSender (m : Mailbox α) : Mailbox α :=
  { m with hasSender := false }

/-- Whether there is nothing inside and nothing will come. -/
def finished (m : Mailbox α) : Bool :=
  m.items.isEmpty && !m.hasSender

theorem items_post (m : Mailbox α) (a : α) :
    (m.post a).items = if m.posting = .queued then m.items ++ [a] else m.items := by
  unfold post
  split <;> simp_all

theorem length_items_post_le (m : Mailbox α) (a : α) (h : m.items.length ≤ m.depth) :
    (m.post a).items.length ≤ (m.post a).depth := by
  by_cases hq : m.posting = .queued
  · have hlt : m.items.length < m.depth := by
      unfold posting at hq
      split at hq
      · cases hq
      · split at hq
        · assumption
        · cases hq
    simpa [post, hq] using Nat.succ_le_of_lt hlt
  · have hm : m.post a = m := by
      unfold post
      split <;> simp_all
    rw [hm]
    exact h

theorem items_take? {m m' : Mailbox α} {a : α} (h : m.take? = some (a, m')) :
    m.items = a :: m'.items := by
  unfold take? at h
  split at h <;> simp_all
  rw [← h.2]

end Mailbox
end VehicleGateway
