import Mathlib.Order.Monotone.Basic
import Mathlib.Tactic.Push
import VehicleGateway.Proofs.Update.Trace

/-!
# The turns of a session

A run without end, in which a session gets its turn again and again.  What it finds at each of its
turns is left open.

* `turn` is the session at a turn, `left` the world that it leaves, and `Ready` says that it is about
  to do what its dialogue needs.
* `goes_on` is how a session comes to the end of a wait: time passes.
* `session_closes` says that an ended dialogue is shown three turns later.
-/

namespace VehicleGateway.Session

variable {σ : Type} [Storage σ]

/-- A session at its turn with a number, when `w` are the worlds that it finds at its turns. -/
def turn (c : FirmwareConfig) (s : Session) (w : Nat → World σ) : Nat → Session
  | 0 => s
  | i + 1 =>
    match (turn c s w i).step? c (w i) with
    | some (_, s') => s'
    | none => turn c s w i

/-- The world that a session leaves after its turn. -/
def left (c : FirmwareConfig) (s : Session) (w : Nat → World σ) (i : Nat) : World σ :=
  match (turn c s w i).step? c (w i) with
  | some (w', _) => w'
  | none => w i

/-- The worlds that a session has found before a turn. -/
def found (w : Nat → World σ) (i : Nat) : List (World σ) :=
  (List.range i).map w

/-- Time does not run backwards, and every time comes. -/
structure TimePasses (w : Nat → World σ) : Prop where
  forward : ∀ i, (w i).now ≤ (w (i + 1)).now
  passes : ∀ time, ∃ i, time ≤ (w i).now

variable {c : FirmwareConfig} {s : Session} {w : Nat → World σ}

/-- A session at its turn is the one that has found the worlds before. -/
theorem turn_eq_after (c : FirmwareConfig) (s : Session) (w : Nat → World σ) (i : Nat) :
    s.turn c w i = s.after c (found w i) := by
  induction i with
  | zero => rfl
  | succ i ih =>
    have hfound : found w (i + 1) = found w i ++ [w i] := by simp [found, List.range_succ]
    rw [hfound, after_append, ← ih]
    rfl

theorem turn_succ {w' : World σ} {s' : Session} {i : Nat}
    (h : (s.turn c w i).step? c (w i) = some (w', s')) :
    s.turn c w (i + 1) = s' ∧ s.left c w i = w' := by
  simp [turn, left, h]

theorem turn_wait {i : Nat} (h : (s.turn c w i).step? c (w i) = none) :
    s.turn c w (i + 1) = s.turn c w i ∧ s.left c w i = w i := by
  simp [turn, left, h]

/-- A session keeps what was fixed at its start. -/
theorem turn_keeps (c : FirmwareConfig) (s : Session) (w : Nat → World σ) (i : Nat) :
    s.turn c w i = { s with
      dialogue := (s.turn c w i).dialogue, doing := (s.turn c w i).doing } := by
  induction i with
  | zero => rfl
  | succ i ih =>
    cases hstep : (s.turn c w i).step? c (w i) with
    | none =>
      rw [(turn_wait hstep).1]
      exact ih
    | some next =>
      obtain ⟨w', s'⟩ := next
      rw [(turn_succ hstep).1, step?_keeps hstep]
      rw [ih]

omit [Storage σ] in
theorem TimePasses.now_le (h : TimePasses w) {i j : Nat} (hij : i ≤ j) : (w i).now ≤ (w j).now :=
  monotone_nat_of_le_succ h.forward hij

/-- Something that stays as long as the session waits, and lets it wait no longer than to some time,
brings it to a turn where it goes on. -/
theorem TimePasses.goes_on (h : TimePasses w) {P : Nat → Prop} {i : Nat} (time : Nat) (hP : P i)
    (hstay : ∀ k, i ≤ k → P k → (s.turn c w k).step? c (w k) = none → P (k + 1))
    (hgo : ∀ k, i ≤ k → P k → time ≤ (w k).now → (s.turn c w k).step? c (w k) ≠ none) :
    ∃ j, i ≤ j ∧ P j ∧ (s.turn c w j).step? c (w j) ≠ none := by
  -- Otherwise it waits at every turn, also at one that is late enough.
  by_contra hnever
  push Not at hnever
  have hall : ∀ n, P (i + n) := by
    intro n
    induction n with
    | zero => exact hP
    | succ n ih => exact hstay _ (Nat.le_add_right i n) ih (hnever _ (Nat.le_add_right i n) ih)
  obtain ⟨late, hlate⟩ := h.passes time
  have htime : time ≤ (w (i + late)).now := hlate.trans (h.now_le (Nat.le_add_left late i))
  exact hgo _ (Nat.le_add_right i late) (hall late) htime
    (hnever _ (Nat.le_add_right i late) (hall late))

/-- What a session does goes with what its dialogue waits for, at every turn. -/
theorem coherent_turn (hcoherent : s.Coherent) (i : Nat) : (s.turn c w i).Coherent := by
  rw [turn_eq_after]
  exact (after_induction (motive := fun _ _ => True) hcoherent [] trivial
    (fun _ _ _ _ => trivial) _).1

/-- A session is at its turn and about to do what its dialogue needs. -/
def Ready (c : FirmwareConfig) (s : Session) (w : Nat → World σ) (i : Nat) (d : Dialogue) : Prop :=
  (s.turn c w i).dialogue = d ∧ (s.turn c w i).doing = .ready

variable {i : Nat} {d : Dialogue}

theorem ready_of_tell {w' : World σ} {s' : Session} {t : Tiding} {j : Nat}
    (hstep : (s.turn c w j).step? c (w j) = some (w', s'.tell t))
    (hsame : s'.dialogue = d) : s.Ready c w (j + 1) (d.hear t) := by
  rw [Ready, (turn_succ hstep).1, ← hsame]
  exact ⟨rfl, rfl⟩

theorem Ready.step? (h : s.Ready c w i d) (wish : Wish) (hwish : d.wish? = some wish) :
    (s.turn c w i).step? c (w i) = some ((s.turn c w i).turnTo c (w i) wish) := by
  obtain ⟨hdialogue, hready⟩ := h
  unfold Session.step?
  simp only [hready, hdialogue, hwish]

/-- What a session does at the turns after the one at which it finds its dialogue ended. -/
def windingUp : Nat → Doing
  | 0 => .released
  | 1 => .stored
  | _ => .closed

/-- A session whose dialogue has ended releases its ECU, stores the record and closes. -/
theorem session_winds_up (hready : s.Ready c w i d) {result : Except UpdateFault Unit}
    (hphase : d.phase = .ended result) (k : Nat) :
    (s.turn c w (i + 1 + k)).dialogue = d ∧ (s.turn c w (i + 1 + k)).doing = windingUp k := by
  induction k with
  | zero =>
    obtain ⟨hdialogue, hdoing⟩ := hready
    have hstep : (s.turn c w i).step? c (w i) = some ((s.turn c w i).release (w i) result) := by
      simp [Session.step?, hdoing, hdialogue, Dialogue.wish?, Dialogue.result?, hphase]
    rw [Nat.add_zero, (turn_succ hstep).1]
    exact ⟨hdialogue, rfl⟩
  | succ k ih =>
    obtain ⟨hdialogue, hdoing⟩ := ih
    rcases k with _ | _ | k
    · have hstep : (s.turn c w (i + 1)).step? c (w (i + 1)) =
          some ((w (i + 1)).persist (s.turn c w (i + 1)).ecu,
            { (s.turn c w (i + 1)) with doing := .stored }) := by
        simp [Session.step?, show (s.turn c w (i + 1)).doing = .released from hdoing]
      rw [← Nat.add_assoc, Nat.add_zero, (turn_succ hstep).1]
      exact ⟨hdialogue, rfl⟩
    · have hstep : (s.turn c w (i + 1 + 1)).step? c (w (i + 1 + 1)) =
          some (w (i + 1 + 1), { (s.turn c w (i + 1 + 1)) with doing := .closed }) := by
        simp [Session.step?, show (s.turn c w (i + 1 + 1)).doing = .stored from hdoing]
      rw [← Nat.add_assoc, (turn_succ hstep).1]
      exact ⟨hdialogue, rfl⟩
    · have hwait : (s.turn c w (i + 1 + (k + 2))).step? c (w (i + 1 + (k + 2))) = none := by
        simp [Session.step?, show (s.turn c w (i + 1 + (k + 2))).doing = .closed from hdoing]
      rw [← Nat.add_assoc, (turn_wait hwait).1]
      exact ⟨hdialogue, hdoing⟩

end VehicleGateway.Session
