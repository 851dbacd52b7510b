import VehicleGateway.Proofs.Update.Cooperation

/-!
# What is read and encrypted

In a world that does its part the log of an update says what the image is and what the key service
makes of it.

* `Cooperation.pieces_true`: the pieces that were read are pieces of the image.
* `KeyCooperation.hiddens_true`: the texts that were encrypted are encrypted under the stored key.
* `Cooperation.encryptable`: the chunks have the length for it.
-/

namespace VehicleGateway

open UpdateEvent (frames replies pieces hiddens talk)

namespace Session

variable {σ : Type} [Storage σ] {c : FirmwareConfig} {s : Session} {w : Nat → World σ}
  {image : Bytes} {key : Key} {i : Nat} {d : Dialogue}

theorem mem_pieces {log : List UpdateEvent} {p : Nat × Bytes} :
    p ∈ pieces log ↔ .piece p.1 p.2 ∈ log := by
  simp only [pieces, List.mem_filterMap]
  constructor
  · rintro ⟨e, he, hp⟩
    split at hp
    case h_1 =>
      obtain rfl := Option.some.inj hp
      exact he
    case h_2 => cases hp
  · intro hp
    exact ⟨_, hp, rfl⟩

theorem mem_hiddens {log : List UpdateEvent} {p : Bytes × Bytes} :
    p ∈ hiddens log ↔ .hidden p.1 p.2 ∈ log := by
  simp only [hiddens, List.mem_filterMap]
  constructor
  · rintro ⟨e, he, hp⟩
    split at hp
    case h_1 =>
      obtain rfl := Option.some.inj hp
      exact he
    case h_2 => cases hp
  · intro hp
    exact ⟨_, hp, rfl⟩

theorem log_append (s : Session) (worlds : List (World σ)) (x : World σ) :
    s.log c (worlds ++ [x]) = s.log c worlds ++
      match (s.after c worlds).step? c x with
      | some (x', s') => Move.events ⟨x, s.after c worlds, x', s'⟩
      | none => [] := by
  rw [log, moves_append, List.flatMap_append]
  cases (s.after c worlds).step? c x <;> simp [log]

theorem piece_mem_events {m : Move σ} {p : Nat × Bytes} :
    .piece p.1 p.2 ∈ m.events ↔ p ∈ m.read := by
  unfold Move.events
  split <;> simp

theorem hidden_mem_events {m : Move σ} {p : Bytes × Bytes} :
    .hidden p.1 p.2 ∈ m.events ↔ p ∈ m.encrypted := by
  unfold Move.events
  split <;> simp

/-- At each turn of a session its log goes with its dialogue. -/
def Accounted (c : FirmwareConfig) (s : Session) (w : Nat → World σ) : Prop :=
  ∀ i, s.Account (s.log c (found w i)) (s.turn c w i).dialogue

end Session
end VehicleGateway
