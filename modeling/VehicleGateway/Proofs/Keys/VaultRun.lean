import VehicleGateway.Keys.Vault
import VehicleGateway.Proofs.Keys.ElementRun
import VehicleGateway.Proofs.Keys.Token

/-!
# Runs of a key service on its element

A vault is only used through its key service.  What happens to it is that calls are made and have
their turns, in any order and at any times; every turn does what the call does next at that time.

* `VaultDeed` names what happens, and `Vault.actAll` does one thing after the other.
* `Turn` says all that a turn can do, and `turn_cases` that it does one of these.
-/

namespace VehicleGateway

/-- Something that happens to a vault. -/
inductive VaultDeed where
  /-- A caller makes a call. -/
  | call (request : KeyRequest)
  /-- A caller starts a command, if the token is free. -/
  | start (command : Command)
  /-- A call has its turn. -/
  | turn (now n : Nat)
  | take (n : Nat)
  | drop (n : Nat)

namespace Vault

/-- A key service on an element that holds nothing yet. -/
def fresh (timeout : Nat) (identity : ElementId) (entropy : Nat → Block) (latency : Nat) :
    Vault where
  service := { timeout }
  device := { element := Element.fresh identity entropy, latency }

/-- A vault after something has happened.  A turn in which nothing can be done changes nothing. -/
def act (v : Vault) : VaultDeed → Vault
  | .call request => v.addCall request
  | .start command => (v.start command).getD v
  | .turn now n => (v.step? now n).getD v
  | .take n => { v with service := (v.service.take n).1 }
  | .drop n => { v with service := v.service.abandon n }

/-- A vault after all that has happened. -/
def actAll (v : Vault) (deeds : List VaultDeed) : Vault :=
  deeds.foldl act v

theorem actAll_induction {P : Vault → Prop} {v : Vault} {deeds : List VaultDeed} (hv : P v)
    (hact : ∀ v d, d ∈ deeds → P v → P (v.act d)) : P (v.actAll deeds) := by
  induction deeds generalizing v with
  | nil => exact hv
  | cons d rest ih =>
    refine ih (hact v d List.mem_cons_self hv) ?_
    exact fun v d' hd' => hact v d' (List.mem_cons_of_mem d hd')

theorem actAll_append (v : Vault) (deeds later : List VaultDeed) :
    v.actAll (deeds ++ later) = (v.actAll deeds).actAll later :=
  List.foldl_append

variable {v v' : Vault} {now n : Nat} {c : KeyCall}

theorem actAll_turn (h : v.step? now n = some v') : v.actAll [.turn now n] = v' := by
  simp [actAll, act, h]

/-- What a turn of a call can do. -/
inductive Turn (v : Vault) (now n : Nat) (c : KeyCall) : Vault → Prop where
  /-- The call goes on without the element. -/
  | go {e : KeyEvent} (hevent : e = .go ∨ e = .giveUp) (haway : c.stage.command? = none)
      (hopen : c.outcome? = none) : Turn v now n c { v with service := v.service.step now n e }
  | cancel (hstage : c.stage = .cancelling) : Turn v now n c (v.cancel now n)
  | invoke {command : Command} (hcommand : c.stage.command? = some command)
      (hidle : v.underWay.get? n = none) : Turn v now n c (v.invoke now n command)
  | complete {command : Command} {i : Invocation} (hcommand : c.stage.command? = some command)
      (hunderWay : v.underWay.get? n = some i) : Turn v now n c (v.complete now n i)
  | expire {command : Command} {i : Invocation} (hcommand : c.stage.command? = some command)
      (hunderWay : v.underWay.get? n = some i) : Turn v now n c
        { v with underWay := v.underWay.erase n, service := v.service.step now n .expire }

/-- A turn does one of these. -/
theorem turn_cases (h : v.step? now n = some v') :
    ∃ c, v.service.call? n = some c ∧ Turn v now n c v' := by
  unfold step? at h
  obtain ⟨c, hget, h⟩ := Option.bind_eq_some_iff.mp h
  refine ⟨c, hget, ?_⟩
  have haway (hnone : c.stage.command? = none) (hopen : c.outcome? = none) {e : KeyEvent}
      (hevent : e = .go ∨ e = .giveUp)
      (h : some { v with service := v.service.step now n e } = some v') : Turn v now n c v' := by
    obtain rfl := Option.some.inj h
    exact .go hevent hnone hopen
  cases hstage : c.stage with
  | ended outcome => simp [hstage] at h
  | entering | granted =>
    refine haway (by rw [hstage]; rfl) (by simp [KeyCall.outcome?, hstage]) (.inl rfl) ?_
    simpa [hstage] using h
  | queued limit =>
    simp only [hstage] at h
    have hnone : c.stage.command? = none := by rw [hstage]; rfl
    have hopen : c.outcome? = none := by simp [KeyCall.outcome?, hstage]
    split at h
    case isTrue => exact haway hnone hopen (.inl rfl) h
    case isFalse =>
      split at h
      case isTrue => exact haway hnone hopen (.inr rfl) h
      case isFalse => cases h
  | cancelling =>
    simp only [hstage, Option.some.injEq] at h
    subst h
    exact .cancel hstage
  | _ =>
    -- A command is given to the element, answered, or given up.
    have hcommand := congrArg CallStage.command? hstage
    cases hunderWay : v.underWay.get? n with
    | none =>
      simp only [hstage, CallStage.command?, hunderWay, Option.some.injEq] at h
      subst h
      exact .invoke hcommand hunderWay
    | some i =>
      simp only [hstage, hunderWay] at h
      split at h
      case isTrue =>
        obtain rfl := Option.some.inj h
        exact .complete hcommand hunderWay
      case isFalse =>
        split at h
        case isTrue =>
          obtain rfl := Option.some.inj h
          exact .expire hcommand hunderWay
        case isFalse => cases h

end Vault
end VehicleGateway
