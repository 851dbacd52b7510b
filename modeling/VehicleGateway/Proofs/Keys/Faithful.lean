import VehicleGateway.Proofs.Keys.Ending
import VehicleGateway.Proofs.Keys.Line
import VehicleGateway.Proofs.Keys.Mirror

/-!
# Calls and what they have given to the element

Whoever uses a vault, and for whatever: each command under way is the one that its call has given,
the element will answer it by itself, and the service knows its element by the right name.

* `Faithful` says this, and `Faithful.act` that everything that can happen to a vault keeps it.
* `Commanded` says all that can become of a command in a turn of its call, `commanded_cases` that it
  is one of these.  The service gives a command up only if it waits for less time than the element
  needs.
-/

namespace VehicleGateway

namespace KeyService

variable {s s' : KeyService} {now n : Nat} {c c' : KeyCall} {e : KeyEvent}

@[simp] theorem timeout_finish (s : KeyService) (n : Nat) (c : KeyCall) (outcome : KeyOutcome) :
    (s.finish n c outcome).timeout = s.timeout := by
  rw [finish_eq]
  split <;> rfl

theorem Proceeds.timeout_eq (h : s.Proceeds n c c' s') : s'.timeout = s.timeout := by
  cases h with
  | ends => exact timeout_finish _ _ _ _
  | gives => rfl

theorem Move.timeout_eq (h : Move s now n c e c' s') : s'.timeout = s.timeout := by
  cases h with
  | stay | seize | line | grant | expire | answer => rfl
  | use _ _ hproceeds => exact hproceeds.timeout_eq
  | name _ hproceeds => exact hproceeds.timeout_eq
  | _ => exact timeout_finish _ _ _ _

/-- How long a service waits is settled when it is made. -/
theorem timeout_act (s : KeyService) (d : KeyDeed) : (s.act d).timeout = s.timeout := by
  cases d with
  | call request => rfl
  | start command =>
    change ((s.start command).getD s).timeout = s.timeout
    unfold start
    split <;> rfl
  | event now n e =>
    change (s.step now n e).timeout = s.timeout
    cases hget : s.call? n with
    | none => simp [step, hget]
    | some c =>
      obtain ⟨c', hmove, -⟩ := step_cases hget now e
      exact hmove.timeout_eq
  | take n =>
    change (s.take n).1.timeout = s.timeout
    rcases s.take_cases n with ⟨hsame, -⟩ | ⟨c, outcome, -, -, hsame | hsame⟩ <;> rw [hsame]
    rfl
  | drop n =>
    change (s.abandon n).timeout = s.timeout
    rcases s.abandon_cases n with hsame | ⟨c, -, -, hsame⟩ <;> rw [hsame]
    exact timeout_finish _ _ _ _

/-- A command is given up. -/
theorem step_of_expire {command : Command} (now : Nat) (hget : s.call? n = some c)
    (hcommand : c.stage.command? = some command) :
    s.step now n .expire = s.put n { c with stage := .cancelling } := by
  cases hstage : c.stage <;>
    simp [hstage, CallStage.command?] at hcommand <;>
    simp [step, hget, stepCall, hstage, CallStage.command?]

/-- The element has said who it is. -/
theorem step_of_identity {element : ElementId} (now : Nat) (hget : s.call? n = some c)
    (hstage : c.stage = .naming) (status : UInt8) (mac : Block) :
    s.step now n (.answer (.ok (.identity element status mac))) =
      { s with identity := some element }.proceed n c element := by
  simp [step, hget, stepCall, hstage, CallStage.command?, respond]

end KeyService

namespace Vault

variable {v v' : Vault} {now n : Nat} {c : KeyCall} {command : Command}

/-- The element answers by itself, and each call waits for the answer to the very command that it
has given. -/
structure Faithful (v : Vault) : Prop where
  coherent : v.service.Coherent
  lined : v.service.Lined
  unset : v.device.stands = []
  underWay : ∀ n i, v.underWay.get? n = some i → i.stand = none ∧
    ∃ c, v.service.call? n = some c ∧
      (c.stage.command? = some i.command ∨ ∃ outcome, c.stage = .ended outcome)
  /-- The element takes its latency, and the service waits for its timeout. -/
  timed : ∀ n i, v.underWay.get? n = some i →
    i.due + v.service.timeout = i.limit + v.device.latency
  identity : ∀ element, v.service.identity = some element → element = v.device.element.identity

/-- Nothing is under way for a call that has given nothing to the element. -/
theorem Faithful.idle (h : v.Faithful) (hget : v.service.call? n = some c)
    (hnone : c.stage.command? = none) (hopen : c.outcome? = none) : v.underWay.get? n = none := by
  cases hunderWay : v.underWay.get? n with
  | none => rfl
  | some i =>
    obtain ⟨-, d, hd, hcommand | ⟨outcome, hended⟩⟩ := h.underWay n i hunderWay
    · obtain rfl := Option.some.inj (hget.symm.trans hd)
      cases hnone.symm.trans hcommand
    · obtain rfl := Option.some.inj (hget.symm.trans hd)
      cases hopen.symm.trans (KeyService.outcome?_of_stage hended)

/-- What has become of a command after a turn of its call. -/
inductive Commanded (v : Vault) (now n : Nat) (command : Command) : Vault → Prop where
  /-- The element is given the command. -/
  | given (hidle : v.underWay.get? n = none) (i : Invocation) (hcommand : i.command = command)
      (hstand : i.stand = none)
      (htimed : i.due + v.service.timeout = i.limit + v.device.latency) :
      Commanded v now n command { v with underWay := v.underWay.insert n i }
  /-- The element has answered it. -/
  | answered : Commanded v now n command (v.answered now n command)
  /-- The service has given it up. -/
  | late (hlate : v.service.timeout < v.device.latency) :
      Commanded v now n command { v with
        underWay := v.underWay.erase n
        service := v.service.step now n .expire }

/-- The element has said who it is, and the call goes on with that. -/
theorem answered_of_identity (hget : v.service.call? n = some c) (hstage : c.stage = .naming)
    (challenge : Block) (now : Nat) : v.answered now n (.identify challenge) = { v with
      service := { v.service with identity := some v.device.element.identity }.proceed n c
        v.device.element.identity
      underWay := v.underWay.erase n } := by
  simp only [answered, Element.execute, Element.identification]
  rw [KeyService.step_of_identity now hget hstage]

/-- The command under way for a call is the one that it waits for. -/
theorem Faithful.command_eq (h : v.Faithful) (hget : v.service.call? n = some c)
    (hcommand : c.stage.command? = some command) {i : Invocation}
    (hunderWay : v.underWay.get? n = some i) : i.stand = none ∧ i.command = command := by
  obtain ⟨hstand, d, hd, hgiven | ⟨outcome, hended⟩⟩ := h.underWay n i hunderWay
  · obtain rfl := Option.some.inj (hget.symm.trans hd)
    exact ⟨hstand, Option.some.inj (hgiven.symm.trans hcommand)⟩
  · obtain rfl := Option.some.inj (hget.symm.trans hd)
    cases hcommand.symm.trans (congrArg CallStage.command? hended)

theorem commanded_cases (h : v.Faithful) (hget : v.service.call? n = some c)
    (hcommand : c.stage.command? = some command) (hstep : v.step? now n = some v') :
    Commanded v now n command v' := by
  rw [step?_of_command hget hcommand] at hstep
  cases hunderWay : v.underWay.get? n with
  | none =>
    obtain ⟨i, hi, hstand, hdue, hlimit, hinvoke⟩ := exists_invocation h.unset now n command
    simp only [hunderWay, hinvoke, Option.some.injEq] at hstep
    subst hstep
    exact .given hunderWay i hi hstand (by omega)
  | some i =>
    obtain ⟨hstand, rfl⟩ := h.command_eq hget hcommand hunderWay
    simp only [hunderWay] at hstep
    split at hstep
    case isTrue =>
      obtain rfl := Option.some.inj hstep
      rw [complete_eq_answered now hstand]
      exact .answered
    case isFalse hnotDue =>
      split at hstep
      case isFalse => cases hstep
      case isTrue hlimit =>
        obtain rfl := Option.some.inj hstep
        -- The element was due after the service had given up.
        have htimed := h.timed n i hunderWay
        exact .late (by omega)

/-! ## Whatever happens -/

/-- An event of a call leaves the vault faithful, if nothing is under way for the call after it. -/
theorem Faithful.event (h : v.Faithful) (hget : v.service.call? n = some c) {e : KeyEvent}
    (hservice : v'.service = v.service.step now n e) (hunset : v'.device.stands = [])
    (hlatency : v'.device.latency = v.device.latency)
    (helement : v'.device.element.identity = v.device.element.identity)
    (hidle : v'.underWay.get? n = none)
    (hothers : ∀ m, n ≠ m → v'.underWay.get? m = v.underWay.get? m)
    (hnames : ∀ element status mac, c.stage = .naming →
      e = .answer (.ok (.identity element status mac)) → element = v.device.element.identity) :
    v'.Faithful := by
  obtain ⟨c', hmove, hget'⟩ := KeyService.step_cases hget now e
  rw [← hservice] at hmove hget'
  have hbefore (m : Nat) (i : Invocation) (hi : v'.underWay.get? m = some i) :
      n ≠ m ∧ v.underWay.get? m = some i := by
    have hnm : n ≠ m := by
      rintro rfl
      cases hidle.symm.trans hi
    exact ⟨hnm, (hothers m hnm).symm.trans hi⟩
  refine ⟨h.coherent.move hget hmove, h.lined.move hget hmove, hunset, ?_, ?_, ?_⟩
  · intro m i hi
    obtain ⟨hnm, hi⟩ := hbefore m i hi
    rw [hmove.call?_of_ne hnm]
    exact h.underWay m i hi
  · intro m i hi
    rw [hmove.timeout_eq, hlatency]
    exact h.timed m i (hbefore m i hi).2
  · intro element hknown
    rw [helement]
    rcases hmove.identity_cases with hkept | ⟨element', status, mac, hstage, hevent, hnew⟩
    · exact h.identity element (by rwa [hkept] at hknown)
    · obtain rfl := Option.some.inj (hnew.symm.trans hknown)
      exact hnames _ _ _ hstage hevent

theorem Faithful.commanded (h : v.Faithful) (hget : v.service.call? n = some c)
    (hcommand : c.stage.command? = some command) (hcommanded : Commanded v now n command v') :
    v'.Faithful := by
  have hothers (m : Nat) (hnm : n ≠ m) : (v.underWay.erase n).get? m = v.underWay.get? m :=
    Dictionary.get?_erase_of_ne _ (Ne.symm hnm)
  cases hcommanded with
  | given hidle i hi hstand htimed =>
    have hcases (m : Nat) (i' : Invocation) (hi' : (v.underWay.insert n i).get? m = some i') :
        m = n ∧ i' = i ∨ v.underWay.get? m = some i' := by
      by_cases hmn : m = n
      · subst hmn
        rw [Dictionary.get?_insert_self] at hi'
        exact .inl ⟨rfl, (Option.some.inj hi').symm⟩
      · exact .inr (by rwa [Dictionary.get?_insert_of_ne _ hmn] at hi')
    refine ⟨h.coherent, h.lined, h.unset, ?_, ?_, h.identity⟩
    · intro m i' hi'
      rcases hcases m i' hi' with ⟨rfl, rfl⟩ | hold
      · exact ⟨hstand, c, hget, .inl (by rw [hi]; exact hcommand)⟩
      · exact h.underWay m i' hold
    · intro m i' hi'
      rcases hcases m i' hi' with ⟨rfl, rfl⟩ | hold
      · exact htimed
      · exact h.timed m i' hold
  | answered =>
    refine h.event hget rfl h.unset rfl (Element.identity_execute _ _)
      (Dictionary.get?_erase_self _ _) hothers ?_
    intro element status mac hstage hevent
    obtain rfl : Command.identify Block.zero = command := by
      simpa [hstage, CallStage.command?] using hcommand
    -- The element says who it is.
    simp only [Element.execute, Element.identification, KeyEvent.answer.injEq, Except.ok.injEq,
      Response.identity.injEq] at hevent
    exact hevent.1.symm
  | late =>
    refine h.event hget rfl h.unset rfl rfl (Dictionary.get?_erase_self _ _) hothers ?_
    rintro _ _ _ _ ⟨⟩

/-- A turn of a call leaves the vault faithful. -/
theorem Faithful.turn (h : v.Faithful) (hstep : v.step? now n = some v') : v'.Faithful := by
  obtain ⟨c, hget, hturn⟩ := turn_cases hstep
  cases hcommand : c.stage.command? with
  | some command => exact h.commanded hget hcommand (commanded_cases h hget hcommand hstep)
  | none =>
    cases hturn with
    | go hevent _ hopen =>
      refine h.event hget rfl h.unset rfl rfl (h.idle hget hcommand hopen) (fun _ _ => rfl) ?_
      rintro element status mac - rfl
      rcases hevent with hevent | hevent <;> cases hevent
    | cancel hstage =>
      have hopen : c.outcome? = none := by simp [KeyCall.outcome?, hstage]
      refine h.event hget rfl h.unset rfl rfl (h.idle hget hcommand hopen) (fun _ _ => rfl) ?_
      rintro _ _ _ _ ⟨⟩
    | invoke hsome => cases hcommand.symm.trans hsome
    | complete hsome => cases hcommand.symm.trans hsome
    | expire hsome => cases hcommand.symm.trans hsome

/-- What callers do without the element leaves the vault faithful. -/
theorem Faithful.aside (h : v.Faithful) (deed : KeyDeed)
    (hquiet : ∀ now n e, deed ≠ .event now n e) :
    Faithful { v with service := v.service.act deed } := by
  have haside := KeyService.aside_act (s := v.service) hquiet
  refine ⟨h.coherent.act deed, h.lined.act deed, h.unset, ?_, ?_, ?_⟩
  · intro n i hi
    obtain ⟨hstand, c, hget, hcases⟩ := h.underWay n i hi
    obtain ⟨d, hd, hstage | hended⟩ := haside.kept n c hget
    · exact ⟨hstand, d, hd, by rwa [hstage]⟩
    · exact ⟨hstand, d, hd, .inr hended⟩
  · intro n i hi
    rw [KeyService.timeout_act]
    exact h.timed n i hi
  · intro element hknown
    exact h.identity element (haside.identity ▸ hknown)

/-- Whatever happens to a vault, it stays faithful. -/
theorem Faithful.act (h : v.Faithful) (d : VaultDeed) : (v.act d).Faithful := by
  cases d with
  | call request => exact h.aside (.call request) (by simp)
  | start command =>
    have hact : v.act (.start command) = { v with service := v.service.act (.start command) } := by
      simp only [Vault.act, Vault.start, KeyService.act]
      cases v.service.start command <;> rfl
    rw [hact]
    exact h.aside (.start command) (by simp)
  | turn now n =>
    change ((v.step? now n).getD v).Faithful
    cases hstep : v.step? now n with
    | none => exact h
    | some v' => exact h.turn hstep
  | take n => exact h.aside (.take n) (by simp)
  | drop n => exact h.aside (.drop n) (by simp)

theorem faithful_fresh (timeout : Nat) (identity : ElementId) (entropy : Nat → Block)
    (latency : Nat) : (fresh timeout identity entropy latency).Faithful := by
  refine ⟨KeyService.coherent_new timeout, KeyService.lined_new timeout, rfl, ?_, ?_, ?_⟩
  · rintro _ _ ⟨⟩
  · rintro _ _ ⟨⟩
  · rintro _ ⟨⟩

/-- Whatever was done with a new vault, it is faithful. -/
theorem faithful_actAll (timeout : Nat) (identity : ElementId) (entropy : Nat → Block)
    (latency : Nat) (deeds : List VaultDeed) :
    ((fresh timeout identity entropy latency).actAll deeds).Faithful :=
  actAll_induction (faithful_fresh timeout identity entropy latency) fun _ d _ h => h.act d

theorem Faithful.after (h : v.Faithful) (deeds : Nat → VaultDeed) (k : Nat) :
    (v.after deeds k).Faithful := by
  induction k with
  | zero => exact h
  | succ k ih => exact ih.act (deeds k)

/-! ## What is settled when a vault is made -/

/-- The service waits as long in two vaults, and the element takes as long and has the same name. -/
structure SameMake (v v' : Vault) : Prop where
  timeout : v'.service.timeout = v.service.timeout
  latency : v'.device.latency = v.device.latency
  identity : v'.device.element.identity = v.device.element.identity

theorem SameMake.since {w : Vault} (h : SameMake v v') (hw : SameMake v w) : SameMake w v' :=
  ⟨h.timeout.trans hw.timeout.symm, h.latency.trans hw.latency.symm,
    h.identity.trans hw.identity.symm⟩

theorem Faithful.sameMake_turn (h : v.Faithful) (hstep : v.step? now n = some v') :
    SameMake v v' := by
  obtain ⟨c, hget, hturn⟩ := turn_cases hstep
  have htimeout (e : KeyEvent) : (v.service.step now n e).timeout = v.service.timeout :=
    v.service.timeout_act (.event now n e)
  cases hcommand : c.stage.command? with
  | some command =>
    cases commanded_cases h hget hcommand hstep with
    | given => exact ⟨rfl, rfl, rfl⟩
    | answered => exact ⟨htimeout _, rfl, Element.identity_execute _ _⟩
    | late => exact ⟨htimeout _, rfl, rfl⟩
  | none =>
    cases hturn with
    | go => exact ⟨htimeout _, rfl, rfl⟩
    | cancel => exact ⟨htimeout _, rfl, rfl⟩
    | invoke hsome => cases hcommand.symm.trans hsome
    | complete hsome => cases hcommand.symm.trans hsome
    | expire hsome => cases hcommand.symm.trans hsome

theorem Faithful.sameMake_act (h : v.Faithful) (d : VaultDeed) : SameMake v (v.act d) := by
  cases d with
  | call request => exact ⟨rfl, rfl, rfl⟩
  | start command =>
    simp only [Vault.act, Vault.start, KeyService.start]
    split <;> exact ⟨rfl, rfl, rfl⟩
  | turn now n =>
    change SameMake v ((v.step? now n).getD v)
    cases hstep : v.step? now n with
    | none => exact ⟨rfl, rfl, rfl⟩
    | some v' => exact h.sameMake_turn hstep
  | take n => exact ⟨v.service.timeout_act (.take n), rfl, rfl⟩
  | drop n => exact ⟨v.service.timeout_act (.drop n), rfl, rfl⟩

/-- A run changes neither the waits nor the name of the element. -/
theorem Faithful.sameMake_after (h : v.Faithful) (deeds : Nat → VaultDeed) (k : Nat) :
    SameMake v (v.after deeds k) := by
  induction k with
  | zero => exact ⟨rfl, rfl, rfl⟩
  | succ k ih =>
    have hnext := (h.after deeds k).sameMake_act (deeds k)
    exact ⟨hnext.timeout.trans ih.timeout, hnext.latency.trans ih.latency,
      hnext.identity.trans ih.identity⟩

/-! ## Keys that stay -/

/-- The element holds the same keys, and the service notes the same. -/
structure SameKeys (v v' : Vault) : Prop where
  slots : ∀ slot, v'.device.element.slots.get? slot = v.device.element.slots.get? slot
  plainKey : v'.device.element.plainKey = v.device.element.plainKey
  notes : ∀ slot, v'.service.notes.get? slot = v.service.notes.get? slot

theorem SameKeys.trans {v'' : Vault} (h : SameKeys v v') (h' : SameKeys v' v'') :
    SameKeys v v'' :=
  ⟨fun slot => (h'.slots slot).trans (h.slots slot), h'.plainKey.trans h.plainKey,
    fun slot => (h'.notes slot).trans (h.notes slot)⟩

theorem sameKeys_of_eq (hslots : v'.device.element.slots = v.device.element.slots)
    (hplainKey : v'.device.element.plainKey = v.device.element.plainKey)
    (hnotes : v'.service.notes = v.service.notes) : SameKeys v v' :=
  ⟨fun slot => congrArg (·.get? slot) hslots, hplainKey, fun slot => congrArg (·.get? slot) hnotes⟩

theorem SameKeys.agrees (h : SameKeys v v')
    (hagrees : ∀ slot, v.service.Agrees v.device.element slot) (slot : KeySlot) :
    v'.service.Agrees v'.device.element slot := by
  unfold KeyService.Agrees
  rw [h.slots, h.notes]
  exact hagrees slot

end Vault
end VehicleGateway
