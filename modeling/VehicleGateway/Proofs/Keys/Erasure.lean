import VehicleGateway.Proofs.Cipher.Columns
import VehicleGateway.Proofs.Keys.Faithful
import VehicleGateway.Proofs.Keys.Loadable

/-!
# Which master key an erase uses

To erase all keys one answers a challenge of the element under its master key.  The service takes
the key from its notes when the call starts, before it asks for the token, and does not look again
when it has the token.  Other calls can have replaced the master key by then.

* `started_before` says where the key comes from that a call with the token uses.
* `held_act` says that nobody else changes anything while a call has the token.
* `Erasing` says how far an erase has come that has the token, and `Erasing.turn` what a turn does.
* `erase_settled` is the whole: the erase succeeds exactly if the key that it noted at its start
  answers the challenge as the present master key does.  `overtaken_erase_refused` is a run in which
  it does not.
-/

namespace VehicleGateway

/-- Whether a call in a stage has asked for the token and has not used it. -/
def CallStage.waits : CallStage → Bool
  | .queued _ | .granted => true
  | _ => false

theorem CallStage.waits_of_command? {stage : CallStage} {command : Command}
    (h : stage.command? = some command) : stage.waits = false := by
  cases stage with
  | queued | granted => cases h
  | _ => rfl

namespace KeyService

variable {s s' : KeyService} {now n : Nat} {c c' : KeyCall} {e : KeyEvent} {element : ElementId}

/-- The master key that the service knows is the one by which the element judges. -/
theorem masterKey_eq_of_agrees {e : Element} (h : s.Agrees e .master) :
    s.masterKey = e.authorityKey .master := by
  rcases h with ⟨hnote, hslot⟩ | ⟨key, counter, flags, hnote, hslot⟩
  · rw [Element.authorityKey_of_none hslot]
    simp [masterKey, hnote]
  · rw [Element.authorityKey_of_some hslot]
    simp [masterKey, hnote]

theorem Proceeds.waits_eq (h : s.Proceeds n c c' s') : c'.stage.waits = false := by
  cases h with
  | ends => rfl
  | gives _ hcommand => exact CallStage.waits_of_command? hcommand

/-- A call that waits has noted the master key in its first turn. -/
theorem Move.waits_cases (h : Move s now n c e c' s') (hwaits : c'.stage.waits = true) :
    (c.stage = .entering ∧ c'.authority = s.masterKey) ∨
      (c.stage.waits = true ∧ c'.authority = c.authority) := by
  cases h with
  | stay => exact .inr ⟨hwaits, rfl⟩
  | seize hstage hready | line hstage hready => exact .inl ⟨hstage, by rw [prepare_eq hready]⟩
  | grant hstage => exact .inr ⟨by rw [hstage]; rfl, rfl⟩
  | use _ _ hproceeds => cases hwaits.symm.trans hproceeds.waits_eq
  | name _ hproceeds => cases hwaits.symm.trans hproceeds.waits_eq
  | answer _ hproof =>
    subst hproof
    cases hwaits
  | _ => cases hwaits

/-- An erase that uses the token does not look at the notes. -/
theorem useToken_erase (s : KeyService) (n : Nat) (hrequest : c.request = .erase) :
    s.useToken n c =
      match s.identity with
      | some element => s.proceed n c element
      | none => s.put n { c with stage := .naming } := by
  cases hidentity : s.identity <;> simp only [useToken, hrequest, KeyCall.load?, hidentity]

theorem proceed_erase (s : KeyService) (n : Nat) (element : ElementId)
    (hrequest : c.request = .erase) :
    s.proceed n c element = s.put n { c with stage := .challenging element } := by
  simp only [proceed, hrequest, KeyCall.load?]

/-- The element has given its challenge. -/
theorem step_of_challenge (now : Nat) (hget : s.call? n = some c)
    (hstage : c.stage = .challenging element) (challenge : Block) :
    s.step now n (.answer (.ok (.challenge challenge))) = s.put n { c with
      stage := .authorizing (Element.debugProof c.authority challenge element) } := by
  simp [step, hget, stepCall, hstage, CallStage.command?, respond]

end KeyService

namespace Vault

variable {v v' w : Vault} {now n k : Nat} {c c' : KeyCall} {d : VaultDeed}
  {deeds : Nat → VaultDeed} {authority : Key} {outcome : KeyOutcome}

/-! ## Before the call has the token -/

/-- A turn is an event for the call that has it, if anything. -/
theorem Turn.service_cases (h : Turn v now n c v') :
    v'.service = v.service ∨ ∃ e, v'.service = v.service.step now n e := by
  cases h with
  | go | cancel | expire => exact .inr ⟨_, rfl⟩
  | invoke => exact .inl rfl
  | complete =>
    unfold Vault.complete
    dsimp only
    split <;> exact .inr ⟨_, rfl⟩

/-- A call after a deed is as it was before, or new, or at its end, or its turn has moved it on. -/
theorem call?_act_cases (hget : (v.act d).service.call? n = some c') :
    v.service.call? n = some c' ∨ (∃ request, c' = { request }) ∨
      (∃ command expects, c'.request = .ask command expects) ∨
        (∃ outcome, c'.stage = .ended outcome) ∨
          ∃ c now e s', d = .turn now n ∧ v.service.call? n = some c ∧
            KeyService.Move v.service now n c e c' s' := by
  cases d with
  | call request =>
    rcases (KeyService.call?_append v.service { request } n).mp hget with hold | ⟨-, rfl⟩
    · exact .inl hold
    · exact .inr (.inl ⟨request, rfl⟩)
  | start command =>
    simp only [Vault.act, Vault.start, KeyService.start] at hget
    split at hget
    case h_1 => exact .inl hget
    case h_2 =>
      rcases (KeyService.call?_append v.service _ n).mp hget with hold | ⟨-, rfl⟩
      · exact .inl hold
      · exact .inr (.inr (.inl ⟨_, _, rfl⟩))
  | turn now m =>
    simp only [Vault.act] at hget
    cases hstep : v.step? now m with
    | none => exact .inl (by simpa [hstep] using hget)
    | some v' =>
      simp only [hstep, Option.getD_some] at hget
      obtain ⟨c, hm, hturn⟩ := turn_cases hstep
      by_cases hmn : m = n
      · subst hmn
        rcases hturn.service_cases with hservice | ⟨e, hservice⟩
        · exact .inl (by rwa [hservice] at hget)
        · obtain ⟨c'', hmove, hm'⟩ := KeyService.step_cases hm now e
          rw [hservice] at hget
          obtain rfl := Option.some.inj (hm'.symm.trans hget)
          exact .inr (.inr (.inr (.inr ⟨c, now, e, _, rfl, hm, hmove⟩)))
      · exact .inl ((untouched_turn hm hmn hturn).call.symm.trans hget)
  | take m =>
    simp only [Vault.act] at hget
    rcases v.service.take_cases m with ⟨hservice, -⟩ | ⟨c, outcome, hm, hended, hservice | hservice⟩
    · exact .inl (by rwa [hservice] at hget)
    · exact .inl (by rwa [hservice] at hget)
    · rw [hservice] at hget
      by_cases hmn : m = n
      · subst hmn
        obtain rfl := Option.some.inj ((KeyService.call?_put hm _).symm.trans hget)
        exact .inr (.inr (.inr (.inl ⟨_, hended⟩)))
      · exact .inl (by rwa [KeyService.call?_put_of_ne _ _ hmn] at hget)
  | drop m =>
    simp only [Vault.act] at hget
    by_cases hmn : m = n
    · subst hmn
      rcases v.service.abandon_cases m with hservice | ⟨c, hm, -, hservice⟩
      · exact .inl (by rwa [hservice] at hget)
      · rw [hservice] at hget
        obtain rfl := KeyService.ended_of_finish
          (s := { v.service with waiting := v.service.waiting.erase m }) hm hget
        exact .inr (.inr (.inr (.inl ⟨_, rfl⟩)))
    · exact .inl ((KeyService.call?_abandon_of_ne hmn).symm.trans hget)

/-- An erase that waits after a deed has just noted the master key, or has waited before. -/
theorem waits_act (hget : (v.act d).service.call? n = some c') (hwaits : c'.stage.waits = true)
    (hrequest : c'.request = .erase) :
    ∃ c, v.service.call? n = some c ∧
      ((c.stage = .entering ∧ (∃ now, d = .turn now n) ∧ c'.authority = v.service.masterKey) ∨
        (c.stage.waits = true ∧ c.request = .erase ∧ c'.authority = c.authority)) := by
  rcases call?_act_cases hget with hold | ⟨request, rfl⟩ | ⟨command, expects, hask⟩ |
    ⟨outcome, hended⟩ | ⟨c, now, e, s', rfl, hc, hmove⟩
  · exact ⟨c', hold, .inr ⟨hwaits, hrequest, rfl⟩⟩
  · cases hwaits
  · cases hask.symm.trans hrequest
  · rw [hended] at hwaits
    cases hwaits
  · have hasked : c.request = .erase := hmove.request_eq.symm.trans hrequest
    rcases hmove.waits_cases hwaits with ⟨hstage, hnoted⟩ | ⟨hwaited, hkept⟩
    · exact ⟨c, hc, .inl ⟨hstage, ⟨now, rfl⟩, hnoted⟩⟩
    · exact ⟨c, hc, .inr ⟨hwaited, hasked, hkept⟩⟩

/-- The turn in which a call starts. -/
def StartsAt (v : Vault) (deeds : Nat → VaultDeed) (n i : Nat) : Prop :=
  ∃ c now, (v.after deeds i).service.call? n = some c ∧ c.stage = .entering ∧
    deeds i = .turn now n

/-- An erase that was made during a run, and waits or has the token, has noted the master key of the
moment in which it started. -/
theorem started_before (hnew : v.service.calls.length ≤ n)
    (hget : (v.after deeds k).service.call? n = some c) (hwaits : c.stage.waits = true)
    (hrequest : c.request = .erase) :
    ∃ i, i < k ∧ v.StartsAt deeds n i ∧
      c.authority = (v.after deeds i).service.masterKey := by
  induction k generalizing c with
  | zero =>
    have hlt := KeyService.lt_of_call? (s := v.service) hget
    omega
  | succ k ih =>
    obtain ⟨c₀, hget₀, ⟨hstage, ⟨now, hturn⟩, hnoted⟩ | ⟨hwaited, hasked, hkept⟩⟩ :=
      waits_act hget hwaits hrequest
    · exact ⟨k, Nat.lt_succ_self k, ⟨c₀, now, hget₀, hstage, hturn⟩, hnoted⟩
    · obtain ⟨i, hi, hstarts, hnoted⟩ := ih hget₀ hwaited hasked
      exact ⟨i, hi.trans (Nat.lt_succ_self k), hstarts, hkept.trans hnoted⟩

/-! ## While the call has the token -/

/-- Nobody else touches the element or the notes while a call has the token and uses it. -/
theorem held_act (h : v.Mirrored) (hget : v.service.call? n = some c)
    (hactive : c.stage.active = true) (hlawful : d.lawful) (hturn : ∀ now, d ≠ .turn now n) :
    (v.act d).device = v.device ∧ (v.act d).service.notes = v.service.notes := by
  cases d with
  | call request => exact ⟨rfl, rfl⟩
  | start command =>
    simp only [Vault.act, Vault.start, KeyService.start]
    split <;> exact ⟨rfl, rfl⟩
  | turn now m =>
    simp only [Vault.act]
    cases hstep : v.step? now m with
    | none => exact ⟨rfl, rfl⟩
    | some v' =>
      obtain ⟨c', hm, hturn'⟩ := turn_cases hstep
      have hidle (hactive' : c'.stage.active = true) : False := by
        obtain rfl := h.coherent.orderly.eq_of_active hget hm hactive hactive'
        exact hturn now rfl
      cases hturn' with
      | @go e hevent =>
        have hquiet (r : Response) : e ≠ .answer (.ok r) := by
          rintro rfl
          rcases hevent with hevent | hevent <;> cases hevent
        exact ⟨rfl, KeyService.notes_step h.coherent hm (h.lawful m c' hm)
          ⟨fun _ _ _ => hquiet, fun _ _ => hquiet⟩⟩
      | cancel hstage => exact (hidle (by rw [hstage]; rfl)).elim
      | invoke hcommand => exact (hidle (CallStage.active_of_command? hcommand)).elim
      | complete hcommand => exact (hidle (CallStage.active_of_command? hcommand)).elim
      | expire hcommand => exact (hidle (CallStage.active_of_command? hcommand)).elim
  | take m =>
    have haside : KeyService.Aside v.service (v.service.act (.take m)) :=
      KeyService.aside_act (by simp)
    exact ⟨rfl, haside.notes⟩
  | drop m =>
    have haside : KeyService.Aside v.service (v.service.act (.drop m)) :=
      KeyService.aside_act (by simp)
    exact ⟨rfl, haside.notes⟩

/-- How far an erase has come since it got the token, in the state `w`. -/
structure Erasing (w v : Vault) (n : Nat) (authority : Key) (c : KeyCall) : Prop where
  get : v.service.call? n = some c
  request : c.request = .erase
  noted : c.authority = authority
  active : c.stage.active = true
  prompt : c.stage ≠ .cancelling
  slots : v.device.element.slots = w.device.element.slots
  plainKey : v.device.element.plainKey = w.device.element.plainKey
  notes : v.service.notes = w.service.notes
  /-- The answer to the challenge is made with the key that was noted. -/
  proof : ∀ proof, c.stage = .authorizing proof → ∃ challenge,
    v.device.element.challenge = some challenge ∧
      proof = Element.debugProof authority challenge v.device.element.identity

theorem Erasing.running (h : Erasing w v n authority c) : v.outcome? n = none := by
  rw [outcome?_of_call? h.get]
  have hactive := h.active
  cases hstage : c.stage with
  | ended outcome => simp [hstage, CallStage.active] at hactive
  | _ => simp [KeyCall.outcome?, hstage]

/-- How an erase ends. -/
inductive EraseEnd (w v' : Vault) (authority : Key) (challenge : Block) : KeyOutcome → Prop where
  /-- All keys are erased. -/
  | erased (hright : Element.debugProof authority challenge w.device.element.identity =
        Element.debugProof (w.device.element.authorityKey .master) challenge
          w.device.element.identity)
      (hslots : v'.device.element.slots = ∅) (hplainKey : v'.device.element.plainKey = none)
      (hnotes : v'.service.notes = ∅) : EraseEnd w v' authority challenge (.ok .done)
  /-- The answer to the challenge is wrong. -/
  | refused (hwrong : Element.debugProof authority challenge w.device.element.identity ≠
        Element.debugProof (w.device.element.authorityKey .master) challenge
          w.device.element.identity)
      (hsame : SameKeys w v') : EraseEnd w v' authority challenge (.error (.element .noDebugging))

/-- What a turn of an erase does: it goes on, or it ends. -/
inductive EraseTurn (w v' : Vault) (n : Nat) (authority : Key) : Prop where
  | goesOn {c' : KeyCall} (herasing : Erasing w v' n authority c')
  | ends {challenge : Block} {outcome : KeyOutcome} (houtcome : v'.outcome? n = some outcome)
      (hend : EraseEnd w v' authority challenge outcome)

/-- The call has been put into another stage, in which it still has the token. -/
theorem Erasing.put (h : Erasing w v n authority c) {stage : CallStage}
    (hget : v'.service.call? n = some { c with stage }) (hactive : stage.active = true)
    (hprompt : stage ≠ .cancelling) (hslots : v'.device.element.slots = v.device.element.slots)
    (hplainKey : v'.device.element.plainKey = v.device.element.plainKey)
    (hnotes : v'.service.notes = v.service.notes)
    (hproof : ∀ proof, stage = .authorizing proof → ∃ challenge,
      v'.device.element.challenge = some challenge ∧
        proof = Element.debugProof authority challenge v'.device.element.identity) :
    EraseTurn w v' n authority :=
  .goesOn ⟨hget, h.request, h.noted, hactive, hprompt, hslots.trans h.slots,
    hplainKey.trans h.plainKey, hnotes.trans h.notes, hproof⟩

/-- The element's identity is known, and the element is to be asked for a challenge. -/
theorem Erasing.proceed (h : Erasing w v n authority c) {s : KeyService}
    (hcalls : s.calls = v.service.calls) (hnotes : s.notes = v.service.notes) (element : ElementId)
    (helement : v'.device.element = v.device.element)
    (hservice : v'.service = s.proceed n c element) : EraseTurn w v' n authority := by
  have hget : s.call? n = some c := by
    rw [KeyService.call?, hcalls]
    exact h.get
  rw [KeyService.proceed_erase s n element h.request] at hservice
  have hput : v'.service.call? n = some { c with stage := .challenging element } := by
    rw [hservice]
    exact KeyService.call?_put hget _
  refine h.put hput rfl (by simp) (by rw [helement]) (by rw [helement]) ?_ (by simp)
  rw [hservice]
  exact hnotes

/-- The call uses the token for the first time. -/
theorem Erasing.use (h : Erasing w v n authority c) (hstage : c.stage = .granted)
    (hstep : v.step? now n = some v') : EraseTurn w v' n authority := by
  simp only [step?, h.get, Option.bind_eq_bind, Option.bind_some, hstage, KeyService.step,
    KeyService.stepCall, Option.some.injEq] at hstep
  subst hstep
  have huse := KeyService.useToken_erase v.service n h.request
  cases hidentity : v.service.identity with
  | some element =>
    simp only [hidentity] at huse
    exact h.proceed rfl rfl element rfl huse
  | none =>
    simp only [hidentity] at huse
    rw [huse]
    exact h.put (KeyService.call?_put h.get _) rfl (by simp) rfl rfl rfl (by simp)

/-- The element has judged the answer to its challenge. -/
theorem Erasing.authorized (h : Erasing w v n authority c)
    (hidentity : v.device.element.identity = w.device.element.identity)
    (herasable : w.device.element.Erasable) {proof : Block}
    (hstage : c.stage = .authorizing proof) :
    EraseTurn w (v.answered now n (.debugAuthorize proof)) n authority := by
  obtain ⟨challenge, hchallenge, rfl⟩ := h.proof proof hstage
  have hmaster : v.device.element.authorityKey .master = w.device.element.authorityKey .master := by
    simp only [Element.authorityKey, h.slots]
  have hauthorize := Element.authorize_eq hchallenge (by rwa [Element.Erasable, h.slots])
    (Element.debugProof authority challenge v.device.element.identity)
  have hcommand := congrArg CallStage.command? hstage
  rw [hidentity] at hstage hcommand
  rw [hmaster, hidentity] at hauthorize
  rw [hidentity]
  by_cases hright : Element.debugProof (w.device.element.authorityKey .master) challenge
      w.device.element.identity = Element.debugProof authority challenge w.device.element.identity
  · rw [if_pos hright] at hauthorize
    simp only [Vault.answered, Element.execute, hauthorize,
      KeyService.step_of_erased h.get hstage]
    refine .ends (show _ = some (.ok .done) from ?_)
      (.erased hright.symm rfl rfl (KeyService.notes_finish _ _ _ _))
    rw [Vault.outcome?, KeyService.call?_finish (by exact h.get)]
    rfl
  · rw [if_neg hright] at hauthorize
    simp only [Vault.answered, Element.execute, hauthorize,
      KeyService.step_of_fault now h.get hcommand]
    refine .ends (show _ = some (.error (.element .noDebugging)) from ?_)
      (.refused (fun hsame => hright hsame.symm) (sameKeys_of_eq h.slots h.plainKey ?_))
    · rw [Vault.outcome?, KeyService.call?_finish h.get]
      rfl
    · exact (KeyService.notes_finish _ _ _ _).trans h.notes

/-- What a turn of an erase does that has the token, if the element is fast enough. -/
theorem Erasing.turn (hfaithful : v.Faithful) (h : Erasing w v n authority c)
    (hmake : SameMake w v) (hprompt : w.device.latency ≤ w.service.timeout)
    (herasable : w.device.element.Erasable) (hstep : v.step? now n = some v') :
    EraseTurn w v' n authority := by
  have hbrings := hfaithful.coherent.brings n c h.get
  have hcommanded (command : Command) (hcommand : c.stage.command? = some command)
      (hanswered : EraseTurn w (v.answered now n command) n authority) :
      EraseTurn w v' n authority := by
    cases commanded_cases hfaithful h.get hcommand hstep with
    | given => exact .goesOn ⟨h.get, h.request, h.noted, h.active, h.prompt, h.slots, h.plainKey,
        h.notes, h.proof⟩
    | answered => exact hanswered
    | late hlate =>
      rw [hmake.timeout, hmake.latency] at hlate
      omega
  cases hstage : c.stage with
  | granted => exact h.use hstage hstep
  | naming =>
    refine hcommanded _ (congrArg CallStage.command? hstage) ?_
    exact h.proceed (s := { v.service with identity := some v.device.element.identity }) rfl rfl
      v.device.element.identity rfl (KeyService.step_of_identity now h.get hstage _ _)
  | challenging element =>
    rw [hstage] at hbrings
    obtain rfl := hfaithful.identity element hbrings.1
    refine hcommanded _ (congrArg CallStage.command? hstage) ?_
    let challenge := v.device.element.entropy v.device.element.drawn
    have hservice := KeyService.step_of_challenge now h.get hstage challenge
    have hput : (v.answered now n .debugChallenge).service.call? n = some { c with
        stage := .authorizing
          (Element.debugProof c.authority challenge v.device.element.identity) } := by
      simp only [Vault.answered, Element.execute, challenge, hservice]
      exact KeyService.call?_put h.get _
    refine h.put hput rfl (by simp) rfl rfl ?_ ?_
    · simp only [Vault.answered, Element.execute, challenge, hservice]
      rfl
    · rintro proof ⟨⟩
      exact ⟨_, rfl, by rw [h.noted]; rfl⟩
  | authorizing proof =>
    exact hcommanded _ (congrArg CallStage.command? hstage)
      (h.authorized hmake.identity herasable hstage)
  | asking | loading =>
    -- An erase gives no such command.
    rw [hstage] at hbrings
    simp [KeyService.Brings, KeyCall.load?, h.request] at hbrings
  | cancelling => exact absurd hstage h.prompt
  | entering | queued | ended =>
    have hactive := h.active
    simp [hstage, CallStage.active] at hactive

/-! ## The whole run -/

theorem Mirrored.after (h : v.Mirrored) (hlawful : ∀ i, (deeds i).lawful) (k : Nat) :
    (v.after deeds k).Mirrored := by
  induction k with
  | zero => exact h
  | succ k ih => exact ih.act (deeds k) (hlawful k)

/-- From the moment in which it has the token on, an erase is on its way until it ends. -/
theorem erasing_after (hmirrored : v.Mirrored) (hfaithful : v.Faithful)
    (hprompt : v.device.latency ≤ v.service.timeout) (hlawful : ∀ i, (deeds i).lawful)
    (hkept : ∀ i, deeds i ≠ .drop n) (herasable : (v.after deeds k).device.element.Erasable)
    (hstart : Erasing (v.after deeds k) (v.after deeds k) n authority c) {j : Nat}
    {outcome : KeyOutcome} (hends : v.EndsIn deeds n k j outcome) (i : Nat) (hki : k ≤ i)
    (hij : i ≤ j) : ∃ c', Erasing (v.after deeds k) (v.after deeds i) n authority c' := by
  have hk := hfaithful.sameMake_after deeds k
  refine hends.induction (Q := fun w => ∃ c', Erasing (v.after deeds k) w n authority c')
    ⟨c, hstart⟩ ?_ ?_ i hki hij
  · rintro i now v' ⟨c', h⟩ hstep
    have hi := hfaithful.sameMake_after deeds i
    cases h.turn (hfaithful.after deeds i) (hi.since hk) (by rwa [hk.latency, hk.timeout])
      herasable hstep with
    | goesOn herasing => exact .inl ⟨_, herasing⟩
    | ends houtcome => exact .inr ⟨_, houtcome⟩
  · rintro i ⟨c', h⟩ hrunning hother
    have hopen : c'.outcome? = none := (outcome?_of_call? h.get).symm.trans hrunning
    have hsame := untouched_act h.get hopen hother (hkept i)
    obtain ⟨hdevice, hnotes⟩ := held_act (hmirrored.after hlawful i) h.get h.active (hlawful i)
      hother
    refine ⟨c', hsame.call.trans h.get, h.request, h.noted, h.active, h.prompt, ?_, ?_,
      hnotes.trans h.notes, ?_⟩
    · exact (congrArg (·.element.slots) hdevice).trans h.slots
    · exact (congrArg (·.element.plainKey) hdevice).trans h.plainKey
    · have hnext : (v.after deeds (i + 1)).device = (v.after deeds i).device := hdevice
      rw [hnext]
      exact h.proof

/-- What an erase has done that got the token in the state `w` and ended in `w'`, with the master
key that it noted at its start and a challenge of the element. -/
structure EraseSettled (w w' : Vault) (noted : Key) (challenge : Block) (outcome : KeyOutcome) :
    Prop where
  done_iff : outcome = .ok .done ↔
    Element.debugProof noted challenge w.device.element.identity =
      Element.debugProof (w.device.element.authorityKey .master) challenge
        w.device.element.identity
  erased : outcome = .ok .done → w'.device.element.plainKey = none ∧ ∀ slot,
    w'.device.element.slots.get? slot = none ∧ w'.service.notes.get? slot = none
  refused : outcome ≠ .ok .done → outcome = .error (.element .noDebugging) ∧ SameKeys w w'

theorem EraseEnd.settled {challenge : Block} (h : EraseEnd w v' authority challenge outcome) :
    EraseSettled w v' authority challenge outcome := by
  cases h with
  | erased hright hslots hplainKey hnotes =>
    refine ⟨iff_of_true rfl hright, fun _ => ⟨hplainKey, fun slot => ?_⟩, fun h => absurd rfl h⟩
    rw [hslots, hnotes]
    exact ⟨rfl, rfl⟩
  | refused hwrong hsame =>
    exact ⟨iff_of_false (by simp) hwrong, by simp, fun _ => ⟨rfl, hsame⟩⟩

/-- An erase that gets the token ends, and nobody changes a key meanwhile.  It succeeds exactly if
the key that it noted at its start answers the challenge as the present master key does, so always
if the master key is the same, and then no key is left; else everything is as before. -/
theorem erase_settled (hmirrored : v.Mirrored) (hfaithful : v.Faithful)
    (hprompt : v.device.latency ≤ v.service.timeout) (hlawful : ∀ i, (deeds i).lawful)
    (hnew : v.service.calls.length ≤ n) (hserved : Served deeds n) (hkept : ∀ i, deeds i ≠ .drop n)
    (hget : (v.after deeds k).service.call? n = some c) (hrequest : c.request = .erase)
    (hgranted : c.stage = .granted) (herasable : (v.after deeds k).device.element.Erasable) :
    ∃ i j outcome challenge, i < k ∧ v.StartsAt deeds n i ∧ v.EndsIn deeds n k j outcome ∧
      (∀ l, k ≤ l → l ≤ j → SameKeys (v.after deeds k) (v.after deeds l)) ∧
      EraseSettled (v.after deeds k) (v.after deeds (j + 1))
        ((v.after deeds i).device.element.authorityKey .master) challenge outcome := by
  obtain ⟨i, hik, hstarts, hnoted⟩ := started_before hnew hget (by rw [hgranted]; rfl) hrequest
  rw [KeyService.masterKey_eq_of_agrees ((hmirrored.after hlawful i).agrees .master)] at hnoted
  have hstart : Erasing (v.after deeds k) (v.after deeds k) n c.authority c :=
    ⟨hget, hrequest, rfl, by rw [hgranted]; rfl, by simp [hgranted], rfl, rfl, rfl,
      by simp [hgranted]⟩
  obtain ⟨j, outcome, hends⟩ :=
    exists_endsIn hserved hkept hget (by simp [KeyCall.outcome?, hgranted])
  have hthrough := erasing_after hmirrored hfaithful hprompt hlawful hkept herasable hstart hends
  obtain ⟨c', herasing⟩ := hthrough j hends.later (Nat.le_refl j)
  obtain ⟨now, -, hstep⟩ := hends.turn
  have hk := hfaithful.sameMake_after deeds k
  cases herasing.turn (hfaithful.after deeds j) ((hfaithful.sameMake_after deeds j).since hk)
    (by rwa [hk.latency, hk.timeout]) herasable hstep with
  | goesOn hmore => cases hends.told.symm.trans hmore.running
  | @ends challenge outcome' houtcome hend =>
    obtain rfl := Option.some.inj (hends.told.symm.trans houtcome)
    refine ⟨i, j, outcome, challenge, hik, hstarts, hends, ?_, hnoted ▸ hend.settled⟩
    intro l hkl hlj
    obtain ⟨d, hd⟩ := hthrough l hkl hlj
    exact sameKeys_of_eq hd.slots hd.plainKey hd.notes

/-! ## A vault with a master key -/

/-- A vault that holds a master key and has not been used since. -/
def keyedVault : Vault where
  service :=
    { timeout := 8
      notes := Dictionary.insert ∅ .master ⟨1, some Element.guardedMaster⟩ }
  device :=
    { element :=
        { identity := Element.guardedIdentity
          slots := Dictionary.insert ∅ .master ⟨Element.guardedMaster, 1, {}⟩
          entropy := fun _ => Block.zero }
      latency := 2 }

theorem keyedVault_agrees (slot : KeySlot) :
    keyedVault.service.Agrees keyedVault.device.element slot := by
  by_cases hslot : slot = .master
  · subst hslot
    exact .inr ⟨Element.guardedMaster, 1, {}, rfl, rfl⟩
  · refine .inl ⟨?_, ?_⟩
    · exact (Dictionary.get?_insert_of_ne ∅ hslot _).trans rfl
    · exact (Dictionary.get?_insert_of_ne ∅ hslot _).trans rfl

theorem orderly_keyedVault : keyedVault.service.Orderly := by
  refine ⟨?_, ?_, ?_, List.nodup_nil⟩
  · rintro _ _ ⟨⟩
  · rintro _ ⟨⟩
  · rintro _ ⟨⟩

theorem coherent_keyedVault : keyedVault.service.Coherent :=
  ⟨orderly_keyedVault, fun _ _ hget => nomatch hget⟩

theorem mirrored_keyedVault : keyedVault.Mirrored := by
  refine ⟨coherent_keyedVault, ?_, rfl, ?_, ?_, ?_, keyedVault_agrees, ?_⟩
  · rintro _ _ ⟨⟩
  · rintro _ _ ⟨⟩
  · rintro _ ⟨⟩
  · rintro _ _ ⟨⟩
  · rintro _ _ ⟨⟩

theorem faithful_keyedVault : keyedVault.Faithful := by
  refine ⟨coherent_keyedVault, ⟨fun _ => rfl, ?_⟩, rfl, ?_, ?_, ?_⟩
  · rintro _ _ _ ⟨⟩
  · rintro _ _ ⟨⟩
  · rintro _ _ ⟨⟩
  · rintro _ ⟨⟩

/-- The only caller has all keys erased. -/
def loneErase : Nat → VaultDeed
  | 0 => .call .erase
  | i + 1 => .turn i 0

theorem lone_erase_done :
    keyedVault.Mirrored ∧ keyedVault.Faithful ∧
      keyedVault.device.latency ≤ keyedVault.service.timeout ∧ (∀ i, (loneErase i).lawful) ∧
      keyedVault.service.calls.length ≤ 0 ∧ Served loneErase 0 ∧ (∀ i, loneErase i ≠ .drop 0) ∧
      (∃ c, (keyedVault.after loneErase 2).service.call? 0 = some c ∧ c.request = .erase ∧
        c.stage = .granted) ∧
      (keyedVault.after loneErase 2).device.element.Erasable ∧
      ∃ j, keyedVault.EndsIn loneErase 0 2 j (.ok .done) ∧
        ∀ slot, (keyedVault.after loneErase (j + 1)).device.element.slots.get? slot = none := by
  have hlawful (i : Nat) : (loneErase i).lawful := by cases i <;> rfl
  have hkept (i : Nat) : loneErase i ≠ .drop 0 := by cases i <;> simp [loneErase]
  have hserved : Served loneErase 0 := by
    intro k time
    exact ⟨max k time + 1, max k time, by omega, Nat.le_max_right k time, rfl⟩
  have herasable : (keyedVault.after loneErase 2).device.element.Erasable := by
    unfold Element.Erasable
    decide
  refine ⟨mirrored_keyedVault, faithful_keyedVault, by decide, hlawful, Nat.le_refl 0, hserved,
    hkept, ⟨_, rfl, rfl, rfl⟩, herasable, ?_⟩
  obtain ⟨i, j, outcome, challenge, hi, -, hends, -, hsettled⟩ := erase_settled mirrored_keyedVault
    faithful_keyedVault (by decide) hlawful (Nat.le_refl 0) hserved hkept rfl rfl rfl herasable
  -- The master key has been the same since the start.
  have hmaster : (keyedVault.after loneErase i).device.element.authorityKey .master =
      (keyedVault.after loneErase 2).device.element.authorityKey .master := by
    have hcases : i = 0 ∨ i = 1 := by omega
    rcases hcases with rfl | rfl <;> rfl
  obtain rfl := hsettled.done_iff.mpr (by rw [hmaster])
  exact ⟨j, hends, fun slot => ((hsettled.erased rfl).2 slot).1⟩

/-! ## An erase that is overtaken -/

/-- An erase waits for the token while the master key is replaced, up to the order to the
element. -/
def overtaking : List VaultDeed :=
  [.call (.setMaster Element.userKey), .call .erase, .turn 0 0, .turn 0 1, .turn 0 0, .turn 0 0,
    .turn 2 0, .turn 2 0]

/-- The turns of the erase, from the moment in which it has the token. -/
def overtakenTurns : List VaultDeed :=
  [.turn 4 1, .turn 4 1, .turn 6 1, .turn 6 1]

/-- The order to replace the master key. -/
def overtakingOrder : KeyOrder :=
  .signed Element.guardedMaster (KeyOrder.pack Element.guardedIdentity 1 1)
    ⟨2, {}, Element.userKey⟩

/-- The call that replaces the master key. -/
def overtaker : KeyCall where
  request := .setMaster Element.userKey
  stage := .loading Element.guardedIdentity overtakingOrder
  counter := 2
  authority := Element.guardedMaster

theorem call?_overtaker : (keyedVault.actAll overtaking).service.call? 0 = some overtaker := rfl

/-- The vault with its new master key. -/
def rekeyedVault : Vault where
  service :=
    { (keyedVault.actAll overtaking).service with
      notes := keyedVault.service.notes.insert .master ⟨2, some Element.userKey⟩ }.finish 0
        overtaker (.ok (.counter 2))
  device :=
    { keyedVault.device with
      element :=
        { keyedVault.device.element with
          slots := keyedVault.device.element.slots.insert .master ⟨Element.userKey, 2, {}⟩ } }
  underWay := (keyedVault.actAll overtaking).underWay.erase 0

theorem keyedVault_loadable : keyedVault.device.element.Loadable .master 2 := by
  have hmaster (stored : StoredKey)
      (hstored : keyedVault.device.element.slots.get? .master = some stored) :
      stored = ⟨Element.guardedMaster, 1, {}⟩ :=
    (Option.some.inj hstored).symm
  refine ⟨.inl rfl, by decide, ?_, .inl rfl, ?_⟩
  · intro stored hstored
    rw [hmaster stored hstored]
    exact Nat.lt_succ_self 1
  · intro stored hstored
    rw [hmaster stored hstored]

/-- The element stores the new master key. -/
theorem actAll_overtaking : keyedVault.actAll (overtaking ++ [.turn 4 0]) = rekeyedVault := by
  have hmake : KeyOrder.make (keyedVault.device.element.authorityKey .master) .master .master
      Element.userKey 2 {} keyedVault.device.element.identity = .ok overtakingOrder := rfl
  obtain ⟨receipt, hreceipt, hloaded⟩ := Element.load_of_loadable keyedVault_loadable hmake
  have hstep : (keyedVault.actAll overtaking).step? 4 0 =
      some ((keyedVault.actAll overtaking).complete 4 0 ⟨.loadKey overtakingOrder, 4, 10, none⟩) :=
    rfl
  have helement : (keyedVault.actAll overtaking).device.element = keyedVault.device.element := rfl
  rw [actAll_append, actAll_turn hstep, complete_eq_answered 4 rfl]
  simp only [Vault.answered, Element.execute, helement, hloaded]
  rw [KeyService.step_of_receipt call?_overtaker rfl rfl hreceipt rfl]
  rfl

/-- The answer of the erase to the challenge, made with the old master key. -/
def overtakenProof : Block :=
  Element.debugProof Element.guardedMaster Block.zero Element.guardedIdentity

/-- The erase, when it has answered the challenge. -/
def overtaken : KeyCall where
  request := .erase
  stage := .authorizing overtakenProof
  counter := 2
  authority := Element.guardedMaster

theorem call?_overtaken :
    (rekeyedVault.actAll (.turn 4 1 :: overtakenTurns)).service.call? 1 = some overtaken := rfl

/-- The two master keys answer the challenge differently. -/
theorem overtakenProof_wrong :
    Element.debugProof Element.userKey Block.zero Element.guardedIdentity ≠ overtakenProof := by
  have habsorb : Mac.absorb =
      fun key x b => ((Aes.columns (x ^^^ b)).encrypt (Aes.columns key)).block := by
    funext key x b
    exact Aes.encrypt_eq_columns key (x ^^^ b)
  simp only [overtakenProof, Element.debugProof, Mac.tag, Mac.masked, Mac.restMask, Mac.wholeMask,
    habsorb, Derivation.derive, Derivation.compressBlocks, Derivation.absorb, List.foldl_cons,
    List.foldl_nil, Aes.encrypt_eq_columns]
  decide +kernel

/-- What happens up to the moment in which the erase has the token. -/
def overtakenStart : List VaultDeed :=
  overtaking ++ [.turn 4 0, .turn 4 1]

/-- What happens up to the end of the erase. -/
def overtakenErase : List VaultDeed :=
  overtakenStart ++ overtakenTurns ++ [.turn 8 1]

theorem actAll_overtakenStart :
    keyedVault.actAll overtakenStart = rekeyedVault.actAll [.turn 4 1] := by
  rw [← actAll_overtaking, ← actAll_append]
  rfl

/-- The element refuses the answer. -/
theorem actAll_overtakenErase : keyedVault.actAll overtakenErase =
    (rekeyedVault.actAll (.turn 4 1 :: overtakenTurns)).answered 8 1
      (.debugAuthorize overtakenProof) := by
  have hstep : (rekeyedVault.actAll (.turn 4 1 :: overtakenTurns)).step? 8 1 =
      some ((rekeyedVault.actAll (.turn 4 1 :: overtakenTurns)).complete 8 1
        ⟨.debugAuthorize overtakenProof, 8, 14, none⟩) := rfl
  have hturns : (rekeyedVault.actAll [.turn 4 1]).actAll overtakenTurns =
      rekeyedVault.actAll (.turn 4 1 :: overtakenTurns) :=
    (actAll_append rekeyedVault [.turn 4 1] overtakenTurns).symm
  rw [overtakenErase, actAll_append, actAll_append, actAll_overtakenStart, hturns,
    actAll_turn hstep, complete_eq_answered 8 rfl]

/-- A caller replaces the master key while an erase waits.  The erase gets the token and is answered
in time, but it uses the old master key, and is refused. -/
theorem overtaken_erase_refused :
    keyedVault.Mirrored ∧ keyedVault.Faithful ∧
      keyedVault.device.latency ≤ keyedVault.service.timeout ∧
      (∀ d ∈ overtakenErase, d.lawful) ∧
      (∃ c, (keyedVault.actAll overtakenStart).service.call? 1 = some c ∧ c.request = .erase ∧
        c.stage = .granted ∧ c.authority = Element.guardedMaster) ∧
      (keyedVault.actAll overtakenStart).device.element.slots =
        Dictionary.insert ∅ .master ⟨Element.userKey, 2, {}⟩ ∧
      (keyedVault.actAll overtakenErase).outcome? 1 = some (.error (.element .noDebugging)) ∧
      (keyedVault.actAll overtakenErase).device.element.slots =
        Dictionary.insert ∅ .master ⟨Element.userKey, 2, {}⟩ := by
  have hauthorize := Element.authorize_eq
    (show (rekeyedVault.actAll (.turn 4 1 :: overtakenTurns)).device.element.challenge =
      some Block.zero from rfl)
    (by unfold Element.Erasable; decide) overtakenProof
  have hmaster : (rekeyedVault.actAll (.turn 4 1 :: overtakenTurns)).device.element.authorityKey
      .master = Element.userKey := rfl
  have hidentity : (rekeyedVault.actAll (.turn 4 1 :: overtakenTurns)).device.element.identity =
      Element.guardedIdentity := rfl
  rw [hmaster, hidentity, if_neg overtakenProof_wrong] at hauthorize
  refine ⟨mirrored_keyedVault, faithful_keyedVault, by decide, by decide, ?_, ?_, ?_, ?_⟩
  · rw [actAll_overtakenStart]
    exact ⟨_, rfl, rfl, rfl, rfl⟩
  · rw [actAll_overtakenStart]
    rfl
  · rw [actAll_overtakenErase]
    simp only [Vault.answered, Element.execute, hauthorize]
    rw [KeyService.step_of_fault 8 call?_overtaken rfl, Vault.outcome?,
      KeyService.call?_finish call?_overtaken]
    rfl
  · rw [actAll_overtakenErase]
    simp only [Vault.answered, Element.execute, hauthorize]
    rfl

end Vault
end VehicleGateway
