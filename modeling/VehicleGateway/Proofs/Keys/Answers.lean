import VehicleGateway.Proofs.Keys.Encryption
import VehicleGateway.Proofs.Keys.VaultRun

/-!
# Who has answered

A caller that has a command passed on is told a response.  It comes from the element: the element
has executed that very command and answered it so, at a moment between the call and its end.  What
others do to the vault meanwhile does not matter.

* `Genuine` says that the element answers by itself.
* `Asks` says how far a call that passes a command on can have come, and what is under way for it.
* `Asks.act` says that whatever happens to a vault, the call keeps to that, and that a response that
  its caller is told after it and was not told before is what the element has just answered.
-/

namespace VehicleGateway

namespace KeyService

variable {s : KeyService}

/-- A call stays a call. -/
theorem length_step_le (s : KeyService) (now n : Nat) (e : KeyEvent) :
    s.calls.length ≤ (s.step now n e).calls.length := by
  rcases Nat.eq_zero_or_pos s.calls.length with hnone | hsome
  · omega
  -- The last call is there after the event, too.
  have hlast : s.calls.length - 1 < s.calls.length := by omega
  have hget : s.call? (s.calls.length - 1) = some s.calls[s.calls.length - 1] :=
    List.getElem?_eq_getElem hlast
  suffices hstill : ∃ c, (s.step now n e).call? (s.calls.length - 1) = some c by
    obtain ⟨c, hc⟩ := hstill
    have hlt := lt_of_call? hc
    omega
  cases hcall : s.call? n with
  | none => exact ⟨_, by simpa [step, hcall] using hget⟩
  | some c =>
    obtain ⟨c', hmove, hget'⟩ := step_cases hcall now e
    by_cases hn : n = s.calls.length - 1
    · exact ⟨c', by rwa [← hn]⟩
    · exact ⟨_, (hmove.call?_of_ne hn).trans hget⟩

/-- Another call than the one that is dropped stays as it is. -/
theorem call?_abandon_of_ne {n m : Nat} (h : n ≠ m) : (s.abandon n).call? m = s.call? m := by
  rcases abandon_cases s n with hsame | ⟨c, -, -, hsame⟩
  · rw [hsame]
  · rw [hsame]
    exact call?_finish_of_ne _ _ _ h

end KeyService

namespace Vault

/-- The element answers by itself, and nothing is under way for calls that were not made yet. -/
structure Genuine (v : Vault) : Prop where
  stands : v.device.stands = []
  fresh : ∀ n, v.service.calls.length ≤ n → v.underWay.get? n = none

/-- A call passes a command on to the element, or has done so. -/
def Asks (v : Vault) (n : Nat) (command : Command) (want : Want) : Prop :=
  ∃ call, v.service.call? n = some call ∧ call.request = .ask command want ∧
    match call.stage with
    | .entering | .queued _ | .granted => v.underWay.get? n = none
    | .asking passed _ => passed = command ∧
        ∀ i, v.underWay.get? n = some i → i.command = command ∧ i.stand = none
    | .cancelling | .ended _ => True
    | _ => False

/-- What a caller is told after a change, and was not told before, is what the element answers
then. -/
def Answered (v v' : Vault) (n : Nat) (command : Command) : Prop :=
  ∀ r, v'.outcome? n = some (.ok (.response r)) →
    v.outcome? n = some (.ok (.response r)) ∨ (v.device.element.execute command).2 = .ok r

variable {v v' : Vault} {now n m : Nat} {c : KeyCall} {command : Command} {want : Want}

theorem Asks.lt (h : v.Asks n command want) : n < v.service.calls.length := by
  obtain ⟨call, hget, -⟩ := h
  exact KeyService.lt_of_call? hget

/-- A call with a new number is about to pass its command on. -/
theorem Genuine.asks_addCall (h : v.Genuine) (command : Command) (want : Want) :
    (v.addCall (.ask command want)).Asks v.service.calls.length command want :=
  ⟨_, KeyService.call?_addCall _ _, rfl, h.fresh _ (Nat.le_refl _)⟩

theorem outcome?_addCall (v : Vault) (request : KeyRequest) :
    (v.addCall request).outcome? v.service.calls.length = none := by
  simp only [outcome?, addCall, KeyService.call?_addCall]
  rfl

/-! ## The call has its turn -/

theorem outcome?_of_call? (hget : v.service.call? n = some c) : v.outcome? n = c.outcome? := by
  simp [outcome?, hget]

/-- A change after which the call has no response to tell. -/
theorem answered_of_none (hnone : ∀ r, v'.outcome? n ≠ some (.ok (.response r))) :
    Answered v v' n command :=
  fun r hr => absurd hr (hnone r)

/-- The call is left in another stage, in which nothing is told. -/
theorem asks_of_call? {call : KeyCall} (hget : v'.service.call? n = some call)
    (hrequest : call.request = .ask command want)
    (hstage : match call.stage with
      | .entering | .queued _ | .granted => v'.underWay.get? n = none
      | .asking passed _ => passed = command ∧
          ∀ i, v'.underWay.get? n = some i → i.command = command ∧ i.stand = none
      | .cancelling | .ended (.error _) => True
      | _ => False) :
    v'.Asks n command want ∧ Answered v v' n command := by
  refine ⟨⟨call, hget, hrequest, ?_⟩, answered_of_none ?_⟩
  · split at hstage <;> simp_all
  · intro r
    rw [outcome?_of_call? hget, KeyCall.outcome?]
    split
    case h_1 outcome hended =>
      simp only [hended] at hstage
      cases outcome with
      | error fault => simp
      | ok answer => exact hstage.elim
    case h_2 => simp

/-- The turn of a call without the element. -/
theorem Asks.go {e : KeyEvent} (h : v.Asks n command want) (hget : v.service.call? n = some c)
    (hevent : e = .go ∨ e = .giveUp) (haway : c.stage.command? = none) :
    Asks { v with service := v.service.step now n e } n command want ∧
      Answered v { v with service := v.service.step now n e } n command := by
  have hsame : v.Asks n command want ∧ Answered v v n command := ⟨h, fun r hr => .inl hr⟩
  obtain ⟨call, hcall, hrequest, hstage⟩ := h
  obtain rfl := Option.some.inj (hget.symm.trans hcall)
  have hprompt := fun e : KeyEvent => (show v.service.step now n e = v.service.stepCall now n c e by
    simp only [KeyService.step, hget])
  cases hphase : c.stage with
  | entering =>
    simp only [hphase] at hstage
    rcases hevent with rfl | rfl
    · obtain ⟨started, hstarted, hasked, hwaits⟩ := call?_enter now hget hrequest
      simp only [hprompt, KeyService.stepCall, hphase]
      refine asks_of_call? hstarted hasked ?_
      rcases hwaits with hgranted | ⟨limit, hqueued⟩
      · simpa [hgranted] using hstage
      · simpa [hqueued] using hstage
    · simpa only [hprompt, KeyService.stepCall, hphase] using hsame
  | queued limit =>
    simp only [hphase] at hstage
    rcases hevent with rfl | rfl
    · simp only [hprompt, KeyService.stepCall, hphase]
      split
      case isTrue => exact asks_of_call? (KeyService.call?_put hget _) hrequest hstage
      case isFalse => exact hsame
    · simp only [hprompt, KeyService.stepCall, hphase]
      split
      case isTrue => exact hsame
      case isFalse =>
        exact asks_of_call? (KeyService.call?_finish (s := { v.service with
          waiting := v.service.waiting.erase n }) hget) hrequest trivial
  | granted =>
    simp only [hphase] at hstage
    rcases hevent with rfl | rfl
    · have huse : v.service.useToken n c =
          v.service.put n { c with stage := .asking command want } := by
        simp only [KeyService.useToken, hrequest]
      simp only [hprompt, KeyService.stepCall, hphase, huse]
      refine asks_of_call? (KeyService.call?_put hget _) hrequest ⟨rfl, ?_⟩
      intro i hi
      rw [hstage] at hi
      cases hi
    · simpa only [hprompt, KeyService.stepCall, hphase] using hsame
  | cancelling | ended outcome =>
    rcases hevent with rfl | rfl <;>
      simpa only [hprompt, KeyService.stepCall, hphase] using hsame
  | asking => simp [hphase, CallStage.command?] at haway
  | naming | loading | challenging | authorizing => simp [hphase] at hstage

/-- The element answers the call. -/
theorem Asks.complete {i : Invocation} (h : v.Asks n command want)
    (hget : v.service.call? n = some c) {given : Command} (hcommand : c.stage.command? = some given)
    (hunderWay : v.underWay.get? n = some i) :
    (v.complete now n i).Asks n command want ∧ Answered v (v.complete now n i) n command := by
  obtain ⟨call, hcall, hrequest, hstage⟩ := h
  obtain rfl := Option.some.inj (hget.symm.trans hcall)
  cases hphase : c.stage with
  | asking passed form =>
    simp only [hphase] at hstage
    obtain ⟨rfl, hright⟩ := hstage
    obtain ⟨rfl, hstand⟩ := hright i hunderWay
    simp only [Vault.complete, hstand]
    cases hresult : (v.device.element.execute i.command).2 with
    | error fault =>
      rw [KeyService.step_of_fault now hget hcommand]
      exact asks_of_call? (KeyService.call?_finish hget) hrequest trivial
    | ok r =>
      have hfits : v.service.step now n (.answer (.ok r)) =
          if form.fits r then v.service.finish n c (.ok (.response r))
          else v.service.finish n c (.error (.unexpected i.command.name)) := by
        simp [KeyService.step, hget, KeyService.stepCall, hphase, CallStage.command?,
          KeyService.respond]
      rw [hfits]
      split
      case isFalse => exact asks_of_call? (KeyService.call?_finish hget) hrequest trivial
      case isTrue =>
        have hended : (v.service.finish n c (.ok (.response r))).call? n =
            some { c with stage := .ended (.ok (.response r)) } := KeyService.call?_finish hget
        refine ⟨⟨_, hended, hrequest, trivial⟩, ?_⟩
        intro r' hr'
        rw [outcome?_of_call? hended] at hr'
        cases hr'
        exact .inr hresult
  | cancelling | ended => simp [hphase, CallStage.command?] at hcommand
  | entering | queued | granted => simp [hphase, CallStage.command?] at hcommand
  | naming | loading | challenging | authorizing => simp [hphase] at hstage

theorem Asks.turn (h : v.Asks n command want) (hgenuine : v.Genuine)
    (hget : v.service.call? n = some c) (hturn : Turn v now n c v') :
    v'.Asks n command want ∧ Answered v v' n command := by
  cases hturn with
  | go hevent haway => exact h.go hget hevent haway
  | complete hcommand hunderWay => exact h.complete hget hcommand hunderWay
  | cancel hcancelling =>
    obtain ⟨call, hcall, hrequest, -⟩ := h
    obtain rfl := Option.some.inj (hget.symm.trans hcall)
    have hservice : v.service.step now n .stopped =
        v.service.finish n c (.error (.timeout (v.service.timeout * 1000))) := by
      simp only [KeyService.step, hget, KeyService.stepCall, hcancelling]
    simp only [Vault.cancel, hservice]
    exact asks_of_call? (KeyService.call?_finish hget) hrequest trivial
  | invoke hcommand hidle =>
    obtain ⟨call, hcall, hrequest, hstage⟩ := h
    obtain rfl := Option.some.inj (hget.symm.trans hcall)
    have hstand (given : Command) : takeStand given.name v.device.stands = (none, []) := by
      rw [hgenuine.stands]
      rfl
    cases hphase : c.stage with
    | asking passed form =>
      rw [hphase] at hcommand
      obtain rfl := Option.some.inj hcommand
      simp only [hphase] at hstage
      obtain ⟨rfl, -⟩ := hstage
      simp only [Vault.invoke, hstand]
      refine asks_of_call? hget hrequest ?_
      simp only [hphase, true_and]
      intro i hi
      obtain rfl := Option.some.inj ((Dictionary.get?_insert_self _ _ _).symm.trans hi)
      exact ⟨rfl, rfl⟩
    | cancelling | ended => simp [hphase, CallStage.command?] at hcommand
    | entering | queued | granted => simp [hphase, CallStage.command?] at hcommand
    | naming | loading | challenging | authorizing => simp [hphase] at hstage
  | expire hcommand hunderWay =>
    obtain ⟨call, hcall, hrequest, -⟩ := h
    obtain rfl := Option.some.inj (hget.symm.trans hcall)
    have hservice : v.service.step now n .expire =
        v.service.put n { c with stage := .cancelling } := by
      have hnot : ¬ c.stage = .cancelling := by
        intro hcancelling
        simp [hcancelling, CallStage.command?] at hcommand
      cases hphase : c.stage <;>
        simp_all [KeyService.step, KeyService.stepCall, CallStage.command?]
    simp only [hservice]
    exact asks_of_call? (KeyService.call?_put hget _) hrequest trivial

/-! ## Whatever happens -/

theorem Untouched.asks (h : Untouched n v v') (hasks : v.Asks n command want) :
    v'.Asks n command want ∧ Answered v v' n command := by
  constructor
  · unfold Asks at hasks ⊢
    rw [h.call, h.underWay]
    exact hasks
  · intro r hr
    rw [outcome?, h.call] at hr
    exact .inl hr

/-- The turn of another call. -/
theorem untouched_turn {c : KeyCall} (hget : v.service.call? m = some c) (hne : m ≠ n)
    (hturn : Turn v now m c v') : Untouched n v v' := by
  have hevent (e : KeyEvent) : (v.service.step now m e).call? n = v.service.call? n := by
    obtain ⟨c', hmove, -⟩ := KeyService.step_cases hget now e
    exact hmove.call?_of_ne hne
  cases hturn with
  | go => exact ⟨hevent _, rfl⟩
  | cancel => exact ⟨hevent _, rfl⟩
  | invoke => exact ⟨rfl, Dictionary.get?_insert_of_ne _ (Ne.symm hne) _⟩
  | @complete _ i =>
    unfold Vault.complete
    dsimp only
    split <;> exact ⟨hevent _, Dictionary.get?_erase_of_ne _ (Ne.symm hne)⟩
  | expire => exact ⟨hevent _, Dictionary.get?_erase_of_ne _ (Ne.symm hne)⟩

/-- Whatever happens to a vault, a call that passes a command on keeps doing so, and its caller is
told no response that the element has not given to that command. -/
theorem Asks.act (h : v.Asks n command want) (hgenuine : v.Genuine) (d : VaultDeed) :
    (v.act d).Asks n command want ∧ Answered v (v.act d) n command := by
  have hsame : v.Asks n command want ∧ Answered v v n command := ⟨h, fun r hr => .inl hr⟩
  have hlt := h.lt
  cases d with
  | call request =>
    refine Untouched.asks ⟨?_, rfl⟩ h
    exact List.getElem?_append_left hlt
  | start command' =>
    simp only [Vault.act, Vault.start, KeyService.start]
    split
    case h_1 => exact hsame
    case h_2 =>
      refine Untouched.asks ⟨?_, rfl⟩ h
      exact List.getElem?_append_left hlt
  | turn now m =>
    simp only [Vault.act]
    cases hstep : v.step? now m with
    | none => exact hsame
    | some v' =>
      obtain ⟨c, hget, hturn⟩ := turn_cases hstep
      by_cases hm : m = n
      · subst hm
        exact h.turn hgenuine hget hturn
      · exact (untouched_turn hget hm hturn).asks h
  | take m =>
    simp only [Vault.act]
    rcases v.service.take_cases m with ⟨hservice, -⟩ | ⟨c, outcome, hget, hended, hservice⟩
    · rw [hservice]
      exact hsame
    · rcases hservice with hservice | hservice
      · rw [hservice]
        exact hsame
      · rw [hservice]
        by_cases hm : m = n
        · subst hm
          obtain ⟨call, hcall, hrequest, -⟩ := h
          obtain rfl := Option.some.inj (hget.symm.trans hcall)
          have hmarked := KeyService.call?_put hget { c with taken := true }
          refine ⟨⟨_, hmarked, hrequest, by simp [hended]⟩, ?_⟩
          intro r hr
          rw [outcome?_of_call? hmarked] at hr
          exact .inl ((outcome?_of_call? hget).trans hr)
        · exact Untouched.asks ⟨KeyService.call?_put_of_ne _ _ hm, rfl⟩ h
  | drop m =>
    simp only [Vault.act]
    by_cases hm : m = n
    · subst hm
      rcases v.service.abandon_cases m with hservice | ⟨c, hget, -, hservice⟩
      · rw [hservice]
        exact hsame
      · rw [hservice]
        obtain ⟨call, hcall, hrequest, -⟩ := h
        obtain rfl := Option.some.inj (hget.symm.trans hcall)
        exact asks_of_call? (KeyService.call?_finish (s := { v.service with
          waiting := v.service.waiting.erase m }) hget) hrequest trivial
    · exact Untouched.asks ⟨KeyService.call?_abandon_of_ne hm, rfl⟩ h

/-! ## Genuine vaults -/

theorem genuine_fresh (timeout : Nat) (identity : ElementId) (entropy : Nat → Block)
    (latency : Nat) : (fresh timeout identity entropy latency).Genuine :=
  ⟨rfl, fun _ _ => rfl⟩

theorem Genuine.turn (h : v.Genuine) (hget : v.service.call? n = some c)
    (hturn : Turn v now n c v') : v'.Genuine := by
  have hlt := KeyService.lt_of_call? hget
  have hevent (e : KeyEvent) (underWay : Dictionary Nat Invocation) (element : Element)
      (cancels : Nat) (hunderWay : ∀ m, n ≠ m → underWay.get? m = v.underWay.get? m) :
      Genuine {
        service := v.service.step now n e
        device := { v.device with element, cancels }
        underWay } := by
    refine ⟨h.stands, ?_⟩
    intro m hm
    have hlength := v.service.length_step_le now n e
    have hne : n ≠ m := by
      rintro rfl
      dsimp only at hm
      omega
    rw [hunderWay m hne]
    exact h.fresh m (hlength.trans hm)
  have herased (m : Nat) (hm : n ≠ m) : (v.underWay.erase n).get? m = v.underWay.get? m :=
    Dictionary.get?_erase_of_ne _ (Ne.symm hm)
  cases hturn with
  | go => exact hevent _ v.underWay v.device.element v.device.cancels fun _ _ => rfl
  | cancel =>
    exact hevent .stopped v.underWay v.device.element.cancel (v.device.cancels + 1) fun _ _ => rfl
  | @invoke given hcommand hidle =>
    have hstand : takeStand given.name v.device.stands = (none, []) := by
      rw [h.stands]
      rfl
    refine ⟨by simp only [Vault.invoke, hstand], ?_⟩
    intro m hm
    have hm' : v.service.calls.length ≤ m := hm
    have hne : m ≠ n := by omega
    exact (Dictionary.get?_insert_of_ne _ hne _).trans (h.fresh m hm')
  | @complete _ i =>
    unfold Vault.complete
    dsimp only
    split
    case h_1 => exact hevent _ _ v.device.element v.device.cancels herased
    case h_2 => exact hevent _ _ _ v.device.cancels herased
  | expire => exact hevent _ _ v.device.element v.device.cancels herased

/-- A vault stays genuine, whatever happens. -/
theorem Genuine.act (h : v.Genuine) (d : VaultDeed) : (v.act d).Genuine := by
  have hservice (s : KeyService) (hlength : v.service.calls.length ≤ s.calls.length) :
      Genuine { v with service := s } :=
    ⟨h.stands, fun m hm => h.fresh m (hlength.trans hm)⟩
  cases d with
  | call request => exact hservice _ (by simp [KeyService.addCall])
  | start command =>
    simp only [Vault.act, Vault.start, KeyService.start]
    split
    case h_1 => exact h
    case h_2 => exact hservice _ (by simp)
  | turn now m =>
    simp only [Vault.act]
    cases hstep : v.step? now m with
    | none => exact h
    | some v' =>
      obtain ⟨c, hget, hturn⟩ := turn_cases hstep
      exact h.turn hget hturn
  | take m =>
    simp only [Vault.act]
    apply hservice
    rcases v.service.take_cases m with ⟨hsame, -⟩ | ⟨c, outcome, -, -, hsame | hsame⟩ <;>
      simp [hsame, KeyService.put]
  | drop m =>
    simp only [Vault.act]
    apply hservice
    rcases v.service.abandon_cases m with hsame | ⟨c, -, -, hsame⟩ <;>
      simp [hsame, KeyService.calls_finish]

/-- Whatever was done with a new vault, it is genuine. -/
theorem genuine_actAll (timeout : Nat) (identity : ElementId) (entropy : Nat → Block)
    (latency : Nat) (deeds : List VaultDeed) :
    ((fresh timeout identity entropy latency).actAll deeds).Genuine :=
  actAll_induction (genuine_fresh timeout identity entropy latency) fun _ d _ h => h.act d

end Vault
end VehicleGateway
