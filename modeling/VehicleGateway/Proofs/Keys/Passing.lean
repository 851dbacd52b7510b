import VehicleGateway.Keys.Vault
import VehicleGateway.Proofs.Keys.ServiceRun

/-!
# A command that is passed on

What becomes of the call that passes a command on, as long as the element answers it by itself and
is fast enough.

* `Replies` says that the element answers a command so, and that it is the same element afterwards.
* `Awaits` says how far such a call can have come and what is under way for it.
* `step?_awaits` says that a step of the call keeps to that, and brings it closer to its end by
  `work`; at the end the caller is told what the element has answered.
* `awaits_goes_on` says that the call only waits for the token or for the element, and until when.
-/

namespace VehicleGateway

namespace KeyService

/-- A call ends when the element answers with what it wants. -/
theorem step_fits {s : KeyService} {n : Nat} {call : KeyCall} {command : Command} {want : Want}
    {r : Response} (now : Nat) (hget : s.call? n = some call)
    (hstage : call.stage = .asking command want) (hfits : want.fits r = true) :
    s.step now n (.answer (.ok r)) = s.finish n call (.ok (.response r)) := by
  simp only [step, hget, stepCall, hstage, CallStage.command?, Option.isSome_some, if_true, respond,
    hfits]

end KeyService

namespace Vault

/-- The element answers a command by itself and before the service gives up, and is then as it was
before. -/
structure Replies (v : Vault) (command : Command) (r : Response) : Prop where
  stands : v.device.stands = []
  answer : v.device.element.execute command = (v.device.element, .ok r)
  latency : v.device.latency ≤ v.service.timeout

/-- A call that waits for the token has it when its time is up. -/
def TokenInTime (v : Vault) (now n : Nat) : Prop :=
  ∀ call limit, v.service.call? n = some call → call.stage = .queued limit → limit ≤ now →
    v.service.holder = some n

/-- A command under way is the right one, and the element will answer it in time. -/
def Answers (command : Command) (i : Invocation) : Prop :=
  i.command = command ∧ i.stand = none ∧ i.due ≤ i.limit

/-- A call is about to pass a command on, or has ended as it should. -/
def Awaits (v : Vault) (n : Nat) (command : Command) (want : Want) (told : KeyOutcome → Prop) :
    Prop :=
  ∃ call, v.service.call? n = some call ∧ call.request = .ask command want ∧
    match call.stage with
    | .entering | .queued _ | .granted => v.underWay.get? n = none
    | .asking passed form =>
      passed = command ∧ form = want ∧ ∀ i, v.underWay.get? n = some i → Answers passed i
    | .ended outcome => told outcome
    | _ => False

/-- How many steps a call that passes a command on has still to take. -/
def work (v : Vault) (n : Nat) : Nat :=
  match v.service.call? n with
  | none => 0
  | some call =>
    match call.stage with
    | .entering => 5
    | .queued _ => 4
    | .granted => 3
    | .asking _ _ => if (v.underWay.get? n).isNone then 2 else 1
    | _ => 0

variable {v v' : Vault} {now n : Nat} {command : Command} {want : Want} {told : KeyOutcome → Prop}
  {r : Response}

/-! ## The steps of the call -/

/-- A call that has started has the token or waits for it. -/
theorem call?_enter {s : KeyService} {call : KeyCall} {command : Command} {want : Want}
    (now : Nat) (hget : s.call? n = some call)
    (hrequest : call.request = .ask command want) :
    ∃ started, (s.enter now n call).call? n = some started ∧ started.request = .ask command want ∧
      (started.stage = .granted ∨ ∃ limit, started.stage = .queued limit) := by
  have hprepare : s.prepare call = .ok
      { call with counter := s.nextMasterCounter, authority := s.masterKey } := by
    simp [KeyService.prepare, KeyCall.load?, hrequest]
  simp only [KeyService.enter, hrequest, hprepare]
  unfold KeyService.queue
  split
  · exact ⟨_, KeyService.call?_put hget _, rfl, .inl rfl⟩
  · exact ⟨_, KeyService.call?_put hget _, rfl, .inr ⟨_, rfl⟩⟩

/-- A call is on its way if it waits for the token or has not used it yet. -/
theorem awaits_of_waiting {call : KeyCall} (hget : v.service.call? n = some call)
    (hrequest : call.request = .ask command want)
    (hstage : call.stage = .granted ∨ ∃ limit, call.stage = .queued limit)
    (hidle : v.underWay.get? n = none) : v.Awaits n command want told := by
  refine ⟨call, hget, hrequest, ?_⟩
  rcases hstage with h | ⟨limit, h⟩ <;> simpa [h] using hidle

theorem work_le_of_waiting {call : KeyCall} (hget : v.service.call? n = some call)
    (hstage : call.stage = .granted ∨ ∃ limit, call.stage = .queued limit) : v.work n ≤ 4 := by
  rcases hstage with h | ⟨limit, h⟩ <;> simp [work, hget, h]

/-- The element is given a command, and will answer it in time. -/
theorem invoke_answers (hstands : v.device.stands = [])
    (hlatency : v.device.latency ≤ v.service.timeout) (now n : Nat) (command : Command) :
    (v.invoke now n command).service = v.service ∧ (v.invoke now n command).device = v.device ∧
      ∃ i, (v.invoke now n command).underWay = v.underWay.insert n i ∧ Answers command i := by
  have hstand : takeStand command.name v.device.stands = (none, []) := by
    rw [hstands]
    rfl
  unfold invoke
  rw [hstand]
  refine ⟨rfl, ?_, _, rfl, rfl, rfl, ?_⟩
  · rw [← hstands]
  · exact Nat.add_le_add_left hlatency now

/-- The element answers, and is as it was. -/
theorem complete_eq {call : KeyCall} {i : Invocation} (now : Nat)
    (hget : v.service.call? n = some call) (hstage : call.stage = .asking command want)
    (hreplies : v.Replies command r) (hfits : want.fits r = true) (hanswers : Answers command i) :
    v.complete now n i = { v with
      service := v.service.finish n call (.ok (.response r))
      underWay := v.underWay.erase n } := by
  obtain ⟨hcommand, hstand, -⟩ := hanswers
  have hservice := KeyService.step_fits now hget hstage hfits
  simp only [complete, hstand, hcommand, hreplies.answer, hservice]

/-- What a step of a call that passes a command on can be. -/
inductive AskStep (v : Vault) (now n : Nat) (command : Command) (want : Want) (call : KeyCall) :
    Vault → Prop where
  /-- It takes the token or gets in line. -/
  | enter (hstage : call.stage = .entering) (hidle : v.underWay.get? n = none) :
    AskStep v now n command want call { v with service := v.service.enter now n call }
  /-- It has waited for the token and has it. -/
  | grant {limit : Nat} (hstage : call.stage = .queued limit) (hidle : v.underWay.get? n = none) :
    AskStep v now n command want call
      { v with service := v.service.put n { call with stage := .granted } }
  /-- It is about to use the token. -/
  | use (hstage : call.stage = .granted) (hidle : v.underWay.get? n = none) :
    AskStep v now n command want call
      { v with service := v.service.put n { call with stage := .asking command want } }
  /-- The element is given the command. -/
  | invoke (hstage : call.stage = .asking command want) (hidle : v.underWay.get? n = none) :
    AskStep v now n command want call (v.invoke now n command)
  /-- The element answers. -/
  | complete {i : Invocation} (hstage : call.stage = .asking command want)
      (hunderWay : v.underWay.get? n = some i) (hanswers : Answers command i) :
    AskStep v now n command want call (v.complete now n i)

theorem askStep_cases (hcall : v.Awaits n command want told) (htoken : v.TokenInTime now n)
    (hstep : v.step? now n = some v') :
    ∃ call, v.service.call? n = some call ∧ call.request = .ask command want ∧
      AskStep v now n command want call v' := by
  obtain ⟨call, hget, hrequest, hstage⟩ := hcall
  refine ⟨call, hget, hrequest, ?_⟩
  simp only [step?, hget, Option.bind_eq_bind, Option.bind_some] at hstep
  cases hphase : call.stage with
  | entering =>
    simp only [hphase, Option.some.injEq, KeyService.step, hget, KeyService.stepCall]
      at hstage hstep
    subst hstep
    exact .enter hphase hstage
  | queued limit =>
    simp only [hphase, KeyService.step, hget, KeyService.stepCall] at hstage hstep
    split at hstep
    case isTrue hholder =>
      simp only [Option.some.injEq] at hstep
      subst hstep
      exact .grant hphase hstage
    split at hstep
    -- A call that waits for the token does not give up.
    case isTrue hother hlate => exact absurd (htoken call limit hget hphase hlate) hother
    case isFalse => cases hstep
  | granted =>
    have huse : v.service.useToken n call =
        v.service.put n { call with stage := .asking command want } := by
      simp [KeyService.useToken, hrequest]
    simp only [hphase, Option.some.injEq, KeyService.step, hget, KeyService.stepCall, huse]
      at hstage hstep
    subst hstep
    exact .use hphase hstage
  | asking passed form =>
    simp only [hphase] at hstage
    obtain ⟨rfl, rfl, hunderWay⟩ := hstage
    cases hcommand : v.underWay.get? n with
    | none =>
      simp only [hphase, CallStage.command?, hcommand, Option.some.injEq] at hstep
      subst hstep
      exact .invoke hphase hcommand
    | some i =>
      have hanswers := hunderWay i hcommand
      simp only [hphase, CallStage.command?, hcommand] at hstep
      split at hstep
      case isTrue hdue =>
        obtain rfl := Option.some.inj hstep
        exact .complete hphase hcommand hanswers
      split at hstep
      -- The element is never too late.
      case isTrue hdue hlate =>
        have hintime := hanswers.2.2
        exact absurd ⟨Nat.le_trans hintime hlate, hintime⟩ hdue
      case isFalse => cases hstep
  | ended outcome => simp [hphase] at hstep
  | _ => simp [hphase] at hstage

/-- A step of a call keeps to its way and brings it closer to its end. -/
theorem step?_awaits (hcall : v.Awaits n command want told) (hreplies : v.Replies command r)
    (hfits : want.fits r = true) (htold : told (.ok (.response r)))
    (htoken : v.TokenInTime now n) (hstep : v.step? now n = some v') :
    v'.Awaits n command want told ∧ v'.work n < v.work n := by
  obtain ⟨call, hget, hrequest, hcases⟩ := askStep_cases hcall htoken hstep
  cases hcases with
  | enter hphase hidle =>
    obtain ⟨started, hstarted, hsame, hwaiting⟩ := call?_enter now hget hrequest
    refine ⟨awaits_of_waiting hstarted hsame hwaiting hidle, ?_⟩
    have hwork := work_le_of_waiting (v := { v with service := v.service.enter now n call })
      hstarted hwaiting
    have hbefore : v.work n = 5 := by simp [work, hget, hphase]
    omega
  | grant hphase hidle =>
    have hnext := KeyService.call?_put hget { call with stage := .granted }
    refine ⟨awaits_of_waiting hnext hrequest (.inl rfl) hidle, ?_⟩
    simp [work, hnext, hget, hphase]
  | use hphase hidle =>
    have hnext := KeyService.call?_put hget { call with stage := .asking command want }
    refine ⟨⟨_, hnext, hrequest, rfl, rfl, ?_⟩, ?_⟩
    · intro i hi
      rw [hidle] at hi
      cases hi
    · simp [work, hnext, hget, hphase, hidle]
  | invoke hphase hidle =>
    obtain ⟨hservice, -, i, hi, hanswers⟩ :=
      invoke_answers hreplies.stands hreplies.latency now n command
    have hgiven : (v.invoke now n command).underWay.get? n = some i := by
      rw [hi, Dictionary.get?_insert_self]
    refine ⟨⟨call, by rw [hservice]; exact hget, hrequest, ?_⟩, ?_⟩
    · rw [hphase]
      refine ⟨rfl, rfl, ?_⟩
      intro i' hi'
      obtain rfl := Option.some.inj (hgiven.symm.trans hi')
      exact hanswers
    · simp [work, hservice, hget, hphase, hidle, hgiven]
  | complete hphase hunderWay hanswers =>
    rw [complete_eq now hget hphase hreplies hfits hanswers]
    have hnext : (v.service.finish n call (.ok (.response r))).call? n =
        some { call with stage := .ended (.ok (.response r)) } :=
      KeyService.call?_finish hget
    refine ⟨⟨_, hnext, hrequest, htold⟩, ?_⟩
    simp [work, hnext, hget, hphase, hunderWay]

/-- When a call has its time, it goes on or has ended. -/
theorem awaits_goes_on (hcall : v.Awaits n command want told) (htoken : v.TokenInTime now n)
    (hopen : v.outcome? n = none) (hdue : ∀ later, v.due? n = some later → later ≤ now) :
    ∃ v', v.step? now n = some v' := by
  obtain ⟨call, hget, hrequest, hstage⟩ := hcall
  simp only [due?, hget, Option.bind_eq_bind, Option.bind_some] at hdue
  simp only [step?, hget, Option.bind_eq_bind, Option.bind_some]
  cases hphase : call.stage with
  | entering => exact ⟨_, rfl⟩
  | granted => exact ⟨_, rfl⟩
  | queued limit =>
    simp only [hphase, Option.some.injEq, forall_eq'] at hdue
    have hholder := htoken call limit hget hphase hdue
    simp [hholder]
  | asking passed form =>
    simp only [hphase] at hstage hdue
    cases hcommand : v.underWay.get? n with
    | none => exact ⟨_, rfl⟩
    | some i =>
      have hintime := (hstage.2.2 i hcommand).2.2
      simp only [hcommand, Option.map_some, Option.some.injEq, forall_eq'] at hdue
      have hready : i.due ≤ now ∧ i.due ≤ i.limit := ⟨by omega, hintime⟩
      simp [hready]
  | ended outcome => simp [outcome?, hget, KeyCall.outcome?, hphase] at hopen
  | _ => simp [hphase] at hstage

/-- The caller is told nothing else. -/
theorem told_of_awaits {outcome : KeyOutcome} (hcall : v.Awaits n command want told)
    (houtcome : v.outcome? n = some outcome) : told outcome := by
  obtain ⟨call, hget, hrequest, hstage⟩ := hcall
  simp only [outcome?, hget, Option.bind_some, KeyCall.outcome?] at houtcome
  cases hphase : call.stage with
  | ended outcome' =>
    simp only [hphase, Option.some.injEq] at hstage houtcome
    subst houtcome
    exact hstage
  | _ => simp [hphase] at houtcome

/-- A call with a new number is about to pass its command on. -/
theorem awaits_addCall (command : Command) (want : Want) (told : KeyOutcome → Prop)
    (hidle : v.underWay.get? v.service.calls.length = none) :
    (v.addCall (.ask command want)).Awaits v.service.calls.length command want told :=
  ⟨_, KeyService.call?_addCall _ _, rfl, hidle⟩

/-! ## What others may do -/

/-- A call and what is under way for it are the same in two vaults. -/
structure Untouched (n : Nat) (v v' : Vault) : Prop where
  call : v'.service.call? n = v.service.call? n
  underWay : v'.underWay.get? n = v.underWay.get? n

theorem Untouched.awaits (h : Untouched n v v') (hcall : v.Awaits n command want told) :
    v'.Awaits n command want told := by
  unfold Awaits at hcall ⊢
  rw [h.call, h.underWay]
  exact hcall

theorem Untouched.work_eq (h : Untouched n v v') : v'.work n = v.work n := by
  unfold work
  rw [h.call, h.underWay]

theorem Untouched.due?_eq (h : Untouched n v v') : v'.due? n = v.due? n := by
  unfold due?
  rw [h.call, h.underWay]

end Vault
end VehicleGateway
