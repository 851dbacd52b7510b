import VehicleGateway.Proofs.Keys.Answers
import VehicleGateway.Proofs.Keys.Stages

/-!
# Calls come to an end

A call of the key service waits for the token, and then for the element, but never for longer than
the service allows.  So a call that has its turns again and again ends, whatever the other callers
do and however slow the element is.

* `after` is a vault some way into a run that goes on for ever.
* `CallStage.distance` is how far a stage is from the end, and `rank` how far a call is.  Whatever a
  call does in its turn lowers it: `rank_lt_of_step?`.  Others cannot raise it: `untouched_act`.
* `exists_step?` says that a call does something when its time has come.
* `ends_of_served` puts these together.
-/

namespace VehicleGateway

/-- How far a stage is from the end of a call. -/
def CallStage.distance : CallStage → Nat
  | .entering => 7
  | .queued _ => 6
  | .granted => 5
  | .naming => 4
  | .challenging _ => 3
  | .asking _ _ | .loading _ _ | .authorizing _ => 2
  | .cancelling => 1
  | .ended _ => 0

/-- With a command at the element there is still its answer to come, or a timeout. -/
theorem CallStage.two_le_distance {stage : CallStage} {command : Command}
    (h : stage.command? = some command) : 2 ≤ stage.distance := by
  cases stage <;> simp [CallStage.command?, CallStage.distance] at h ⊢

theorem CallStage.distance_le_of_command? {stage : CallStage} {command : Command}
    (h : stage.command? = some command) : stage.distance ≤ 4 := by
  cases stage <;> simp [CallStage.command?, CallStage.distance] at h ⊢

namespace KeyService

variable {s s' : KeyService} {now n : Nat} {c c' : KeyCall} {e : KeyEvent}

/-! ## A call goes on -/

theorem Proceeds.distance_le (h : s.Proceeds n c c' s') : c'.stage.distance ≤ 4 := by
  cases h with
  | ends => exact Nat.zero_le 4
  | gives _ hcommand => exact CallStage.distance_le_of_command? hcommand

/-- Nobody asks for an identity that is known. -/
theorem Proceeds.distance_lt {element : ElementId} (h : s.Proceeds n c c' s')
    (hidentity : s.identity = some element) : c'.stage.distance < 4 := by
  cases h with
  | ends => exact Nat.zero_lt_succ 3
  | gives stage hcommand hbrings =>
    cases stage with
    | naming => cases hidentity.symm.trans hbrings
    | _ => simp [CallStage.command?, CallStage.distance] at hcommand ⊢

/-- The element, or the wait for it, brings a call closer to its end. -/
theorem Move.distance_lt (h : Move s now n c e c' s') (hconcerns : e.concerns c.stage = true) :
    c'.stage.distance < c.stage.distance := by
  have hended {outcome : KeyOutcome} {command : Command}
      (hcommand : c.stage.command? = some command) :
      (CallStage.ended outcome).distance < c.stage.distance :=
    (CallStage.two_le_distance hcommand).trans_lt' Nat.zero_lt_two
  cases h with
  | stay hunfit => exact absurd hconcerns (by simp [hunfit])
  | note | decline | seize | line | grant | giveUp | use => cases hconcerns
  | expire hcommand => exact CallStage.two_le_distance hcommand
  | stopped hstage =>
    rw [hstage]
    exact Nat.zero_lt_one
  | fail hcommand => exact hended hcommand
  | name hstage hproceeds =>
    rw [hstage]
    exact hproceeds.distance_lt rfl
  | answer hstage hproof =>
    rw [hstage, hproof]
    exact Nat.lt_succ_self 2
  | tell hstage | mismatch hstage | confirm hstage | erase hstage =>
    exact hended (congrArg CallStage.command? hstage)

/-- Once a call has started, it has ended, has the token or waits for it. -/
theorem exists_call?_enter (now : Nat) (hget : s.call? n = some c) :
    ∃ d, (s.enter now n c).call? n = some d ∧ d.stage.distance < CallStage.entering.distance := by
  unfold enter
  split
  case h_1 => exact ⟨_, call?_finish hget, by simp [CallStage.distance]⟩
  case h_2 => exact ⟨_, call?_finish (by exact hget), by simp [CallStage.distance]⟩
  case h_3 =>
    cases s.prepare c with
    | error fault => exact ⟨_, call?_finish hget, by simp [CallStage.distance]⟩
    | ok c' =>
      dsimp only
      unfold queue
      split
      case h_1 => exact ⟨_, call?_put (by exact hget) _, by simp [CallStage.distance]⟩
      case h_2 => exact ⟨_, call?_put (by exact hget) _, by simp [CallStage.distance]⟩

/-- Once a call has used the token, it has ended or a command of it is with the element. -/
theorem exists_call?_useToken (hget : s.call? n = some c) :
    ∃ d, (s.useToken n c).call? n = some d ∧ d.stage.distance < CallStage.granted.distance := by
  unfold useToken
  split
  case h_1 => exact ⟨_, call?_put hget _, by simp [CallStage.distance]⟩
  case h_2 =>
    dsimp only
    split
    case h_1 => exact ⟨_, call?_finish hget, by simp [CallStage.distance]⟩
    case h_2 c' _ =>
      split
      case h_1 element hidentity =>
        obtain ⟨d, hproceeds⟩ := proceed_proceeds n c' hidentity
        exact ⟨d, hproceeds.call?_eq hget, Nat.lt_succ_of_le hproceeds.distance_le⟩
      case h_2 => exact ⟨_, call?_put hget _, by simp [CallStage.distance]⟩

end KeyService

namespace Vault

variable {v v' : Vault} {now n m k : Nat} {c : KeyCall} {d : VaultDeed}
  {deeds : Nat → VaultDeed}

/-! ## How far a call is from its end -/

/-- How far a call is from its end.  To give a command to the element is a step of its own. -/
def rank (v : Vault) (n : Nat) : Nat :=
  match v.service.call? n with
  | none => 0
  | some c => 2 * c.stage.distance + (if (v.underWay.get? n).isNone then 1 else 0)

theorem rank_eq (hget : v.service.call? n = some c) :
    v.rank n = 2 * c.stage.distance + (if (v.underWay.get? n).isNone then 1 else 0) := by
  simp only [rank, hget]

/-- A call in a nearer stage is nearer to its end, whatever is under way for it. -/
theorem rank_lt_of_distance_lt {c' : KeyCall} (hget : v.service.call? n = some c)
    (hget' : v'.service.call? n = some c') (h : c'.stage.distance < c.stage.distance)
    (hunderWay : v'.underWay.get? n = v.underWay.get? n ∨ (v.underWay.get? n).isSome) :
    v'.rank n < v.rank n := by
  rw [rank_eq hget, rank_eq hget']
  rcases hunderWay with hsame | hsome
  · rw [hsame]
    omega
  · split <;> omega

/-- What a call does that has no command with the element. -/
theorem exists_call?_of_away (h : v.step? now n = some v') (hget : v.service.call? n = some c)
    (haway : c.stage.command? = none) :
    v'.underWay = v.underWay ∧ ∃ c', v'.service.call? n = some c' ∧
      c'.stage.distance < c.stage.distance := by
  simp only [step?, hget, Option.bind_eq_bind, Option.bind_some] at h
  cases hstage : c.stage with
  | entering =>
    simp only [hstage, KeyService.step, hget, KeyService.stepCall, Option.some.injEq] at h
    subst h
    exact ⟨rfl, KeyService.exists_call?_enter now hget⟩
  | granted =>
    simp only [hstage, KeyService.step, hget, KeyService.stepCall, Option.some.injEq] at h
    subst h
    exact ⟨rfl, KeyService.exists_call?_useToken hget⟩
  | queued limit =>
    simp only [hstage, KeyService.step, hget, KeyService.stepCall] at h
    split at h
    case isTrue hholder =>
      obtain rfl := Option.some.inj h
      exact ⟨rfl, _, KeyService.call?_put hget _, by simp [CallStage.distance]⟩
    case isFalse hholder =>
      split at h
      case isTrue =>
        obtain rfl := Option.some.inj h
        exact ⟨rfl, _, KeyService.call?_finish (by exact hget), by simp [CallStage.distance]⟩
      case isFalse => cases h
  | cancelling =>
    simp only [hstage, Option.some.injEq] at h
    subst h
    obtain ⟨c', hmove, hget'⟩ := KeyService.step_cases hget now .stopped
    have hcloser := hmove.distance_lt (by rw [hstage]; rfl)
    rw [hstage] at hcloser
    exact ⟨rfl, c', hget', hcloser⟩
  | ended outcome => simp [hstage] at h
  | _ => simp [hstage, CallStage.command?] at haway

/-- Whatever a call does in its turn brings it closer to its end. -/
theorem closer_of_step? (h : v.step? now n = some v') :
    ∃ c', v'.service.call? n = some c' ∧ v'.rank n < v.rank n := by
  obtain ⟨c, hget, hturn⟩ := turn_cases h
  cases haway : c.stage.command? with
  | none =>
    obtain ⟨hunderWay, c', hget', hcloser⟩ := exists_call?_of_away h hget haway
    exact ⟨c', hget', rank_lt_of_distance_lt hget hget' hcloser (.inl (by rw [hunderWay]))⟩
  | some command =>
    -- An event of the element, or the end of the wait for it, after which nothing is under way.
    have hevent (e : KeyEvent) (hconcerns : e.concerns c.stage = true) :
        ∃ c', (v.service.step now n e).call? n = some c' ∧
          c'.stage.distance < c.stage.distance := by
      obtain ⟨c', hmove, hget'⟩ := KeyService.step_cases hget now e
      exact ⟨c', hget', hmove.distance_lt hconcerns⟩
    have hconcerns (result : Except ElementFault Response) :
        (KeyEvent.answer result).concerns c.stage = true := by
      simp [KeyEvent.concerns, haway]
    cases hturn with
    | go _ hnone => cases haway.symm.trans hnone
    | cancel hstage => cases haway.symm.trans (congrArg CallStage.command? hstage)
    | invoke _ hidle =>
      refine ⟨c, hget, ?_⟩
      rw [rank_eq hget, rank_eq (v := v.invoke now n _) hget, hidle]
      simp [Vault.invoke]
    | @complete _ i _ hunderWay =>
      unfold Vault.complete
      dsimp only
      split
      all_goals
        obtain ⟨c', hget', hcloser⟩ := hevent _ (hconcerns _)
        exact ⟨c', hget', rank_lt_of_distance_lt hget hget' hcloser (.inr (by rw [hunderWay]; rfl))⟩
    | expire _ hunderWay =>
      obtain ⟨c', hget', hcloser⟩ := hevent .expire (by simp [KeyEvent.concerns, haway])
      exact ⟨c', hget', rank_lt_of_distance_lt hget hget' hcloser (.inr (by rw [hunderWay]; rfl))⟩

theorem Untouched.rank_eq (h : Untouched n v v') : v'.rank n = v.rank n := by
  unfold rank
  rw [h.call, h.underWay]

/-- What a call does that has a command for the element. -/
theorem step?_of_command {command : Command} (hget : v.service.call? n = some c)
    (hcommand : c.stage.command? = some command) (now : Nat) :
    v.step? now n =
      match v.underWay.get? n with
      | none => some (v.invoke now n command)
      | some i =>
        if i.due ≤ now ∧ i.due ≤ i.limit then some (v.complete now n i)
        else if i.limit ≤ now then
          some { v with
            underWay := v.underWay.erase n
            service := v.service.step now n .expire }
        else none := by
  simp only [step?, hget, Option.bind_eq_bind, Option.bind_some]
  cases hstage : c.stage <;> simp only [hstage, CallStage.command?, reduceCtorEq] at hcommand
  all_goals
    obtain rfl := Option.some.inj hcommand
    cases v.underWay.get? n <;> rfl

/-- A call does something when its time has come. -/
theorem exists_step? (hget : v.service.call? n = some c) (hopen : c.outcome? = none)
    (hdue : ∀ later, v.due? n = some later → later ≤ now) : ∃ v', v.step? now n = some v' := by
  simp only [due?, hget, Option.bind_eq_bind, Option.bind_some] at hdue
  cases hcommand : c.stage.command? with
  | some command =>
    rw [step?_of_command hget hcommand]
    cases hunderWay : v.underWay.get? n with
    | none => exact ⟨_, rfl⟩
    | some i =>
      have hmin : min i.due i.limit ≤ now := by
        refine hdue _ ?_
        cases hstage : c.stage <;> simp [hstage, CallStage.command?, hunderWay] at hcommand ⊢
      dsimp only
      split
      case isTrue => exact ⟨_, rfl⟩
      case isFalse hlater =>
        rw [if_pos (by omega)]
        exact ⟨_, rfl⟩
  | none =>
    simp only [step?, hget, Option.bind_eq_bind, Option.bind_some]
    cases hstage : c.stage with
    | entering | granted | cancelling => exact ⟨_, rfl⟩
    | queued limit =>
      have hlimit : limit ≤ now := hdue limit (by rw [hstage])
      simp only [if_pos hlimit]
      split <;> exact ⟨_, rfl⟩
    | ended outcome => cases hopen.symm.trans (KeyService.outcome?_of_stage hstage)
    | _ => simp [hstage, CallStage.command?] at hcommand

/-- What happens to the others leaves a call alone that has not ended. -/
theorem untouched_act (hget : v.service.call? n = some c) (hopen : c.outcome? = none)
    (hturn : ∀ now, d ≠ .turn now n) (hdrop : d ≠ .drop n) : Untouched n v (v.act d) := by
  have hlt := KeyService.lt_of_call? hget
  have hsame : Untouched n v v := ⟨rfl, rfl⟩
  cases d with
  | call request => exact ⟨List.getElem?_append_left hlt, rfl⟩
  | start command =>
    simp only [Vault.act, Vault.start, KeyService.start]
    split
    case h_1 => exact hsame
    case h_2 => exact ⟨List.getElem?_append_left hlt, rfl⟩
  | turn now m =>
    have hne : m ≠ n := fun hmn => hturn now (by rw [hmn])
    simp only [Vault.act]
    cases hstep : v.step? now m with
    | none => exact hsame
    | some v' =>
      obtain ⟨c', hm, hturn⟩ := turn_cases hstep
      exact untouched_turn hm hne hturn
  | take m =>
    simp only [Vault.act]
    rcases v.service.take_cases m with ⟨hservice, -⟩ | ⟨c', outcome, hm, hended, hservice⟩
    · rw [hservice]
      exact hsame
    · have hne : m ≠ n := by
        rintro rfl
        obtain rfl := Option.some.inj (hget.symm.trans hm)
        cases hopen.symm.trans (KeyService.outcome?_of_stage hended)
      rcases hservice with hservice | hservice
      · rw [hservice]
        exact hsame
      · rw [hservice]
        exact ⟨KeyService.call?_put_of_ne _ _ hne, rfl⟩
  | drop m =>
    have hne : m ≠ n := fun hmn => hdrop (by rw [hmn])
    exact ⟨KeyService.call?_abandon_of_ne hne, rfl⟩

/-! ## Runs that go on for ever -/

/-- A vault after the first deeds of a run. -/
def after (v : Vault) (deeds : Nat → VaultDeed) : Nat → Vault
  | 0 => v
  | k + 1 => (v.after deeds k).act (deeds k)

/-- A call has its turns again and again, and time goes on. -/
def Served (deeds : Nat → VaultDeed) (n : Nat) : Prop :=
  ∀ k time, ∃ j now, k ≤ j ∧ time ≤ now ∧ deeds j = .turn now n

/-- A call that has not ended is left alone, or it comes closer to its end or ends. -/
theorem progress_act (hget : v.service.call? n = some c) (hopen : c.outcome? = none)
    (d : VaultDeed) : Untouched n v (v.act d) ∨
      ∃ c', (v.act d).service.call? n = some c' ∧
        (c'.outcome? ≠ none ∨ (v.act d).rank n < v.rank n) := by
  by_cases hdrop : d = .drop n
  · subst hdrop
    refine .inr ⟨{ c with stage := .ended (.error .closed) }, ?_, .inl (by simp [KeyCall.outcome?])⟩
    simp only [act, KeyService.abandon, hget, hopen]
    exact KeyService.call?_finish
      (s := { v.service with waiting := v.service.waiting.erase n }) hget
  by_cases hturn : ∃ now, d = .turn now n
  · obtain ⟨now, rfl⟩ := hturn
    simp only [act]
    cases hstep : v.step? now n with
    | none => exact .inl ⟨rfl, rfl⟩
    | some v' =>
      obtain ⟨c', hget', hcloser⟩ := closer_of_step? hstep
      exact .inr ⟨c', hget', .inr hcloser⟩
  · exact .inl (untouched_act hget hopen (fun now hd => hturn ⟨now, hd⟩) hdrop)

theorem Untouched.trans {v'' : Vault} (h : Untouched n v v') (h' : Untouched n v' v'') :
    Untouched n v v'' :=
  ⟨h'.call.trans h.call, h'.underWay.trans h.underWay⟩

/-- Up to a later moment of a run a call is left alone, or it comes closer to its end or ends. -/
theorem progress_after (hget : (v.after deeds k).service.call? n = some c)
    (hopen : c.outcome? = none) (steps : Nat) :
    Untouched n (v.after deeds k) (v.after deeds (k + steps)) ∨
      ∃ j c', k ≤ j ∧ (v.after deeds j).service.call? n = some c' ∧
        (c'.outcome? ≠ none ∨ (v.after deeds j).rank n < (v.after deeds k).rank n) := by
  induction steps with
  | zero => exact .inl ⟨rfl, rfl⟩
  | succ steps ih =>
    rcases ih with hsame | hprogress
    · have hget' : (v.after deeds (k + steps)).service.call? n = some c := hsame.call.trans hget
      rcases progress_act hget' hopen (deeds (k + steps)) with hnext | ⟨c', hc', hprogress⟩
      · exact .inl (hsame.trans hnext)
      · rw [hsame.rank_eq] at hprogress
        exact .inr ⟨k + steps + 1, c', by omega, hc', hprogress⟩
    · exact .inr hprogress

/-- A call that has its turns again and again ends, whatever the others do. -/
theorem ends_of_served (hserved : Served deeds n)
    (hget : (v.after deeds k).service.call? n = some c) :
    ∃ j outcome, k ≤ j ∧ (v.after deeds j).outcome? n = some outcome := by
  -- By induction on how far the call is from its end.
  induction hrank : (v.after deeds k).rank n using Nat.strong_induction_on generalizing k c with
  | h rank ih =>
    cases hopen : c.outcome? with
    | some outcome => exact ⟨k, outcome, Nat.le_refl k, (outcome?_of_call? hget).trans hopen⟩
    | none =>
      -- Either something happens to the call before, or it goes on in a turn at a time so late.
      obtain ⟨j, now, hkj, htime, hdeed⟩ := hserved k (((v.after deeds k).due? n).getD 0)
      obtain ⟨steps, rfl⟩ := Nat.exists_eq_add_of_le hkj
      have hprogress : ∃ j c', k ≤ j ∧ (v.after deeds j).service.call? n = some c' ∧
          (c'.outcome? ≠ none ∨ (v.after deeds j).rank n < (v.after deeds k).rank n) := by
        rcases progress_after hget hopen steps with hsame | hprogress
        case inr => exact hprogress
        have hdue (later : Nat) (hlater : (v.after deeds (k + steps)).due? n = some later) :
            later ≤ now := by
          rw [hsame.due?_eq] at hlater
          simpa [hlater] using htime
        obtain ⟨v', hstep⟩ := exists_step? (hsame.call.trans hget) hopen hdue
        obtain ⟨c', hget', hcloser⟩ := closer_of_step? hstep
        have hafter : v.after deeds (k + steps + 1) = v' := by simp [after, hdeed, act, hstep]
        rw [hsame.rank_eq] at hcloser
        exact ⟨k + steps + 1, c', by omega, by rwa [hafter], .inr (by rwa [hafter])⟩
      obtain ⟨j, c', hkj, hget', hended | hcloser⟩ := hprogress
      · obtain ⟨outcome, houtcome⟩ := Option.ne_none_iff_exists'.mp hended
        exact ⟨j, outcome, hkj, (outcome?_of_call? hget').trans houtcome⟩
      · obtain ⟨j', outcome, hjj', hended⟩ := ih _ (hrank ▸ hcloser) hget' rfl
        exact ⟨j', outcome, hkj.trans hjj', hended⟩

/-- A call that goes on is still a call. -/
theorem exists_call?_of_running (hget : (v.after deeds k).service.call? n = some c) (steps : Nat)
    (hrunning : ∀ i, k ≤ i → i ≤ k + steps → (v.after deeds i).outcome? n = none) :
    ∃ c', (v.after deeds (k + steps)).service.call? n = some c' ∧ c'.outcome? = none := by
  have hopen {i : Nat} {c' : KeyCall} (hki : k ≤ i) (hi : i ≤ k + steps)
      (hget' : (v.after deeds i).service.call? n = some c') : c'.outcome? = none :=
    (outcome?_of_call? hget').symm.trans (hrunning i hki hi)
  suffices hcall : ∀ i ≤ steps, ∃ c', (v.after deeds (k + i)).service.call? n = some c' by
    obtain ⟨c', hget'⟩ := hcall steps (Nat.le_refl _)
    exact ⟨c', hget', hopen (by omega) (Nat.le_refl _) hget'⟩
  intro i hi
  induction i with
  | zero => exact ⟨c, hget⟩
  | succ i ih =>
    obtain ⟨c', hget'⟩ := ih (by omega)
    rcases progress_act hget' (hopen (by omega) (by omega) hget') (deeds (k + i)) with hsame | hnext
    · exact ⟨c', hsame.call.trans hget'⟩
    · obtain ⟨d, hd, -⟩ := hnext
      exact ⟨d, hd⟩

/-- A call that has not ended at some moment ends in a later turn of its own. -/
structure EndsIn (v : Vault) (deeds : Nat → VaultDeed) (n k j : Nat) (outcome : KeyOutcome) :
    Prop where
  later : k ≤ j
  running : ∀ i, k ≤ i → i ≤ j → (v.after deeds i).outcome? n = none
  turn : ∃ now, deeds j = .turn now n ∧
    (v.after deeds j).step? now n = some (v.after deeds (j + 1))
  told : (v.after deeds (j + 1)).outcome? n = some outcome

/-- What the turns of a call keep but for the one in which it ends, and others keep as well, is so
up to that turn. -/
theorem EndsIn.induction {j : Nat} {outcome : KeyOutcome} {Q : Vault → Prop}
    (h : v.EndsIn deeds n k j outcome) (hstart : Q (v.after deeds k))
    (hturn : ∀ i now v', Q (v.after deeds i) → (v.after deeds i).step? now n = some v' →
      Q v' ∨ ∃ outcome, v'.outcome? n = some outcome)
    (hothers : ∀ i, Q (v.after deeds i) → (v.after deeds i).outcome? n = none →
      (∀ now, deeds i ≠ .turn now n) → Q (v.after deeds (i + 1)))
    (i : Nat) (hki : k ≤ i) (hij : i ≤ j) : Q (v.after deeds i) := by
  induction i, hki using Nat.le_induction with
  | base => exact hstart
  | succ i hki ih =>
    have hnow := ih (by omega)
    by_cases hown : ∃ now, deeds i = .turn now n
    · obtain ⟨now, hown⟩ := hown
      cases hstep : (v.after deeds i).step? now n with
      | none =>
        have hnext : v.after deeds (i + 1) = v.after deeds i := by simp [after, act, hown, hstep]
        rwa [hnext]
      | some v' =>
        have hnext : v.after deeds (i + 1) = v' := by simp [after, act, hown, hstep]
        rcases hturn i now v' hnow hstep with hkept | ⟨outcome, hended⟩
        · rwa [hnext]
        · rw [← hnext] at hended
          cases hended.symm.trans (h.running (i + 1) (by omega) hij)
    · exact hothers i hnow (h.running i hki (by omega)) fun now hd => hown ⟨now, hd⟩

/-- A call that has its turns again and again and is not dropped ends in one of them. -/
theorem exists_endsIn (hserved : Served deeds n) (hkept : ∀ i, deeds i ≠ .drop n)
    (hget : (v.after deeds k).service.call? n = some c) (hopen : c.outcome? = none) :
    ∃ j outcome, v.EndsIn deeds n k j outcome := by
  -- The first moment at which the call has ended.
  have hends : ∃ steps, (v.after deeds (k + steps)).outcome? n ≠ none := by
    obtain ⟨j, outcome, hkj, hended⟩ := ends_of_served hserved hget
    obtain ⟨steps, rfl⟩ := Nat.exists_eq_add_of_le hkj
    exact ⟨steps, by simp [hended]⟩
  obtain ⟨steps, hended, hfirst⟩ : ∃ steps, (v.after deeds (k + steps)).outcome? n ≠ none ∧
      ∀ i < steps, (v.after deeds (k + i)).outcome? n = none :=
    ⟨Nat.find hends, Nat.find_spec hends, fun i hi => Classical.not_not.mp (Nat.find_min hends hi)⟩
  have hstarted : (v.after deeds k).outcome? n = none := (outcome?_of_call? hget).trans hopen
  cases steps with
  | zero => exact absurd hstarted hended
  | succ steps =>
    obtain ⟨outcome, houtcome⟩ := Option.ne_none_iff_exists'.mp hended
    have hrunning (i : Nat) (hki : k ≤ i) (hij : i ≤ k + steps) :
        (v.after deeds i).outcome? n = none := by
      obtain ⟨before, rfl⟩ := Nat.exists_eq_add_of_le hki
      exact hfirst before (by omega)
    refine ⟨k + steps, outcome, by omega, hrunning, ?_, houtcome⟩
    obtain ⟨c', hget', hopen'⟩ := exists_call?_of_running hget steps hrunning
    -- What others do does not end the call, so it is the call's own turn.
    by_cases hturn : ∃ now, deeds (k + steps) = .turn now n
    · obtain ⟨now, hturn⟩ := hturn
      refine ⟨now, hturn, ?_⟩
      cases hstep : (v.after deeds (k + steps)).step? now n with
      | some v' => simp [after, act, hturn, hstep]
      | none =>
        have hsame : v.after deeds (k + steps + 1) = v.after deeds (k + steps) := by
          simp [after, act, hturn, hstep]
        cases houtcome.symm.trans ((congrArg (·.outcome? n) hsame).trans
          (hrunning _ (by omega) (Nat.le_refl _)))
    · have hsame := untouched_act hget' hopen' (fun now hd => hturn ⟨now, hd⟩) (hkept (k + steps))
      cases houtcome.symm.trans
        ((outcome?_of_call? (hsame.call.trans hget')).trans hopen')

end Vault
end VehicleGateway
