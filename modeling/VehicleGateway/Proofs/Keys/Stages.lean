import VehicleGateway.Proofs.Keys.ServiceRun

/-!
# The stages of a call

How the stage of a call goes on, without what the call asks or the element answers.

* `Passage` says which stages an event leads to, and `Move.passage` that every event does one of
  these things.
* `SameStandings` says that what the element has to do with the calls is as before.
* `ended_run` says that a call that has ended stays so.
-/

namespace VehicleGateway

/-- What the element has to do with a call. -/
inductive Standing where
  | idle
  /-- It has a command of the call. -/
  | busy (n : Nat)
  /-- It has been told to stop. -/
  | stopping (n : Nat)

/-- What the element has to do with a call in a stage. -/
def CallStage.standing (n : Nat) : CallStage → Standing
  | .entering | .queued _ | .granted | .ended _ => .idle
  | .cancelling => .stopping n
  | _ => .busy n

theorem CallStage.standing_of_command? {stage : CallStage} {command : Command} (n : Nat)
    (h : stage.command? = some command) : stage.standing n = .busy n := by
  cases stage <;> first | rfl | cases h

theorem CallStage.active_of_standing {stage : CallStage} {n : Nat}
    (h : stage.standing n ≠ .idle) : stage.active = true := by
  cases stage <;> first | rfl | exact absurd rfl h

theorem CallStage.command?_of_standing {stage : CallStage} {n : Nat}
    (h : stage.standing n = .idle) : stage.command? = none := by
  cases stage <;> first | rfl | cases h

/-- How the stage of a call goes on with an event. -/
inductive Passage : CallStage → KeyEvent → CallStage → Prop where
  /-- The event does not fit. -/
  | stay {stage : CallStage} {e : KeyEvent} (hunfit : e.concerns stage = false) :
      Passage stage e stage
  /-- The call has given nothing to the element, and does not now. -/
  | away {stage stage' : CallStage} {e : KeyEvent} (hunfit : e.concerns stage = false)
      (hstanding : ∀ n, stage.standing n = .idle) (hopen : ∀ outcome, stage ≠ .ended outcome)
      (hstanding' : ∀ n, stage'.standing n = .idle) : Passage stage e stage'
  /-- The call gives its first command. -/
  | gives {stage' : CallStage} {command : Command} (hcommand : stage'.command? = some command) :
      Passage .granted .go stage'
  /-- The call ends with an answer. -/
  | ends {stage : CallStage} {result : Except ElementFault Response} {command : Command}
      {outcome : KeyOutcome} (hcommand : stage.command? = some command) :
      Passage stage (.answer result) (.ended outcome)
  /-- The call goes on with an answer. -/
  | next {stage stage' : CallStage} {result : Except ElementFault Response}
      {command command' : Command} (hcommand : stage.command? = some command)
      (hcommand' : stage'.command? = some command') : Passage stage (.answer result) stage'
  | expires {stage : CallStage} {command : Command} (hcommand : stage.command? = some command) :
      Passage stage .expire .cancelling
  | stops {outcome : KeyOutcome} : Passage .cancelling .stopped (.ended outcome)

namespace KeyService

variable {s s' : KeyService} {now n m : Nat} {c c' d : KeyCall} {e : KeyEvent}
  {outcome : KeyOutcome}

theorem Proceeds.stage_cases (h : s.Proceeds n c c' s') :
    (∃ outcome, c'.stage = .ended outcome) ∨ ∃ command, c'.stage.command? = some command := by
  cases h with
  | @ends outcome => exact .inl ⟨outcome, rfl⟩
  | @gives stage command hcommand => exact .inr ⟨command, hcommand⟩

/-- The stage of a call goes on in one of these ways. -/
theorem Move.passage (h : Move s now n c e c' s') : Passage c.stage e c'.stage := by
  cases h with
  | stay hunfit => exact .stay hunfit
  | decline hstage =>
    rcases hstage with hstage | hstage
    all_goals
      rw [hstage]
      exact .away rfl (fun _ => rfl) (by simp) fun _ => rfl
  | note hstage | seize hstage | line hstage | grant hstage | giveUp hstage =>
    rw [hstage]
    exact .away rfl (fun _ => rfl) (by simp) fun _ => rfl
  | use hstage _ hproceeds =>
    rw [hstage]
    rcases hproceeds.stage_cases with ⟨outcome, hended⟩ | ⟨command, hcommand⟩
    · rw [hended]
      exact .away rfl (fun _ => rfl) (by simp) fun _ => rfl
    · exact .gives hcommand
  | expire hcommand => exact .expires hcommand
  | stopped hstage =>
    rw [hstage]
    exact .stops
  | fail hcommand => exact .ends hcommand
  | name hstage hproceeds =>
    have hcommand := congrArg CallStage.command? hstage
    rcases hproceeds.stage_cases with ⟨outcome, hended⟩ | ⟨command', hcommand'⟩
    · rw [hended]
      exact .ends hcommand
    · exact .next hcommand hcommand'
  | answer hstage hproof => exact .next (congrArg CallStage.command? hstage) (by rw [hproof]; rfl)
  | tell hstage | mismatch hstage | confirm hstage | erase hstage =>
    exact .ends (congrArg CallStage.command? hstage)

end KeyService

theorem Passage.ended {stage' : CallStage} {e : KeyEvent} {outcome : KeyOutcome}
    (h : Passage (.ended outcome) e stage') : stage' = .ended outcome := by
  cases h with
  | stay => rfl
  | away _ _ hopen => exact absurd rfl (hopen outcome)
  | ends hcommand => cases hcommand
  | next hcommand => cases hcommand
  | expires hcommand => cases hcommand

namespace KeyService

variable {s s' : KeyService} {now n m : Nat} {c c' d : KeyCall} {e : KeyEvent}
  {outcome : KeyOutcome}

/-! ## What leaves the calls where they are -/

/-- The calls have with the element what they had before, and new ones have nothing. -/
structure SameStandings (s s' : KeyService) : Prop where
  kept : ∀ n c, s.call? n = some c → ∃ c', s'.call? n = some c' ∧
    c'.stage.standing n = c.stage.standing n ∧
    ∀ outcome, c.stage = .ended outcome → c'.stage = .ended outcome
  new : ∀ n c', s'.call? n = some c' → c'.stage.standing n ≠ .idle →
    ∃ c, s.call? n = some c ∧ c'.stage.standing n = c.stage.standing n

theorem sameStandings_append (hcalls : s'.calls = s.calls ++ [d])
    (hidle : ∀ n, d.stage.standing n = .idle) : SameStandings s s' := by
  have hcases (m : Nat) (c : KeyCall) :
      s'.call? m = some c ↔ s.call? m = some c ∨ m = s.calls.length ∧ c = d := by
    rw [call?, hcalls]
    exact call?_append s d m
  refine ⟨?_, ?_⟩
  · exact fun m c hm => ⟨c, (hcases m c).mpr (.inl hm), rfl, fun _ hended => hended⟩
  · intro m c' hm hbusy
    rcases (hcases m c').mp hm with hm | ⟨-, rfl⟩
    · exact ⟨c', hm, rfl⟩
    · exact absurd (hidle m) hbusy

theorem sameStandings_put (hget : s.call? n = some c) (hstage : c'.stage = c.stage) :
    SameStandings s (s.put n c') := by
  refine ⟨?_, ?_⟩
  · intro m d hm
    by_cases hnm : n = m
    · subst hnm
      obtain rfl := Option.some.inj (hget.symm.trans hm)
      exact ⟨c', call?_put hget c', by rw [hstage], fun _ hended => hstage.trans hended⟩
    · exact ⟨d, (call?_put_of_ne s c' hnm).trans hm, rfl, fun _ hended => hended⟩
  · intro m d hm _
    by_cases hnm : n = m
    · subst hnm
      obtain rfl := Option.some.inj ((call?_put hget c').symm.trans hm)
      exact ⟨c, hget, by rw [hstage]⟩
    · exact ⟨d, (call?_put_of_ne s c' hnm).symm.trans hm, rfl⟩

theorem sameStandings_refl (s : KeyService) : SameStandings s s :=
  ⟨fun _ c hget => ⟨c, hget, rfl, fun _ hended => hended⟩, fun _ c' hget _ => ⟨c', hget, rfl⟩⟩

/-- What is neither an event nor a drop leaves the calls where they are. -/
theorem sameStandings_act {deed : KeyDeed} (hevent : ∀ now n e, deed ≠ .event now n e)
    (hkeep : ∀ n, deed ≠ .drop n) : SameStandings s (s.act deed) := by
  cases deed with
  | event now n e => exact absurd rfl (hevent now n e)
  | drop n => exact absurd rfl (hkeep n)
  | call request => exact sameStandings_append rfl fun _ => rfl
  | start command =>
    change SameStandings s ((s.start command).getD s)
    unfold start
    split
    case h_1 => exact sameStandings_refl s
    case h_2 => exact sameStandings_append rfl fun _ => rfl
  | take n =>
    change SameStandings s (s.take n).1
    rcases take_cases s n with ⟨hsame, -⟩ | ⟨c, outcome, hget, -, hsame | hsame⟩
    · rw [hsame]
      exact sameStandings_refl s
    · rw [hsame]
      exact sameStandings_refl s
    · rw [hsame]
      exact sameStandings_put hget rfl

/-! ## Calls that have ended -/

theorem stage_of_outcome? (h : c.outcome? = some outcome) : c.stage = .ended outcome := by
  cases hstage : c.stage <;> simp_all [KeyCall.outcome?]

theorem outcome?_of_stage (h : c.stage = .ended outcome) : c.outcome? = some outcome := by
  simp [KeyCall.outcome?, h]

/-- An event for a call that has ended changes nothing. -/
theorem step_of_ended (hget : s.call? n = some c) (hended : c.stage = .ended outcome)
    (now : Nat) (e : KeyEvent) : s.step now n e = s := by
  simp only [step, hget, stepCall, hended]
  cases e <;> rfl

/-- A call that has ended stays so. -/
theorem ended_act (hget : s.call? n = some c) (hended : c.stage = .ended outcome)
    (deed : KeyDeed) :
    ∃ c', (s.act deed).call? n = some c' ∧ c'.stage = .ended outcome := by
  have hquiet {s' : KeyService} (hsame : SameStandings s s') :
      ∃ c', s'.call? n = some c' ∧ c'.stage = .ended outcome := by
    obtain ⟨c', hget', -, hkept⟩ := hsame.kept n c hget
    exact ⟨c', hget', hkept outcome hended⟩
  cases deed with
  | event now m e =>
    change ∃ c', (s.step now m e).call? n = some c' ∧ c'.stage = .ended outcome
    cases hm : s.call? m with
    | none => exact ⟨c, by simpa [step, hm] using hget, hended⟩
    | some d =>
      obtain ⟨d', hmove, hm'⟩ := step_cases hm now e
      by_cases hmn : m = n
      · subst hmn
        obtain rfl := Option.some.inj (hm.symm.trans hget)
        have hpassage := hmove.passage
        rw [hended] at hpassage
        exact ⟨d', hm', hpassage.ended⟩
      · exact ⟨c, (hmove.call?_of_ne hmn).trans hget, hended⟩
  | drop m =>
    change ∃ c', (s.abandon m).call? n = some c' ∧ c'.stage = .ended outcome
    rcases abandon_cases s m with hsame | ⟨d, hm, hopen, hsame⟩
    · exact ⟨c, by rw [hsame]; exact hget, hended⟩
    · have hmn : m ≠ n := by
        rintro rfl
        obtain rfl := Option.some.inj (hm.symm.trans hget)
        simp [KeyCall.outcome?, hended] at hopen
      refine ⟨c, ?_, hended⟩
      rw [hsame]
      exact (call?_finish_of_ne _ _ _ hmn).trans hget
  | call request => exact hquiet (sameStandings_act (by simp) (by simp))
  | start command => exact hquiet (sameStandings_act (by simp) (by simp))
  | take m => exact hquiet (sameStandings_act (by simp) (by simp))

theorem ended_run (hget : s.call? n = some c) (hended : c.stage = .ended outcome)
    (deeds : List KeyDeed) :
    ∃ c', (s.run deeds).call? n = some c' ∧ c'.stage = .ended outcome := by
  refine run_induction (P := fun s => ∃ c, s.call? n = some c ∧ c.stage = .ended outcome)
    ⟨c, hget, hended⟩ ?_
  rintro s d - ⟨c, hget, hended⟩
  exact ended_act hget hended d

/-- Who has been handed out an outcome has ended. -/
theorem ended_of_take (h : (s.take n).2 ≠ none) :
    ∃ c outcome, s.call? n = some c ∧ c.stage = .ended outcome := by
  rcases take_cases s n with ⟨-, hnone⟩ | ⟨c, outcome, hget, hended, -⟩
  · exact absurd hnone h
  · exact ⟨c, outcome, hget, hended⟩

end KeyService
end VehicleGateway
