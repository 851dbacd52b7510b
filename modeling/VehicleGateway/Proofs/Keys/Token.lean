import Mathlib.Tactic.Push
import VehicleGateway.Proofs.Keys.ServiceRun

/-!
# The token of the key service

A single token keeps the calls of a key service apart.

* `Orderly` says that it is with one call at most, and that the others wait for it in line.
  `orderly_run` says that this holds whatever happens.
* `Coherent` says of each call with a command at the element why it has given it.
  `coherent_run` says that this holds, too.
-/

namespace VehicleGateway
namespace KeyService

variable {s s' : KeyService} {now n m : Nat} {c c' : KeyCall} {e : KeyEvent}
  {outcome : KeyOutcome}

/-- The token is with one call at most, and the others wait for it in line. -/
structure Orderly (s : KeyService) : Prop where
  /-- Who uses the token has it. -/
  active : ∀ n c, s.call? n = some c → c.stage.active = true → s.holder = some n
  /-- Who has the token is not in line, and uses it or is about to. -/
  holder : ∀ n, s.holder = some n → n ∉ s.waiting ∧
    ∃ c, s.call? n = some c ∧ (c.stage.active = true ∨ ∃ limit, c.stage = .queued limit)
  waiting : ∀ n ∈ s.waiting, ∃ c limit, s.call? n = some c ∧ c.stage = .queued limit
  distinct : s.waiting.Nodup

/-- At most one call uses the token. -/
theorem Orderly.eq_of_active (h : s.Orderly) (hn : s.call? n = some c) (hm : s.call? m = some c')
    (hc : c.stage.active = true) (hc' : c'.stage.active = true) : n = m :=
  Option.some.inj ((h.active n c hn hc).symm.trans (h.active m c' hm hc'))

/-- A call that has ended has no token. -/
theorem Orderly.holder_ne_of_ended (h : s.Orderly) (hget : s.call? n = some c)
    (hended : c.stage = .ended outcome) : s.holder ≠ some n := by
  intro hholder
  obtain ⟨-, c₀, hget₀, hstage⟩ := h.holder n hholder
  obtain rfl := Option.some.inj (hget.symm.trans hget₀)
  rcases hstage with hactive | ⟨limit, hqueued⟩
  · simp [hended, CallStage.active] at hactive
  · exact nomatch hended.symm.trans hqueued

/-- Only a call that is queued is in line. -/
theorem Orderly.not_mem_waiting (h : s.Orderly) (hget : s.call? n = some c)
    (hstage : ∀ limit, c.stage ≠ .queued limit) : n ∉ s.waiting := by
  intro hmem
  obtain ⟨c₀, limit, hget₀, hqueued⟩ := h.waiting n hmem
  obtain rfl := Option.some.inj (hget.symm.trans hget₀)
  exact hstage limit hqueued

theorem not_queued_of_active (h : c.stage.active = true) (limit : Nat) :
    c.stage ≠ .queued limit := by
  intro hqueued
  simp [hqueued, CallStage.active] at h

/-- The token does not depend on the notes. -/
theorem Orderly.withNotes (h : s.Orderly) (notes : Dictionary KeySlot SlotNote) :
    Orderly { s with notes } :=
  ⟨h.active, h.holder, h.waiting, h.distinct⟩

theorem Orderly.withIdentity (h : s.Orderly) (identity : Option ElementId) :
    Orderly { s with identity } :=
  ⟨h.active, h.holder, h.waiting, h.distinct⟩

/-- A call that keeps its place in the order. -/
theorem Orderly.put (h : s.Orderly) (hget : s.call? n = some c)
    (hactive : c'.stage.active = true → s.holder = some n)
    (hholder : s.holder = some n →
      c'.stage.active = true ∨ ∃ limit, c'.stage = .queued limit)
    (hwaiting : n ∈ s.waiting → ∃ limit, c'.stage = .queued limit) : (s.put n c').Orderly := by
  refine ⟨?_, ?_, ?_, h.distinct⟩
  · intro m d hm hd
    by_cases hnm : n = m
    · subst hnm
      obtain rfl := Option.some.inj ((call?_put hget c').symm.trans hm)
      exact hactive hd
    · rw [call?_put_of_ne _ _ hnm] at hm
      exact h.active m d hm hd
  · intro m hm
    obtain ⟨hout, d, hd, hstage⟩ := h.holder m hm
    refine ⟨hout, ?_⟩
    by_cases hnm : n = m
    · subst hnm
      exact ⟨c', call?_put hget c', hholder hm⟩
    · exact ⟨d, by rw [call?_put_of_ne _ _ hnm]; exact hd, hstage⟩
  · intro m hm
    by_cases hnm : n = m
    · subst hnm
      obtain ⟨limit, hlimit⟩ := hwaiting hm
      exact ⟨c', limit, call?_put hget c', hlimit⟩
    · rw [call?_put_of_ne _ _ hnm]
      exact h.waiting m hm

/-- A call that uses the token and goes on using it. -/
theorem Orderly.put_active (h : s.Orderly) (hget : s.call? n = some c)
    (hactive : c.stage.active = true) (hactive' : c'.stage.active = true) :
    (s.put n c').Orderly := by
  refine h.put hget (fun _ => h.active n c hget hactive) (fun _ => .inl hactive') ?_
  intro hmem
  exact absurd hmem (h.not_mem_waiting hget (not_queued_of_active hactive))

/-- The end of a call that is not in line.  Its token passes on to the first one there. -/
theorem Orderly.finish (h : s.Orderly) (hget : s.call? n = some c) (hout : n ∉ s.waiting)
    (c' : KeyCall) (outcome : KeyOutcome) : (s.finish n c' outcome).Orderly := by
  rw [finish_eq]
  split
  case isFalse hholder =>
    refine h.put hget ?_ (fun hn => absurd hn hholder) (fun hn => absurd hn hout)
    intro hactive
    simp [CallStage.active] at hactive
  case isTrue hholder =>
    have hnext : ∀ m ∈ s.waiting, ∃ d limit,
        (s.put n { c' with stage := .ended outcome }).release.call? m = some d ∧
          d.stage = .queued limit := by
      intro m hm
      have hnm : n ≠ m := fun hsame => hout (hsame ▸ hm)
      obtain ⟨d, limit, hd, hlimit⟩ := h.waiting m hm
      exact ⟨d, limit, (call?_put_of_ne s _ hnm).trans hd, hlimit⟩
    refine ⟨?_, ?_, ?_, h.distinct.tail⟩
    · intro m d hm hd
      by_cases hnm : n = m
      · subst hnm
        obtain rfl := Option.some.inj ((call?_put hget _).symm.trans hm)
        simp [CallStage.active] at hd
      · -- Nobody else was using the token.
        have hm' : s.call? m = some d := (call?_put_of_ne s _ hnm).symm.trans hm
        exact absurd (Option.some.inj (hholder.symm.trans (h.active m d hm' hd))) hnm
    · intro m hm
      obtain ⟨rest, hrest⟩ := List.head?_eq_some_iff.mp (show s.waiting.head? = some m from hm)
      have hdistinct := h.distinct
      rw [hrest] at hdistinct
      obtain ⟨d, limit, hd, hlimit⟩ := hnext m (by rw [hrest]; exact List.mem_cons_self)
      refine ⟨?_, d, hd, .inr ⟨limit, hlimit⟩⟩
      change m ∉ s.waiting.tail
      rw [hrest]
      exact (List.nodup_cons.mp hdistinct).1
    · exact fun m hm => hnext m (List.mem_of_mem_tail hm)

/-- The end of a call that uses the token, or does not wait for it yet. -/
theorem Orderly.finish_unqueued (h : s.Orderly) (hget : s.call? n = some c)
    (hstage : ∀ limit, c.stage ≠ .queued limit) (c' : KeyCall) (outcome : KeyOutcome) :
    (s.finish n c' outcome).Orderly :=
  h.finish hget (h.not_mem_waiting hget hstage) c' outcome

/-- Who has the token has come past its start. -/
theorem Orderly.holder_ne_of_entering (h : s.Orderly) (hget : s.call? n = some c)
    (hstage : c.stage = .entering) : s.holder ≠ some n := by
  intro hholder
  obtain ⟨-, c₀, hget₀, hactive | ⟨limit, hqueued⟩⟩ := h.holder n hholder
  · obtain rfl := Option.some.inj (hget.symm.trans hget₀)
    simp [hstage, CallStage.active] at hactive
  · obtain rfl := Option.some.inj (hget.symm.trans hget₀)
    exact nomatch hstage.symm.trans hqueued

/-- A call takes the token, which is free. -/
theorem Orderly.seize (h : s.Orderly) (hget : s.call? n = some c) (hstage : c.stage = .entering)
    (hfree : s.holder = none) (hactive : c'.stage.active = true) :
    Orderly ({ s with holder := some n }.put n c') := by
  have hout : n ∉ s.waiting := h.not_mem_waiting hget (by simp [hstage])
  have hnew := call?_put (s := { s with holder := some n }) hget c'
  refine ⟨?_, ?_, ?_, h.distinct⟩
  · intro m d hm hd
    by_cases hnm : n = m
    · exact congrArg some hnm
    · rw [call?_put_of_ne _ _ hnm] at hm
      have hheld := h.active m d hm hd
      rw [hfree] at hheld
      cases hheld
  · intro m hm
    obtain rfl := Option.some.inj hm
    exact ⟨hout, _, hnew, .inl hactive⟩
  · intro m hm
    have hnm : n ≠ m := fun hsame => hout (hsame ▸ hm)
    rw [call?_put_of_ne _ _ hnm]
    exact h.waiting m hm

/-- A call gets in line behind the others. -/
theorem Orderly.line (h : s.Orderly) (hget : s.call? n = some c) (hstage : c.stage = .entering)
    {limit : Nat} (hqueued : c'.stage = .queued limit) :
    Orderly ({ s with waiting := s.waiting ++ [n] }.put n c') := by
  have hout : n ∉ s.waiting := h.not_mem_waiting hget (by simp [hstage])
  have hother (m : Nat) (hm : m ∈ s.waiting) : n ≠ m := fun hsame => hout (hsame ▸ hm)
  have hnew := call?_put (s := { s with waiting := s.waiting ++ [n] }) hget c'
  refine ⟨?_, ?_, ?_, ?_⟩
  · intro m d hm hd
    by_cases hnm : n = m
    · subst hnm
      obtain rfl := Option.some.inj (hnew.symm.trans hm)
      simp [hqueued, CallStage.active] at hd
    · rw [call?_put_of_ne _ _ hnm] at hm
      exact h.active m d hm hd
  · intro m hm
    have hnm : n ≠ m := by
      rintro rfl
      exact h.holder_ne_of_entering hget hstage hm
    obtain ⟨hm', d, hd, hd'⟩ := h.holder m hm
    refine ⟨?_, d, by rw [call?_put_of_ne _ _ hnm]; exact hd, hd'⟩
    change m ∉ s.waiting ++ [n]
    simp [hm', Ne.symm hnm]
  · intro m hm
    change m ∈ s.waiting ++ [n] at hm
    rcases List.mem_append.mp hm with hm | hm
    · rw [call?_put_of_ne _ _ (hother m hm)]
      exact h.waiting m hm
    · obtain rfl := List.mem_singleton.mp hm
      exact ⟨_, limit, hnew, hqueued⟩
  · change (s.waiting ++ [n]).Nodup
    simpa [List.nodup_append, h.distinct] using fun m hm => Ne.symm (hother m hm)

theorem Orderly.erase (h : s.Orderly) (n : Nat) :
    Orderly { s with waiting := s.waiting.erase n } := by
  refine ⟨h.active, ?_, ?_, h.distinct.erase n⟩
  · intro m hm
    obtain ⟨hout, hcall⟩ := h.holder m hm
    exact ⟨fun hmem => hout (List.mem_of_mem_erase hmem), hcall⟩
  · exact fun m hm => h.waiting m (List.mem_of_mem_erase hm)

theorem Orderly.proceeds {c₀ : KeyCall} (h : s.Orderly) (hget : s.call? n = some c₀)
    (hactive : c₀.stage.active = true) (hproceeds : s.Proceeds n c c' s') : s'.Orderly := by
  cases hproceeds with
  | ends => exact h.finish_unqueued hget (not_queued_of_active hactive) _ _
  | gives _ hcommand => exact h.put_active hget hactive (CallStage.active_of_command? hcommand)

/-- An event keeps the order. -/
theorem Orderly.move (h : s.Orderly) (hget : s.call? n = some c) (hmove : Move s now n c e c' s') :
    s'.Orderly := by
  -- A call that has not ended and is not in line either uses the token or has not asked for it.
  have hends (c' : KeyCall) (outcome : KeyOutcome) (hactive : c.stage.active = true) :
      (s.finish n c' outcome).Orderly :=
    h.finish_unqueued hget (not_queued_of_active hactive) c' outcome
  cases hmove with
  | stay => exact h
  | @note slot key counter hstage =>
    have hnoted := h.withNotes (s.notes.insert slot ⟨counter, key⟩)
    exact hnoted.finish_unqueued hget (by simp [hstage]) _ _
  | decline hstage =>
    refine h.finish_unqueued hget ?_ _ _
    rcases hstage with hstage | hstage <;> simp [hstage]
  | seize hstage _ hfree => exact h.seize hget hstage hfree rfl
  | line hstage => exact h.line hget hstage rfl
  | grant hstage hholder =>
    refine h.put hget (fun _ => hholder) (fun _ => .inl rfl) ?_
    exact fun hmem => absurd hmem (h.holder n hholder).1
  | giveUp hstage hholder =>
    refine (h.erase n).finish hget ?_ _ _
    exact List.Nodup.not_mem_erase h.distinct
  | use hstage _ hproceeds => exact h.proceeds hget (by rw [hstage]; rfl) hproceeds
  | expire hcommand => exact h.put_active hget (CallStage.active_of_command? hcommand) rfl
  | stopped hstage => exact hends _ _ (by rw [hstage]; rfl)
  | fail hcommand => exact hends _ _ (CallStage.active_of_command? hcommand)
  | tell hstage => exact hends _ _ (by rw [hstage]; rfl)
  | @name element status mac c' s' hstage hproceeds =>
    exact (h.withIdentity (some element)).proceeds hget (by rw [hstage]; rfl) hproceeds
  | answer hstage hproof => exact h.put_active hget (by rw [hstage]; rfl) (by rw [hproof]; rfl)
  | mismatch hstage => exact hends _ _ (by rw [hstage]; rfl)
  | @confirm element order receipt slot key counter flags hstage =>
    have hnoted := h.withNotes (s.notes.insert slot ⟨counter, some key⟩)
    exact hnoted.finish_unqueued hget (by simp [hstage]) _ _
  | erase hstage => exact (h.withNotes ∅).finish_unqueued hget (by simp [hstage]) _ _

theorem Orderly.addCall (h : s.Orderly) (request : KeyRequest) :
    (s.addCall request).Orderly := by
  have hcases (m : Nat) (d : KeyCall) :
      (s.addCall request).call? m = some d ↔
        s.call? m = some d ∨ m = s.calls.length ∧ d = { request } :=
    call?_append s { request } m
  refine ⟨?_, ?_, ?_, h.distinct⟩
  · intro m d hm hd
    rcases (hcases m d).mp hm with hm | ⟨-, rfl⟩
    · exact h.active m d hm hd
    · simp [CallStage.active] at hd
  · intro m hm
    obtain ⟨hout, d, hd, hstage⟩ := h.holder m hm
    exact ⟨hout, d, (hcases m d).mpr (.inl hd), hstage⟩
  · intro m hm
    obtain ⟨d, limit, hd, hlimit⟩ := h.waiting m hm
    exact ⟨d, limit, (hcases m d).mpr (.inl hd), hlimit⟩

theorem Orderly.start (h : s.Orderly) {command : Command}
    (hstart : s.start command = some s') : s'.Orderly := by
  unfold KeyService.start at hstart
  split at hstart
  case h_1 => cases hstart
  case h_2 hfree =>
    obtain rfl := Option.some.inj hstart
    have hcases (m : Nat) (d : KeyCall) := call?_append (c := d) s
      { request := .ask command .anything, stage := .granted } m
    refine ⟨?_, ?_, ?_, h.distinct⟩
    · intro m d hm hd
      rcases (hcases m d).mp hm with hm | ⟨rfl, -⟩
      · have hheld := h.active m d hm hd
        rw [hfree] at hheld
        cases hheld
      · rfl
    · intro m hm
      obtain rfl := Option.some.inj hm
      refine ⟨?_, _, (hcases _ _).mpr (.inr ⟨rfl, rfl⟩), .inl rfl⟩
      intro hmem
      obtain ⟨d, limit, hd, -⟩ := h.waiting _ hmem
      exact Nat.lt_irrefl _ (lt_of_call? hd)
    · intro m hm
      obtain ⟨d, limit, hd, hlimit⟩ := h.waiting m hm
      exact ⟨d, limit, (hcases m d).mpr (.inl hd), hlimit⟩

theorem Orderly.take (h : s.Orderly) (n : Nat) : (s.take n).1.Orderly := by
  rcases take_cases s n with ⟨hsame, -⟩ | ⟨c, outcome, hget, hended, hsame | hsame⟩
  · rwa [hsame]
  · rwa [hsame]
  · have hactive : c.stage.active = false := by rw [hended]; rfl
    rw [hsame]
    refine h.put hget (by simp [hactive]) ?_ ?_
    · exact fun hholder => absurd hholder (h.holder_ne_of_ended hget hended)
    · exact fun hmem => absurd hmem (h.not_mem_waiting hget (by simp [hended]))

theorem Orderly.abandon (h : s.Orderly) (n : Nat) : (s.abandon n).Orderly := by
  rcases abandon_cases s n with hsame | ⟨c, hget, -, hsame⟩
  · rwa [hsame]
  · rw [hsame]
    exact (h.erase n).finish hget (List.Nodup.not_mem_erase h.distinct) _ _

theorem Orderly.act (h : s.Orderly) (d : KeyDeed) : (s.act d).Orderly := by
  cases d with
  | call request => exact h.addCall request
  | start command =>
    change ((s.start command).getD s).Orderly
    cases hstart : s.start command with
    | none => exact h
    | some s' => exact h.start hstart
  | event now n e =>
    change (s.step now n e).Orderly
    cases hget : s.call? n with
    | none => simpa [step, hget] using h
    | some c =>
      obtain ⟨c', hmove, -⟩ := step_cases hget now e
      exact h.move hget hmove
  | take n => exact h.take n
  | drop n => exact h.abandon n

theorem orderly_new (timeout : Nat) : Orderly { timeout } := by
  refine ⟨?_, ?_, ?_, List.nodup_nil⟩
  · intro n c hget
    cases hget
  · intro n hholder
    cases hholder
  · intro n hmem
    cases hmem

/-- Whatever happens to a new service, the token is with one call at most. -/
theorem orderly_run (timeout : Nat) (deeds : List KeyDeed) :
    (run { timeout } deeds).Orderly :=
  run_induction (orderly_new timeout) fun _ d _ h => h.act d

/-! ## Why a command is with the element -/

/-- The token is in order, and each call has a reason for what it has given to the element. -/
structure Coherent (s : KeyService) : Prop where
  orderly : s.Orderly
  brings : ∀ n c, s.call? n = some c → Brings s.identity c c.stage

/-- The reason does not lie in the stage of the call. -/
theorem brings_withStage {identity : Option ElementId} (c : KeyCall) (stage stage' : CallStage) :
    Brings identity { c with stage := stage' } stage ↔ Brings identity c stage := by
  cases stage <;> rfl

/-- A call that has given nothing to the element needs no reason. -/
theorem brings_of_no_command {identity : Option ElementId} {stage : CallStage} (c : KeyCall)
    (h : stage.command? = none) : Brings identity c stage := by
  cases stage <;> trivial

theorem Proceeds.identity_eq (h : s.Proceeds n c c' s') : s'.identity = s.identity := by
  cases h with
  | ends => exact identity_finish _ _ _ _
  | gives => rfl

theorem Proceeds.brings (h : s.Proceeds n c c' s') : Brings s'.identity c' c'.stage := by
  rw [h.identity_eq]
  cases h with
  | ends => trivial
  | gives stage _ hbrings => exact (brings_withStage c stage stage).mpr hbrings

/-- The identity of the element becomes known to the call that asks for it, and else stays. -/
theorem Move.identity_eq (h : Move s now n c e c' s') (hstage : c.stage ≠ .naming) :
    s'.identity = s.identity := by
  cases h with
  | use _ _ hproceeds => exact hproceeds.identity_eq
  | name hnaming => exact absurd hnaming hstage
  | stay | seize | line | grant | expire | answer => rfl
  | _ => exact identity_finish _ _ _ _

/-- After an event a call has a reason for what it has given to the element. -/
theorem Move.brings (h : Move s now n c e c' s') (hbrings : Brings s.identity c c.stage) :
    Brings s'.identity c' c'.stage := by
  cases h with
  | stay => exact hbrings
  | use _ _ hproceeds => exact hproceeds.brings
  | name _ hproceeds => exact hproceeds.brings
  | answer hstage hproof =>
    rw [hstage] at hbrings
    rw [hproof]
    exact hbrings.2
  | _ => trivial

theorem Coherent.move (h : s.Coherent) (hget : s.call? n = some c)
    (hmove : Move s now n c e c' s') : s'.Coherent := by
  refine ⟨h.orderly.move hget hmove, ?_⟩
  intro m d hm
  by_cases hnm : n = m
  · subst hnm
    obtain rfl := Option.some.inj ((hmove.call?_eq hget).symm.trans hm)
    exact hmove.brings (h.brings n c hget)
  · rw [hmove.call?_of_ne hnm] at hm
    have hold := h.brings m d hm
    by_cases hstage : c.stage = .naming
    · -- The call that asks for the identity has the token, so no other has given a command.
      refine brings_of_no_command d (Option.eq_none_iff_forall_ne_some.mpr ?_)
      intro command hcommand
      exact hnm (h.orderly.eq_of_active hget hm (by rw [hstage]; rfl)
        (CallStage.active_of_command? hcommand))
    · rw [hmove.identity_eq hstage]
      exact hold

/-- What is done without the element gives nothing to it. -/
theorem Coherent.aside (h : s.Coherent) (horderly : s'.Orderly) (haside : Aside s s') :
    s'.Coherent := by
  refine ⟨horderly, ?_⟩
  intro m d hm
  rw [haside.identity]
  rcases haside.calls m d hm with hold | ⟨hnone, -⟩
  · exact h.brings m d hold
  · exact brings_of_no_command d hnone

theorem Coherent.act (h : s.Coherent) (d : KeyDeed) : (s.act d).Coherent := by
  by_cases hquiet : ∀ now n e, d ≠ .event now n e
  · exact h.aside (h.orderly.act d) (aside_act hquiet)
  · push Not at hquiet
    obtain ⟨now, n, e, rfl⟩ := hquiet
    change (s.step now n e).Coherent
    cases hget : s.call? n with
    | none => simpa [step, hget] using h
    | some c =>
      obtain ⟨c', hmove, -⟩ := step_cases hget now e
      exact h.move hget hmove

theorem coherent_new (timeout : Nat) : Coherent { timeout } := by
  refine ⟨orderly_new timeout, ?_⟩
  intro n c hget
  cases hget

/-- Whatever happens to a new service, each call has a reason for what it gives to the element. -/
theorem coherent_run (timeout : Nat) (deeds : List KeyDeed) :
    (run { timeout } deeds).Coherent :=
  run_induction (coherent_new timeout) fun _ d _ h => h.act d

end KeyService
end VehicleGateway
