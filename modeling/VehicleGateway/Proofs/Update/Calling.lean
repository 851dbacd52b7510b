import VehicleGateway.Proofs.Keys.Passing
import VehicleGateway.Proofs.Update.Turns

/-!
# A session that asks the key service

A dialogue needs the element for two things, the verdict on a tag and a cipher text.  For both its
session makes a call that passes a command on, and carries the call to its end.

* `Dialogue.question?` is the command that the call passes on.
* `KeyHelp` says what the keys and their users do for it while the dialogue waits.
* `Pending` says that the call is under way at a turn, and `Pending.ends` that it comes to its end.
* `KeyHelp.answer_comes` is the whole: the dialogue is told the answer of the element.
-/

namespace VehicleGateway

/-- What a dialogue has the key service pass on to the element. -/
def Dialogue.question? (d : Dialogue) (slot : KeySlot) : Option (Command × Want) :=
  match d.phase with
  | .checking header image => some (.checkMac slot image header.tag, .verdict)
  | .encrypting _ chunk => some (.encryptChain slot Block.zero (chunk ++ d.challenge), .data)
  | _ => none

theorem Dialogue.question?_of_checking (slot : KeySlot) {d : Dialogue} {header : FirmwareHeader}
    {image : Bytes} (hphase : d.phase = .checking header image) :
    d.question? slot = some (.checkMac slot image header.tag, .verdict) := by
  simp only [question?, hphase]

theorem Dialogue.question?_of_encrypting (slot : KeySlot) {d : Dialogue} {used : Nat}
    {chunk : Bytes} (hphase : d.phase = .encrypting used chunk) :
    d.question? slot =
      some (.encryptChain slot Block.zero (chunk ++ d.challenge), .data) := by
  simp only [question?, hphase]

namespace Session

variable {σ : Type} [Storage σ]

/-- While a dialogue stands as it does, the element answers a command, and others neither keep the
token from the session's call nor touch it. -/
structure KeyHelp (c : FirmwareConfig) (s : Session) (w : Nat → World σ) (d : Dialogue)
    (command : Command) (r : Response) : Prop where
  replies : ∀ i, (s.turn c w i).dialogue = d →
    ∃ vault, (w i).keys = some vault ∧ vault.Replies command r
  /-- Nothing is under way for calls that were not made. -/
  idle : ∀ i vault n, (s.turn c w i).dialogue = d → (w i).keys = some vault →
    vault.service.calls.length ≤ n → vault.underWay.get? n = none
  token : ∀ i n vault, (s.turn c w i).dialogue = d → (s.turn c w i).doing = .calling n →
    (w i).keys = some vault → vault.TokenInTime (w i).now n
  untouched : ∀ i n vault vault', (s.turn c w (i + 1)).dialogue = d →
    (s.turn c w (i + 1)).doing = .calling n → (s.left c w i).keys = some vault →
      (w (i + 1)).keys = some vault' → vault.Untouched n vault'

/-- What a call is told that is answered as it should be. -/
def IsAnswer (r : Response) (outcome : KeyOutcome) : Prop :=
  outcome = .ok (.response r)

/-- At a turn the session's call is under way. -/
structure Pending (c : FirmwareConfig) (s : Session) (w : Nat → World σ) (d : Dialogue)
    (command : Command) (want : Want) (r : Response) (n k : Nat) (v : Vault) : Prop where
  dialogue : (s.turn c w k).dialogue = d
  doing : (s.turn c w k).doing = .calling n
  keys : (w k).keys = some v
  call : v.Awaits n command want (IsAnswer r)

variable {c : FirmwareConfig} {s : Session} {w : Nat → World σ} {d : Dialogue} {command : Command}
  {want : Want} {r : Response} {n i k : Nat} {v : Vault}

/-- A call that the session has left on its way is on its way at the next turn. -/
theorem KeyHelp.pending (h : KeyHelp c s w d command r)
    (hdialogue : (s.turn c w (k + 1)).dialogue = d) (hdoing : (s.turn c w (k + 1)).doing = .calling n)
    (hleft : (s.left c w k).keys = some v) (hcall : v.Awaits n command want (IsAnswer r)) :
    ∃ v', Pending c s w d command want r n (k + 1) v' ∧ v.Untouched n v' := by
  obtain ⟨v', hkeys, -⟩ := h.replies (k + 1) hdialogue
  have htouch := h.untouched k n v v' hdialogue hdoing hleft hkeys
  exact ⟨v', ⟨hdialogue, hdoing, hkeys, htouch.awaits hcall⟩, htouch⟩

/-- The session takes up the outcome of its call, or carries it on. -/
theorem Pending.step? (hcall : Pending c s w d command want r n k v) :
    (s.turn c w k).step? c (w k) =
      ((v.outcome? n).map fun outcome => (w k, (s.turn c w k).tell (ofKeys outcome))).or
        ((v.step? (w k).now n).map fun v' =>
          ({ (w k) with keys := some v' }, s.turn c w k)) := by
  cases houtcome : v.outcome? n <;> simp [Session.step?, hcall.doing, hcall.keys, houtcome]

/-- A call does not wait forever, and while it waits it comes no closer to its end. -/
theorem Pending.moves (hcall : Pending c s w d command want r n k v)
    (h : KeyHelp c s w d command r) (htime : TimePasses w) :
    ∃ j v', k ≤ j ∧ Pending c s w d command want r n j v' ∧ v'.work n = v.work n ∧
      (∀ l, k ≤ l → l ≤ j → (s.turn c w l).dialogue = d) ∧
      (s.turn c w j).step? c (w j) ≠ none := by
  -- What stays while the call waits: it has the same work to do, and waits for the same time.
  let Waits (k' : Nat) : Prop :=
    (∃ v', Pending c s w d command want r n k' v' ∧ v'.work n = v.work n ∧ v'.due? n = v.due? n) ∧
      ∀ l, k ≤ l → l ≤ k' → (s.turn c w l).dialogue = d
  have hstart : Waits k := by
    refine ⟨⟨v, hcall, rfl, rfl⟩, ?_⟩
    intro l hkl hlk
    obtain rfl := Nat.le_antisymm hkl hlk
    exact hcall.dialogue
  have hstay : ∀ k', k ≤ k' → Waits k' → (s.turn c w k').step? c (w k') = none →
      Waits (k' + 1) := by
    rintro k' - ⟨⟨v', hcall', hwork, hdue⟩, hbefore⟩ hwait
    obtain ⟨hsame, hleft⟩ := turn_wait hwait
    obtain ⟨v'', hcall'', htouch⟩ := h.pending (by rw [hsame]; exact hcall'.dialogue)
      (by rw [hsame]; exact hcall'.doing) (by rw [hleft]; exact hcall'.keys) hcall'.call
    refine ⟨⟨v'', hcall'', htouch.work_eq.trans hwork, htouch.due?_eq.trans hdue⟩, ?_⟩
    intro l hkl hl
    rcases Nat.lt_or_eq_of_le hl with hlt | rfl
    · exact hbefore l hkl (by omega)
    · exact hcall''.dialogue
  have hgo : ∀ k', k ≤ k' → Waits k' → (v.due? n).getD 0 ≤ (w k').now →
      (s.turn c w k').step? c (w k') ≠ none := by
    rintro k' - ⟨⟨v', hcall', -, hdue⟩, -⟩ hnow
    rw [hcall'.step?]
    cases houtcome : v'.outcome? n with
    | some outcome => simp
    | none =>
      obtain ⟨v'', hv''⟩ := Vault.awaits_goes_on hcall'.call
        (h.token k' n v' hcall'.dialogue hcall'.doing hcall'.keys) houtcome (by
          intro later hlater
          rw [hdue] at hlater
          simpa [hlater] using hnow)
      simp [hv'']
  obtain ⟨j, hkj, ⟨⟨v', hcall', hwork, -⟩, hbefore⟩, hmoves⟩ :=
    htime.goes_on ((v.due? n).getD 0) hstart hstay hgo
  exact ⟨j, v', hkj, hcall', hwork, hbefore, hmoves⟩

/-- A call ends, and the dialogue is told the answer. -/
theorem Pending.ends (hcall : Pending c s w d command want r n k v)
    (h : KeyHelp c s w d command r) (htime : TimePasses w) (hfits : want.fits r = true) :
    ∃ j, k < j ∧ s.Ready c w j (d.hear (ofKeys (.ok (.response r)))) ∧
      ∀ l, k ≤ l → l < j → (s.turn c w l).dialogue = d := by
  -- The call comes closer to its end with each of its steps.
  induction hleft : v.work n using Nat.strong_induction_on generalizing k v with
  | _ work ih =>
    obtain ⟨j, v', hkj, hcall', hwork, hbefore, hmoves⟩ := hcall.moves h htime
    have hstep := hcall'.step?
    cases houtcome : v'.outcome? n with
    | some outcome =>
      have htold : IsAnswer r outcome := Vault.told_of_awaits hcall'.call houtcome
      obtain rfl : outcome = .ok (.response r) := htold
      simp only [houtcome, Option.map_some, Option.some_or] at hstep
      exact ⟨j + 1, by omega, ready_of_tell hstep hcall'.dialogue,
        fun l hkl hl => hbefore l hkl (by omega)⟩
    | none =>
      cases hvault : v'.step? (w j).now n with
      | none =>
        simp only [houtcome, hvault, Option.map_none, Option.none_or] at hstep
        exact absurd hstep hmoves
      | some v'' =>
        simp only [houtcome, hvault, Option.map_none, Option.map_some, Option.none_or] at hstep
        obtain ⟨hsame, hnow⟩ := turn_succ hstep
        obtain ⟨v₁, hv₁, hreplies⟩ := h.replies j hcall'.dialogue
        obtain rfl : v' = v₁ := Option.some.inj (hcall'.keys.symm.trans hv₁)
        have hright : IsAnswer r (.ok (.response r)) := rfl
        obtain ⟨hawaits, hless⟩ := Vault.step?_awaits hcall'.call hreplies hfits hright
          (h.token j n v' hcall'.dialogue hcall'.doing hcall'.keys) hvault
        obtain ⟨v₂, hcall₂, htouch⟩ := h.pending (by rw [hsame]; exact hcall'.dialogue)
          (by rw [hsame]; exact hcall'.doing) (by rw [hnow]) hawaits
        have hcloser : v₂.work n < work := by
          rw [htouch.work_eq, ← hleft, ← hwork]
          exact hless
        obtain ⟨j', hj', hreached, hafter⟩ := ih (v₂.work n) hcloser hcall₂ rfl
        refine ⟨j', by omega, hreached, ?_⟩
        intro l hkl hl
        by_cases hlj : l ≤ j
        · exact hbefore l hkl hlj
        · exact hafter l (by omega) hl

omit [Storage σ] in
/-- A session with a call has a dialogue that needs the element. -/
theorem Coherent.exists_question (h : s.Coherent) (slot : KeySlot)
    (hcalling : s.doing = .calling n) :
    ∃ command want, s.dialogue.question? slot = some (command, want) := by
  unfold Coherent at h
  rw [hcalling] at h
  cases hphase : s.dialogue.phase with
  | checking header image => exact ⟨_, _, Dialogue.question?_of_checking slot hphase⟩
  | encrypting used chunk => exact ⟨_, _, Dialogue.question?_of_encrypting slot hphase⟩
  | _ => simp [hphase] at h

/-- A session whose dialogue needs the element calls the key service. -/
theorem turn_asks {x : World σ} (hready : s.doing = .ready)
    (hquestion : s.dialogue.question? c.updateKey = some (command, want)) :
    s.step? c x = some (s.call x command want) := by
  unfold Dialogue.question? at hquestion
  split at hquestion
  case h_1 header image hphase =>
    obtain ⟨rfl, rfl⟩ := Prod.mk.inj (Option.some.inj hquestion)
    simp [Session.step?, hready, Dialogue.wish?, hphase, turnTo]
  case h_2 used chunk hphase =>
    obtain ⟨rfl, rfl⟩ := Prod.mk.inj (Option.some.inj hquestion)
    simp [Session.step?, hready, Dialogue.wish?, hphase, turnTo]
  case h_3 => cases hquestion

/-- A dialogue that needs the element is told its answer. -/
theorem KeyHelp.answer_comes (h : KeyHelp c s w d command r) (htime : TimePasses w)
    (hready : s.Ready c w i d) (hquestion : d.question? c.updateKey = some (command, want))
    (hfits : want.fits r = true) :
    ∃ j, i < j ∧ s.Ready c w j (d.hear (ofKeys (.ok (.response r)))) ∧
      ∀ l, i ≤ l → l < j → (s.turn c w l).dialogue = d := by
  obtain ⟨vault, hvault, -⟩ := h.replies i hready.1
  have hstep := turn_asks (x := w i) hready.2 (by rw [hready.1]; exact hquestion)
  simp only [call, hvault] at hstep
  obtain ⟨hnext, hleft⟩ := turn_succ hstep
  obtain ⟨v, hcall, -⟩ := h.pending (k := i) (by rw [hnext]; exact hready.1) (by rw [hnext])
    (by rw [hleft]) (Vault.awaits_addCall command want _ (h.idle i vault _ hready.1 hvault le_rfl))
  obtain ⟨j, hj, hreached, hbefore⟩ := hcall.ends h htime hfits
  refine ⟨j, by omega, hreached, ?_⟩
  intro l hil hl
  rcases Nat.eq_or_lt_of_le hil with rfl | hlt
  · exact hready.1
  · exact hbefore l hlt hl

/-- A session calls the key service only in order to use it. -/
theorem calling_of_step {s s' : Session} {x x' : World σ}
    (hstep : s.step? c x = some (x', s')) (hcalling : s'.doing = .calling n)
    (hquestion : s'.dialogue.question? c.updateKey = some (command, want)) :
    (s.doing = .ready ∧ s.dialogue = s'.dialogue ∧ ∃ vault, x.keys = some vault ∧
        n = vault.service.calls.length ∧ x'.keys = some (vault.addCall (.ask command want))) ∨
      (s' = s ∧ ∃ vault vault', x.keys = some vault ∧ vault.outcome? n = none ∧
        vault.step? x.now n = some vault' ∧ x'.keys = some vault') := by
  -- Whoever turns to a call has made it for what the dialogue needs.
  have hcalled (given : Command) (form : Want)
      (hnext : s.call x given form = (x', s')) (hready : s.doing = .ready)
      (hgiven : s.dialogue.question? c.updateKey = some (given, form)) :
      s.doing = .ready ∧ s.dialogue = s'.dialogue ∧ ∃ vault, x.keys = some vault ∧
        n = vault.service.calls.length ∧ x'.keys = some (vault.addCall (.ask command want)) := by
    unfold call at hnext
    split at hnext
    case h_1 =>
      obtain ⟨-, rfl⟩ := Prod.mk.inj hnext
      cases hcalling
    case h_2 vault hkeys =>
      obtain ⟨rfl, rfl⟩ := Prod.mk.inj hnext
      obtain ⟨rfl, rfl⟩ := Prod.mk.inj (Option.some.inj (hgiven.symm.trans hquestion))
      obtain rfl := Doing.calling.inj hcalling
      exact ⟨hready, rfl, vault, hkeys, rfl, rfl⟩
  cases step?_cases hstep with
  | turn wish hdoing hwish =>
    cases hphase : s.dialogue.phase with
    | checking header image =>
      obtain rfl : Wish.verdict image header.tag = wish := by
        simpa [Dialogue.wish?, hphase] using hwish
      exact .inl (hcalled _ _ rfl hdoing (Dialogue.question?_of_checking c.updateKey hphase))
    | encrypting used chunk =>
      obtain rfl : Wish.cipher (chunk ++ s.dialogue.challenge) = wish := by
        simpa [Dialogue.wish?, hphase] using hwish
      exact .inl (hcalled _ _ rfl hdoing (Dialogue.question?_of_encrypting c.updateKey hphase))
    | sending frame payload =>
      obtain rfl : Wish.send frame.code payload = wish := by
        simpa [Dialogue.wish?, hphase] using hwish
      simp only [turnTo] at hcalling
      split at hcalling <;> cases hcalling
    | ended result => simp [Dialogue.wish?, hphase] at hwish
    | _ =>
      simp only [Dialogue.wish?, hphase, Option.some.injEq] at hwish
      subst hwish
      cases hcalling
  | carry hdoing hkeys hopen hvault =>
    obtain rfl := Doing.calling.inj (hdoing.symm.trans hcalling)
    exact .inr ⟨rfl, _, _, hkeys, hopen, hvault, rfl⟩
  | take hdoing =>
    split at hcalling
    case isTrue => cases hcalling
    case isFalse => simp [hdoing] at hcalling
  | _ => cases hcalling

end Session
end VehicleGateway
