import Mathlib.Data.List.Induction
import VehicleGateway.Proofs.Keys.Retention

/-!
# Who can erase the keys of an element

All keys are erased for the right answer to a challenge, and by nothing else.  An element has at most
one challenge open: the last one that it drew, until the first answer, right or wrong, or until
something is cancelled.

* `Unanswered` says of what was seen of an element that a challenge is open, and
  `challenge_eq_some_iff` that the element sees it in the same way.
* `authorized_iff` says which answer is right.
* `isErase_of_emptied` says that a key is lost to nothing else.
* `debugging_guarded` is the whole, for every run of an element.
-/

namespace VehicleGateway

/-- Whether a challenge that was open before an event is open after it. -/
def ElementEvent.passes : ElementEvent → Bool
  | .answered .debugChallenge _ | .answered (.debugAuthorize _) _ | .cancelled => false
  | _ => true

/-- A challenge was drawn, and since then no other one was drawn, none was answered, and nothing was
cancelled. -/
def Unanswered (history : List ElementEvent) (challenge : Block) : Prop :=
  ∃ before after,
    history = before ++ .answered .debugChallenge (.ok (.challenge challenge)) :: after ∧
      ∀ event ∈ after, event.passes = true

theorem unanswered_concat_iff {history : List ElementEvent} {event : ElementEvent}
    {challenge : Block} : Unanswered (history ++ [event]) challenge ↔
      event = .answered .debugChallenge (.ok (.challenge challenge)) ∨
        (event.passes = true ∧ Unanswered history challenge) := by
  constructor
  · rintro ⟨before, after, hsplit, hpass⟩
    rcases List.eq_nil_or_concat after with rfl | ⟨middle, last, rfl⟩
    · exact .inl (List.append_singleton_inj.mp hsplit).2
    · rw [List.concat_eq_append, ← List.cons_append, ← List.append_assoc] at hsplit
      obtain ⟨hhistory, rfl⟩ := List.append_singleton_inj.mp hsplit
      exact .inr ⟨hpass _ (by simp), before, middle, hhistory,
        fun event hevent => hpass event (by simp [hevent])⟩
  · rintro (rfl | ⟨hpasses, before, after, rfl, hpass⟩)
    · exact ⟨history, [], rfl, by simp⟩
    · refine ⟨before, after ++ [event], by simp, ?_⟩
      intro event' hevent'
      rcases List.mem_append.mp hevent' with hafter | hlast
      · exact hpass event' hafter
      · rwa [List.mem_singleton.mp hlast]

namespace Element

variable {e e' : Element} {c : Command} {r : Except ElementFault Response} {challenge : Block}
  {a : ElementAction}

/-! ## The open challenge -/

theorem Carried.challenge_eq_some_iff (h : e.Carried c e' r) : e'.challenge = some challenge ↔
    ElementEvent.answered c r = .answered .debugChallenge (.ok (.challenge challenge)) ∨
      ((ElementEvent.answered c r).passes = true ∧ e.challenge = some challenge) := by
  cases h with
  | read drawn r hreads =>
    cases c with
    | debugChallenge | debugAuthorize => cases hreads
    | _ => simp [ElementEvent.passes]
  | _ => simp [ElementEvent.passes]

theorem challenge_act_eq_some_iff : (e.act a).challenge = some challenge ↔
    e.event a = .answered .debugChallenge (.ok (.challenge challenge)) ∨
      ((e.event a).passes = true ∧ e.challenge = some challenge) := by
  cases a with
  | command c => exact (e.carried_execute c).challenge_eq_some_iff
  | cancel => simp [act, cancel, event, ElementEvent.passes]

/-- An element that had no open challenge at first has the one that is seen to be open. -/
theorem challenge_eq_some_iff (hnone : e.challenge = none) (actions : List ElementAction) :
    (e.actAll actions).challenge = some challenge ↔ Unanswered (e.history actions) challenge := by
  induction actions using List.reverseRecOn with
  | nil => simp [actAll, history, hnone, Unanswered]
  | append_singleton actions a ih =>
    have hlast : e.history (actions ++ [a]) = e.history actions ++ [(e.actAll actions).event a] :=
      e.history_append actions [a]
    have hafter : e.actAll (actions ++ [a]) = (e.actAll actions).act a :=
      e.actAll_append actions [a]
    rw [hlast, hafter, challenge_act_eq_some_iff, unanswered_concat_iff, ih]

/-- Without a new challenge none is open. -/
theorem challenge_actAll_eq_none (hnone : e.challenge = none) {actions : List ElementAction}
    (hnew : ElementAction.command .debugChallenge ∉ actions) :
    (e.actAll actions).challenge = none := by
  induction actions generalizing e with
  | nil => exact hnone
  | cons a actions ih =>
    obtain ⟨hfirst, hlater⟩ := List.ne_and_not_mem_of_not_mem_cons hnew
    refine ih (Option.eq_none_iff_forall_ne_some.mpr fun challenge hsome => ?_) hlater
    rcases challenge_act_eq_some_iff.mp hsome with hdrawn | ⟨-, hopen⟩
    · cases a with
      | command c =>
        obtain ⟨rfl, -⟩ := ElementEvent.answered.inj hdrawn
        exact hfirst rfl
      | cancel => cases hdrawn
    · cases hopen.symm.trans hnone

/-- Every answer uses the challenge up. -/
theorem challenge_authorize (e : Element) (proof : Block) :
    (e.execute (.debugAuthorize proof)).1.challenge = none := by
  have hcarried := e.carried_execute (.debugAuthorize proof)
  generalize (e.execute (.debugAuthorize proof)).1 = e',
    (e.execute (.debugAuthorize proof)).2 = r at hcarried ⊢
  cases hcarried with
  | deny | erase => rfl
  | read _ _ hreads => cases hreads

/-! ## The right answer -/

theorem Sound.erasable_iff (h : e.Sound) : e.Erasable ↔
    ∀ slot stored, e.slots.get? slot = some stored → stored.flags.debuggerProtection = false := by
  constructor
  · intro herasable slot stored hstored
    exact herasable _ ((Dictionary.get?_eq_some_iff h.distinct slot stored).mp hstored)
  · rintro hfree ⟨slot, stored⟩ hentry
    exact hfree slot stored ((Dictionary.get?_eq_some_iff h.distinct slot stored).mpr hentry)

/-- The answer that is granted. -/
theorem authorized_iff (e : Element) (proof : Block) :
    (e.execute (.debugAuthorize proof)).2 = .ok .done ↔
      ∃ challenge, e.challenge = some challenge ∧ e.Erasable ∧
        proof = debugProof (e.authorityKey .master) challenge e.identity := by
  constructor
  · intro hdone
    have hcarried := e.carried_execute (.debugAuthorize proof)
    rw [hdone] at hcarried
    generalize (e.execute (.debugAuthorize proof)).1 = e' at hcarried
    cases hcarried with
    | read _ _ hreads => cases hreads
    | erase hchallenge herasable => exact ⟨_, hchallenge, herasable, rfl⟩
  · rintro ⟨challenge, hchallenge, herasable, rfl⟩
    rw [execute, authorize_eq hchallenge herasable, if_pos rfl]

/-- The granted answer leaves no key. -/
theorem erased_of_authorized {proof : Block}
    (h : (e.execute (.debugAuthorize proof)).2 = .ok .done) :
    (e.execute (.debugAuthorize proof)).1.slots = ∅ ∧
      (e.execute (.debugAuthorize proof)).1.plainKey = none := by
  have hcarried := e.carried_execute (.debugAuthorize proof)
  rw [h] at hcarried
  generalize (e.execute (.debugAuthorize proof)).1 = e' at hcarried ⊢
  cases hcarried with
  | read _ _ hreads => cases hreads
  | erase => exact ⟨rfl, rfl⟩

/-! ## How keys are lost -/

theorem Carried.plainKey_of_not_isErase (h : e.Carried c e' r)
    (hnot : ¬ (ElementEvent.answered c r).IsErase) (hlost : e'.plainKey = none) :
    e.plainKey = none := by
  cases h with
  | erase => exact absurd ⟨_, rfl⟩ hnot
  | loadPlain key => cases hlost
  | _ => exact hlost

/-- A key that is lost was erased with all others. -/
theorem isErase_of_emptied
    (h : (∃ slot, e.slots.get? slot ≠ none ∧ (e.act a).slots.get? slot = none) ∨
      (e.plainKey ≠ none ∧ (e.act a).plainKey = none)) : (e.event a).IsErase := by
  by_contra hnot
  rcases h with ⟨slot, hheld, hlost⟩ | ⟨hheld, hlost⟩
  · obtain ⟨old, hold⟩ := Option.ne_none_iff_exists'.mp hheld
    obtain ⟨new, hnew, -⟩ := renewed_act hnot hold
    cases hnew.symm.trans hlost
  · refine hheld ?_
    cases a with
    | command c => exact (e.carried_execute c).plainKey_of_not_isErase hnot hlost
    | cancel => exact hlost

/-- In every run of an element an answer is granted exactly if there is a challenge that was drawn
after the last answer and after the last cancellation, no key is protected from debugging, and the
answer is the code of the last challenge and the identity under the key derived from the present
master key, or from zeros if there is none.  Only such an answer ever empties a slot or takes the key
in the clear, and it takes all keys.  After an answer, granted or not, all further ones are out of
sequence until there is a new challenge. -/
theorem debugging_guarded (identity : ElementId) (entropy : Nat → Block)
    (actions : List ElementAction) :
    let e := (fresh identity entropy).actAll actions
    (∀ proof, (e.execute (.debugAuthorize proof)).2 = .ok .done ↔
      ∃ challenge, Unanswered ((fresh identity entropy).history actions) challenge ∧
        (∀ slot stored, e.slots.get? slot = some stored →
          stored.flags.debuggerProtection = false) ∧
        proof = Mac.tag (Derivation.derive (e.authorityKey .master) Derivation.debugging)
          (challenge.toList ++ identity.toList)) ∧
    (∀ a, ((∃ slot, e.slots.get? slot ≠ none ∧ (e.act a).slots.get? slot = none) ∨
        (e.plainKey ≠ none ∧ (e.act a).plainKey = none)) →
      ∃ proof, a = .command (.debugAuthorize proof) ∧
        (e.execute (.debugAuthorize proof)).2 = .ok .done) ∧
    (∀ proof, (e.execute (.debugAuthorize proof)).2 = .ok .done →
      (∀ slot, (e.execute (.debugAuthorize proof)).1.slots.get? slot = none) ∧
        (e.execute (.debugAuthorize proof)).1.plainKey = none) ∧
    ∀ proof later proof', ElementAction.command .debugChallenge ∉ later →
      (((e.execute (.debugAuthorize proof)).1.actAll later).execute (.debugAuthorize proof')).2 =
        .error .sequence := by
  intro e
  have hsound : e.Sound := sound_actAll_fresh identity entropy actions
  have hidentity : e.identity = identity := identity_actAll (fresh identity entropy) actions
  refine ⟨?_, ?_, ?_, ?_⟩
  · intro proof
    have hopen (challenge : Block) : e.challenge = some challenge ↔
        Unanswered ((fresh identity entropy).history actions) challenge :=
      challenge_eq_some_iff rfl actions
    rw [authorized_iff, hsound.erasable_iff, hidentity]
    simp only [hopen, debugProof]
  · intro a hemptied
    obtain ⟨proof, hevent⟩ := isErase_of_emptied hemptied
    cases a with
    | command c =>
      obtain ⟨rfl, hdone⟩ := ElementEvent.answered.inj hevent
      exact ⟨proof, rfl, hdone⟩
    | cancel => cases hevent
  · intro proof hdone
    obtain ⟨hslots, hplain⟩ := erased_of_authorized hdone
    refine ⟨fun slot => ?_, hplain⟩
    rw [hslots, Dictionary.get?_empty]
  · intro proof later proof' hnew
    have hnone := challenge_actAll_eq_none (e.challenge_authorize proof) hnew
    rw [execute, authorize_of_none hnone]

/-! ## An element whose keys are erased -/

/-- An element with a master key, after a challenge. -/
def challenged : Element :=
  guarded.actAll [.command .debugChallenge]

/-- What was done to the element. -/
def challengingActions : List ElementAction :=
  [.command (.loadKey (orderTo 1 1 Block.zero guardedMaster))] ++ [.command .debugChallenge]

/-- The answer of the holder of the master key to the challenge. -/
def grantedProof : Block :=
  Mac.tag (Derivation.derive guardedMaster Derivation.debugging)
    ((guarded.entropy guarded.drawn).toList ++ guardedIdentity.toList)

theorem actAll_challengingActions :
    (fresh guardedIdentity fun _ => Block.zero).actAll challengingActions = challenged := by
  rw [challengingActions, actAll_append, challenged, guarded]

/-- A challenge that was just drawn is unanswered. -/
theorem unanswered_of_debugChallenge (e : Element) (actions : List ElementAction) :
    Unanswered (e.history (actions ++ [.command .debugChallenge]))
      ((e.actAll actions).entropy (e.actAll actions).drawn) := by
  rw [history_append]
  exact unanswered_concat_iff.mpr (.inl rfl)

/-- Drawing a challenge changes no slot. -/
theorem slots_debugChallenge (e : Element) :
    (e.actAll [.command .debugChallenge]).slots = e.slots :=
  rfl

/-- The holder of the master key erases it, and with one answer only once. -/
theorem challenged_erased_once :
    challenged.slots.get? .master = some ⟨guardedMaster, 1, {}⟩ ∧
      (challenged.execute (.debugAuthorize grantedProof)).2 = .ok .done ∧
      (challenged.execute (.debugAuthorize grantedProof)).1.slots.get? .master = none ∧
      (((challenged.execute (.debugAuthorize grantedProof)).1.actAll [.cancel]).execute
        (.debugAuthorize grantedProof)).2 = .error .sequence := by
  obtain ⟨hgranted, hlost, hempty, honce⟩ := debugging_guarded guardedIdentity
    (fun _ => Block.zero) challengingActions
  rw [actAll_challengingActions] at hgranted hlost hempty honce
  have hslots : challenged.slots = Dictionary.insert ∅ .master ⟨guardedMaster, 1, {}⟩ := by
    rw [challenged, slots_debugChallenge, guarded_eq.2]
  have hmaster : challenged.slots.get? .master = some ⟨guardedMaster, 1, {}⟩ := by
    rw [hslots, Dictionary.get?_insert_self]
  have hdone : (challenged.execute (.debugAuthorize grantedProof)).2 = .ok .done := by
    refine (hgranted grantedProof).mpr ⟨guarded.entropy guarded.drawn, ?_, ?_, ?_⟩
    · rw [challengingActions, guarded]
      exact unanswered_of_debugChallenge _ _
    · intro slot stored hstored
      rw [hslots] at hstored
      by_cases hslot : slot = .master
      · rw [hslot, Dictionary.get?_insert_self] at hstored
        obtain rfl := Option.some.inj hstored
        rfl
      · rw [Dictionary.get?_insert_of_ne _ hslot] at hstored
        cases hstored
    · rw [authorityKey_of_some hmaster, grantedProof]
  have hgone := (hempty grantedProof hdone).1 .master
  have hheld : challenged.slots.get? .master ≠ none := by
    rw [hmaster]
    exact Option.some_ne_none _
  have hemptied :
      (challenged.act (.command (.debugAuthorize grantedProof))).slots.get? .master = none := by
    -- Without the equation the kernel would run the cipher to compare the two elements.
    rw [act]
    exact hgone
  obtain ⟨proof, hproof, hgrantedAgain⟩ := hlost _ (.inl ⟨.master, hheld, hemptied⟩)
  cases hproof
  exact ⟨hmaster, hgrantedAgain, hgone, honce grantedProof [.cancel] grantedProof (by simp)⟩

end Element
end VehicleGateway
