import Mathlib.Data.List.Induction
import VehicleGateway.Proofs.Keys.Stages
import VehicleGateway.Proofs.Keys.Token

/-!
# What passes between the key service and its element

* `Contact` names what passes, and `KeyService.log` lists it for a run: a contact is made when the
  stage of a call changes, so the log says nothing that the service has not done.
* `Standing.hear` is a listener that knows only the log.  It accepts a command while none is with
  the element, an answer to the command that is there, and the end of a cancel after its timeout.
* `recorded_run` says that the listener accepts the log of every run in which no call is dropped,
  and `used_in_turn_run` what this means for the element and for the calls.
-/

namespace VehicleGateway

/-- What passes between the service and the element for a call. -/
inductive Contact where
  | execute (n : Nat) (command : Command)
  | answered (n : Nat)
  /-- The answer did not come in time, and the element is told to stop. -/
  | expired (n : Nat)
  /-- The element has stopped. -/
  | stopped (n : Nat)

/-- The call for which something passes. -/
def Contact.call : Contact → Nat
  | .execute n _ | .answered n | .expired n | .stopped n => n

/-- The commands that are outstanding after a contact.  One that was not answered in time is so
until the element has stopped. -/
def Contact.settle (pending : List Nat) : Contact → List Nat
  | .execute n _ => pending ++ [n]
  | .answered n | .stopped n => pending.erase n
  | .expired _ => pending

/-- The calls whose commands are outstanding after all that has passed. -/
def outstanding (log : List Contact) : List Nat :=
  log.foldl Contact.settle []

/-- What an event for a call in a stage ends at the element. -/
def KeyEvent.closes (n : Nat) (stage : CallStage) (e : KeyEvent) : List Contact :=
  match e, e.concerns stage with
  | .answer _, true => [.answered n]
  | .expire, true => [.expired n]
  | .stopped, true => [.stopped n]
  | _, _ => []

/-- What passes when an event brings a call from one stage to another. -/
def KeyEvent.passes (n : Nat) (stage stage' : CallStage) (e : KeyEvent) : List Contact :=
  -- A command that was there before, and that the event does not end, is not given again.
  if e.concerns stage = false ∧ stage.command?.isSome then []
  else e.closes n stage ++ (stage'.command?.map (Contact.execute n)).toList

namespace KeyService

/-- What passes between the service and the element when something happens. -/
def contacts (s : KeyService) : KeyDeed → List Contact
  | .event now n e =>
    match s.call? n, (s.step now n e).call? n with
    | some c, some c' => e.passes n c.stage c'.stage
    | _, _ => []
  | _ => []

/-- All that passes between the service and the element. -/
def log (s : KeyService) (deeds : List KeyDeed) : List Contact :=
  s.trace contacts deeds

end KeyService

/-! ## What passes with an event -/

theorem KeyEvent.passes_call {n : Nat} {stage stage' : CallStage} {e : KeyEvent} {x : Contact}
    (hx : x ∈ e.passes n stage stage') : x.call = n := by
  unfold passes at hx
  split at hx
  case isTrue => cases hx
  case isFalse =>
    rcases List.mem_append.mp hx with hx | hx
    · unfold closes at hx
      split at hx
      case h_4 => cases hx
      all_goals
        obtain rfl := List.mem_singleton.mp hx
        rfl
    · obtain ⟨command, -, rfl⟩ := Option.map_eq_some_iff.mp (Option.mem_toList.mp hx)
      rfl

/-- What an event ends, it ends whatever comes after. -/
theorem KeyEvent.passes_of_concerns {stage : CallStage} {e : KeyEvent}
    (h : e.concerns stage = true) (n : Nat) (stage' : CallStage) :
    e.passes n stage stage' =
      e.closes n stage ++ (stage'.command?.map (Contact.execute n)).toList := by
  simp [passes, h]

theorem KeyEvent.passes_of_idle {stage : CallStage} {e : KeyEvent}
    (hunfit : e.concerns stage = false) (hnone : stage.command? = none) (n : Nat)
    (stage' : CallStage) :
    e.passes n stage stage' = (stage'.command?.map (Contact.execute n)).toList := by
  have hcloses : e.closes n stage = [] := by
    unfold closes
    split <;> simp_all
  simp [passes, hnone, hcloses]

theorem KeyEvent.passes_stay {stage : CallStage} {e : KeyEvent} (hunfit : e.concerns stage = false)
    (n : Nat) : e.passes n stage stage = [] := by
  cases hcommand : stage.command? with
  | none => simp [passes_of_idle hunfit hcommand, hcommand]
  | some command => simp [passes, hunfit, hcommand]

/-! ## The listener -/

/-- A listener hears what passes.  What is out of turn it does not accept. -/
def Standing.hear : Standing → Contact → Option Standing
  | .idle, .execute n _ => some (.busy n)
  | .busy n, .answered m => if m = n then some .idle else none
  | .busy n, .expired m => if m = n then some (.stopping n) else none
  | .stopping n, .stopped m => if m = n then some .idle else none
  | _, _ => none

/-- What a listener has heard in the end, if it has accepted all. -/
def heard (log : List Contact) : Option Standing :=
  log.foldlM Standing.hear .idle

/-- The calls whose commands are outstanding. -/
def Standing.pending : Standing → List Nat
  | .idle => []
  | .busy n | .stopping n => [n]

theorem Standing.hear_cases {st st' : Standing} {x : Contact} (h : st.hear x = some st') :
    (∃ n command, st = .idle ∧ x = .execute n command ∧ st' = .busy n) ∨
      (∃ n, st = .busy n ∧ x = .answered n ∧ st' = .idle) ∨
      (∃ n, st = .busy n ∧ x = .expired n ∧ st' = .stopping n) ∨
      ∃ n, st = .stopping n ∧ x = .stopped n ∧ st' = .idle := by
  unfold hear at h
  split at h
  case h_1 n command => exact .inl ⟨n, command, rfl, rfl, (Option.some.inj h).symm⟩
  case h_2 n m =>
    obtain ⟨rfl, rfl⟩ : m = n ∧ Standing.idle = st' := by simpa using h
    exact .inr (.inl ⟨m, rfl, rfl, rfl⟩)
  case h_3 n m =>
    obtain ⟨rfl, rfl⟩ : m = n ∧ Standing.stopping n = st' := by simpa using h
    exact .inr (.inr (.inl ⟨m, rfl, rfl, rfl⟩))
  case h_4 n m =>
    obtain ⟨rfl, rfl⟩ : m = n ∧ Standing.idle = st' := by simpa using h
    exact .inr (.inr (.inr ⟨m, rfl, rfl, rfl⟩))
  case h_5 => cases h

theorem heard_append (log later : List Contact) :
    heard (log ++ later) = (heard log).bind fun st => later.foldlM Standing.hear st :=
  List.foldlM_append

theorem heard_snoc {log : List Contact} {x : Contact} {st' : Standing}
    (h : heard (log ++ [x]) = some st') : ∃ st, heard log = some st ∧ st.hear x = some st' := by
  rw [heard_append] at h
  obtain ⟨st, hst, hx⟩ := Option.bind_eq_some_iff.mp h
  exact ⟨st, hst, by simpa using hx⟩

/-- A listener that has accepted a log has accepted every part of it from the start. -/
theorem heard_split {past rest : List Contact} {x : Contact} {st' : Standing}
    (h : heard (past ++ x :: rest) = some st') :
    ∃ st st₁, heard past = some st ∧ st.hear x = some st₁ ∧
      rest.foldlM Standing.hear st₁ = some st' := by
  rw [heard_append] at h
  obtain ⟨st, hst, hlater⟩ := Option.bind_eq_some_iff.mp h
  rw [List.foldlM_cons] at hlater
  obtain ⟨st₁, hx, hrest⟩ := Option.bind_eq_some_iff.mp hlater
  exact ⟨st, st₁, hst, hx, hrest⟩

/-- What is outstanding is what the listener takes to be with the element. -/
theorem outstanding_of_heard {log : List Contact} {st : Standing} (h : heard log = some st) :
    outstanding log = st.pending := by
  induction log using List.reverseRecOn generalizing st with
  | nil =>
    obtain rfl := Option.some.inj h
    rfl
  | append_singleton log x ih =>
    obtain ⟨st₀, hlog, hx⟩ := heard_snoc h
    have hsettle : outstanding (log ++ [x]) = x.settle st₀.pending := by
      simp [outstanding, ← ih hlog]
    rw [hsettle]
    rcases Standing.hear_cases hx with ⟨n, command, rfl, rfl, rfl⟩ | ⟨n, rfl, rfl, rfl⟩ |
      ⟨n, rfl, rfl, rfl⟩ | ⟨n, rfl, rfl, rfl⟩ <;> simp [Contact.settle, Standing.pending]

/-- The element is told to stop exactly when the last thing that has passed is a timeout. -/
theorem getLast?_of_stopping {log : List Contact} {n : Nat} (h : heard log = some (.stopping n)) :
    log.getLast? = some (.expired n) := by
  induction log using List.reverseRecOn with
  | nil => cases h
  | append_singleton log x ih =>
    obtain ⟨st, -, hx⟩ := heard_snoc h
    rw [List.getLast?_concat]
    rcases Standing.hear_cases hx with ⟨m, command, -, -, hst⟩ | ⟨m, -, -, hst⟩ |
      ⟨m, -, rfl, hst⟩ | ⟨m, -, -, hst⟩ <;> cases hst
    rfl

/-- The listener accepts what passes with an event, and knows then what the element has to do. -/
theorem Passage.heard {stage stage' : CallStage} {e : KeyEvent} (h : Passage stage e stage')
    (n : Nat) :
    (e.passes n stage stage').foldlM Standing.hear (stage.standing n) =
      some (stage'.standing n) := by
  cases h with
  | stay hunfit =>
    rw [KeyEvent.passes_stay hunfit]
    rfl
  | away hunfit hidle _ hidle' =>
    have hnone := CallStage.command?_of_standing (hidle n)
    have hnone' := CallStage.command?_of_standing (hidle' n)
    rw [KeyEvent.passes_of_idle hunfit hnone, hnone', hidle, hidle']
    rfl
  | gives hcommand =>
    rw [KeyEvent.passes_of_idle rfl rfl, hcommand, CallStage.standing_of_command? n hcommand]
    rfl
  | ends hcommand =>
    have hfit : ∀ result, (KeyEvent.answer result).concerns stage = true := by
      simp [KeyEvent.concerns, hcommand]
    rw [KeyEvent.passes_of_concerns (hfit _), CallStage.standing_of_command? n hcommand]
    simp [KeyEvent.closes, hfit, CallStage.command?, CallStage.standing, Standing.hear]
  | next hcommand hcommand' =>
    have hfit : ∀ result, (KeyEvent.answer result).concerns stage = true := by
      simp [KeyEvent.concerns, hcommand]
    rw [KeyEvent.passes_of_concerns (hfit _), CallStage.standing_of_command? n hcommand,
      CallStage.standing_of_command? n hcommand', hcommand']
    simp [KeyEvent.closes, hfit, Standing.hear]
  | expires hcommand =>
    have hfit : KeyEvent.expire.concerns stage = true := by simp [KeyEvent.concerns, hcommand]
    rw [KeyEvent.passes_of_concerns hfit, CallStage.standing_of_command? n hcommand]
    simp [KeyEvent.closes, hfit, CallStage.command?, CallStage.standing, Standing.hear]
  | stops => simp [KeyEvent.passes, KeyEvent.closes, KeyEvent.concerns, CallStage.command?,
      CallStage.standing, Standing.hear]

/-- Something passes only for a call that has the token, and that uses it on or has ended then. -/
theorem Passage.passes_cases {stage stage' : CallStage} {e : KeyEvent} (h : Passage stage e stage')
    (n : Nat) :
    (e.passes n stage stage' = [] ∧ stage'.standing n = stage.standing n) ∨
      ((stage = .granted ∨ stage.standing n ≠ .idle) ∧
        (stage'.standing n ≠ .idle ∨ ∃ outcome, stage' = .ended outcome)) := by
  have hbusy {stage : CallStage} {command : Command} (hcommand : stage.command? = some command) :
      stage.standing n ≠ .idle := by
    simp [CallStage.standing_of_command? n hcommand]
  cases h with
  | stay hunfit => exact .inl ⟨KeyEvent.passes_stay hunfit n, rfl⟩
  | away hunfit hidle _ hidle' =>
    refine .inl ⟨?_, by rw [hidle, hidle']⟩
    have hnone := CallStage.command?_of_standing (hidle n)
    have hnone' := CallStage.command?_of_standing (hidle' n)
    simp [KeyEvent.passes_of_idle hunfit hnone, hnone']
  | gives hcommand => exact .inr ⟨.inl rfl, .inl (hbusy hcommand)⟩
  | ends hcommand => exact .inr ⟨.inr (hbusy hcommand), .inr ⟨_, rfl⟩⟩
  | next hcommand hcommand' => exact .inr ⟨.inr (hbusy hcommand), .inl (hbusy hcommand')⟩
  | expires hcommand => exact .inr ⟨.inr (hbusy hcommand), .inl (by simp [CallStage.standing])⟩
  | stops => exact .inr ⟨.inr (by simp [CallStage.standing]), .inr ⟨_, rfl⟩⟩

/-! ## Contacts of one call -/

/-- Since a call was mentioned for the first time, nothing has passed for another one. -/
def Last (n : Nat) (log : List Contact) : Prop :=
  ∃ past since, log = past ++ since ∧ (∀ x ∈ past, x.call ≠ n) ∧ ∀ x ∈ since, x.call = n

theorem Last.append {n : Nat} {log new : List Contact} (h : Last n log)
    (hnew : ∀ x ∈ new, x.call = n) : Last n (log ++ new) := by
  obtain ⟨past, since, rfl, hpast, hsince⟩ := h
  refine ⟨past, since ++ new, List.append_assoc _ _ _, hpast, ?_⟩
  exact List.forall_mem_append.mpr ⟨hsince, hnew⟩

theorem Last.of_not_mentioned {n : Nat} {log : List Contact} (h : ∀ x ∈ log, x.call ≠ n) :
    Last n log :=
  ⟨log, [], (List.append_nil log).symm, h, by simp⟩

theorem Last.after {n : Nat} {past rest : List Contact} {x : Contact}
    (h : Last n (past ++ x :: rest)) (hx : x.call = n) : ∀ y ∈ rest, y.call = n := by
  obtain ⟨before, since, hsplit, hbefore, hsince⟩ := h
  rcases List.append_eq_append_iff.mp hsplit with ⟨t, rfl, hrest⟩ | ⟨t, rfl, rfl⟩
  · cases t with
    | nil =>
      rw [List.nil_append] at hrest
      intro y hy
      exact hsince y (hrest ▸ List.mem_cons_of_mem x hy)
    | cons z t =>
      obtain ⟨rfl, -⟩ := List.cons.inj hrest
      exact absurd hx (hbefore x (by simp))
  · intro y hy
    exact hsince y (by simp [hy])

/-- Whatever passes for a call, nothing has passed for another one since the call was mentioned. -/
def Unbroken (log : List Contact) : Prop :=
  ∀ past x rest, log = past ++ x :: rest → Last x.call past

theorem Unbroken.append {n : Nat} {log new : List Contact} (h : Unbroken log) (hlast : Last n log)
    (hnew : ∀ x ∈ new, x.call = n) : Unbroken (log ++ new) := by
  intro past x rest hsplit
  rcases List.append_eq_append_iff.mp hsplit with ⟨t, rfl, rfl⟩ | ⟨t, rfl, hrest⟩
  · rw [hnew x (by simp)]
    exact hlast.append fun y hy => hnew y (by simp [hy])
  · cases t with
    | nil =>
      rw [List.nil_append] at hrest
      have hx : x.call = n := hnew x (hrest ▸ List.mem_cons_self)
      rw [hx]
      simpa using hlast
    | cons z t =>
      obtain ⟨rfl, -⟩ := List.cons.inj hrest
      exact h past x t rfl

/-! ## Runs -/

namespace KeyService

variable {s s' : KeyService} {now n m : Nat} {c c' d : KeyCall} {e : KeyEvent}
  {outcome : KeyOutcome} {log : List Contact}

/-- The log of a service tells what is with the element now, and does not mix the calls. -/
structure Recorded (s : KeyService) (log : List Contact) : Prop where
  /-- The listener has accepted the log. -/
  heard : ∃ st, heard log = some st ∧
    (∀ n c, s.call? n = some c → c.stage.standing n ≠ .idle → c.stage.standing n = st) ∧
    (st ≠ .idle → ∃ n c, s.call? n = some c ∧ c.stage.standing n = st)
  unbroken : Unbroken log
  /-- A call for which something has passed is still with the element, or has ended. -/
  mentioned : ∀ x ∈ log, ∃ c, s.call? x.call = some c ∧
    (c.stage.standing x.call ≠ .idle ∨ ∃ outcome, c.stage = .ended outcome)
  last : ∀ n c, s.call? n = some c → c.stage.standing n ≠ .idle → Last n log

theorem Recorded.of_sameStandings (h : s.Recorded log) (hsame : SameStandings s s') :
    s'.Recorded log := by
  obtain ⟨st, hheard, honly, hsome⟩ := h.heard
  refine ⟨⟨st, hheard, ?_, ?_⟩, h.unbroken, ?_, ?_⟩
  · intro n c' hget' hbusy
    obtain ⟨c, hget, hstanding⟩ := hsame.new n c' hget' hbusy
    rw [hstanding] at hbusy ⊢
    exact honly n c hget hbusy
  · intro hst
    obtain ⟨n, c, hget, hwith⟩ := hsome hst
    obtain ⟨c', hget', hstanding, -⟩ := hsame.kept n c hget
    exact ⟨n, c', hget', hstanding.trans hwith⟩
  · intro x hx
    obtain ⟨c, hget, hcase⟩ := h.mentioned x hx
    obtain ⟨c', hget', hstanding, hended⟩ := hsame.kept _ c hget
    refine ⟨c', hget', ?_⟩
    rcases hcase with hbusy | ⟨outcome, houtcome⟩
    · exact .inl (by rwa [hstanding])
    · exact .inr ⟨outcome, hended outcome houtcome⟩
  · intro n c' hget' hbusy
    obtain ⟨c, hget, hstanding⟩ := hsame.new n c' hget' hbusy
    rw [hstanding] at hbusy
    exact h.last n c hget hbusy

/-- Whoever has the token keeps the others away from the element. -/
theorem Orderly.idle_of_active (h : s.Orderly) (hget : s.call? n = some c)
    (hactive : c.stage.active = true) (hm : s.call? m = some d) (hnm : n ≠ m) :
    d.stage.standing m = .idle := by
  by_contra hbusy
  exact hnm (h.eq_of_active hget hm hactive (CallStage.active_of_standing hbusy))

theorem Recorded.event (h : s.Recorded log) (horderly : s.Orderly) (hget : s.call? n = some c)
    (hmove : Move s now n c e c' s') : s'.Recorded (log ++ e.passes n c.stage c'.stage) := by
  have hget' := hmove.call?_eq hget
  have hpassage := hmove.passage
  have hother (m : Nat) (hnm : n ≠ m) : s'.call? m = s.call? m := hmove.call?_of_ne hnm
  rcases hpassage.passes_cases n with ⟨hnothing, hstanding⟩ | ⟨hbefore, hafter⟩
  · rw [hnothing, List.append_nil]
    refine h.of_sameStandings ⟨?_, ?_⟩
    · intro m d hm
      by_cases hnm : n = m
      · subst hnm
        obtain rfl := Option.some.inj (hget.symm.trans hm)
        refine ⟨c', hget', hstanding, ?_⟩
        intro outcome hended
        rw [hended] at hpassage
        exact hpassage.ended
      · exact ⟨d, by rw [hother m hnm]; exact hm, rfl, fun _ hended => hended⟩
    · intro m d' hm _
      by_cases hnm : n = m
      · subst hnm
        obtain rfl := Option.some.inj (hget'.symm.trans hm)
        exact ⟨c, hget, hstanding⟩
      · exact ⟨d', by rw [← hother m hnm]; exact hm, rfl⟩
  · have hactive : c.stage.active = true := by
      rcases hbefore with hgranted | hbusy
      · rw [hgranted]
        rfl
      · exact CallStage.active_of_standing hbusy
    have hidle {m : Nat} {d : KeyCall} (hnm : n ≠ m) (hm : s.call? m = some d) :
        d.stage.standing m = .idle := horderly.idle_of_active hget hactive hm hnm
    have hidle' {m : Nat} {d : KeyCall} (hnm : n ≠ m) (hm : s'.call? m = some d) :
        d.stage.standing m = .idle := hidle hnm (by rw [← hother m hnm]; exact hm)
    -- The listener knows what the element has to do with the call.
    obtain ⟨st, hheard, honly, hsome⟩ := h.heard
    have hst : st = c.stage.standing n := by
      by_cases hnone : c.stage.standing n = .idle
      · rw [hnone]
        by_contra hst
        obtain ⟨m, d, hm, hwith⟩ := hsome hst
        by_cases hnm : n = m
        · subst hnm
          obtain rfl := Option.some.inj (hget.symm.trans hm)
          exact hst (hwith.symm.trans hnone)
        · exact hst (hwith.symm.trans (hidle hnm hm))
      · exact (honly n c hget hnone).symm
    have hlast : Last n log := by
      rcases hbefore with hgranted | hbusy
      · refine Last.of_not_mentioned ?_
        rintro x hx rfl
        obtain ⟨d, hd, hcase⟩ := h.mentioned x hx
        obtain rfl := Option.some.inj (hget.symm.trans hd)
        simp [hgranted, CallStage.standing] at hcase
      · exact h.last n c hget hbusy
    have hpasses : ∀ x ∈ e.passes n c.stage c'.stage, x.call = n :=
      fun x hx => KeyEvent.passes_call hx
    refine ⟨⟨c'.stage.standing n, ?_, ?_, ?_⟩, h.unbroken.append hlast hpasses, ?_, ?_⟩
    · rw [heard_append, hheard, hst]
      exact hpassage.heard n
    · intro m d hm hbusy
      by_cases hnm : n = m
      · subst hnm
        obtain rfl := Option.some.inj (hget'.symm.trans hm)
        rfl
      · exact absurd (hidle' hnm hm) hbusy
    · exact fun _ => ⟨n, c', hget', rfl⟩
    · intro x hx
      by_cases hnm : n = x.call
      · exact ⟨c', by rw [← hnm]; exact hget', by rw [← hnm]; exact hafter⟩
      · have hold : x ∈ log := by
          refine (List.mem_append.mp hx).resolve_right ?_
          exact fun hnew => hnm (hpasses x hnew).symm
        obtain ⟨d, hd, hcase⟩ := h.mentioned x hold
        exact ⟨d, by rw [hother _ hnm]; exact hd, hcase⟩
    · intro m d hm hbusy
      by_cases hnm : n = m
      · subst hnm
        exact hlast.append hpasses
      · exact absurd (hidle' hnm hm) hbusy

/-- Whatever happens but a drop, the log goes on telling what is with the element. -/
theorem Recorded.act (h : s.Recorded log) (horderly : s.Orderly) {deed : KeyDeed}
    (hkeep : ∀ n, deed ≠ .drop n) : (s.act deed).Recorded (log ++ s.contacts deed) := by
  by_cases hevent : ∀ now n e, deed ≠ .event now n e
  · have hnothing : s.contacts deed = [] := by
      cases deed with
      | event now n e => exact absurd rfl (hevent now n e)
      | _ => rfl
    rw [hnothing, List.append_nil]
    exact h.of_sameStandings (sameStandings_act hevent hkeep)
  · push Not at hevent
    obtain ⟨now, n, e, rfl⟩ := hevent
    change (s.step now n e).Recorded _
    cases hget : s.call? n with
    | none =>
      have hsame : s.step now n e = s := by simp [step, hget]
      simpa [contacts, hget, hsame] using h
    | some c =>
      obtain ⟨c', hmove, hget'⟩ := step_cases hget now e
      simpa [contacts, hget, hget'] using h.event horderly hget hmove

theorem recorded_new (timeout : Nat) : Recorded { timeout } [] := by
  refine ⟨⟨.idle, rfl, ?_, ?_⟩, ?_, ?_, ?_⟩
  · intro n c hget
    cases hget
  · exact fun h => absurd rfl h
  · intro past x rest hsplit
    simp at hsplit
  · intro x hx
    cases hx
  · intro n c hget
    cases hget

/-- The log of a run without drops tells at every time what is with the element. -/
theorem recorded_run (timeout : Nat) (deeds : List KeyDeed) (hkeep : ∀ n, .drop n ∉ deeds) :
    (run { timeout } deeds).Recorded (KeyService.log { timeout } deeds) := by
  induction deeds using List.reverseRecOn with
  | nil => exact recorded_new timeout
  | append_singleton deeds d ih =>
    have hbefore := ih fun n hn => hkeep n (List.mem_append_left _ hn)
    have hd : ∀ n, d ≠ .drop n := by
      rintro n rfl
      exact hkeep n (by simp)
    rw [KeyService.log, trace_append, trace_singleton, run_append]
    exact hbefore.act (orderly_run timeout deeds) hd

/-! ## The element is used in turn -/

/-- How a service has used its element in a run, and what became of the calls. -/
structure UsedInTurn (s : KeyService) (deeds : List KeyDeed) : Prop where
  /-- The element is given no command while another one is outstanding. -/
  alone : ∀ past n command rest, s.log deeds = past ++ .execute n command :: rest →
    outstanding past = []
  /-- After a timeout the next thing that passes is the end of its cancel; it is the last if the
  element has not stopped yet. -/
  cancelled : ∀ past n rest, s.log deeds = past ++ .expired n :: rest →
    (rest = [] ∧ ∃ c, (s.run deeds).call? n = some c ∧ c.stage = .cancelling) ∨
      ∃ later, rest = .stopped n :: later
  /-- No cancel ends that was not begun by a timeout just before. -/
  cancels : ∀ past n rest, s.log deeds = past ++ .stopped n :: rest →
    past.getLast? = some (.expired n)
  /-- Between two commands of one call nothing passes for another one. -/
  unmixed : ∀ past n command between command' rest,
    s.log deeds = past ++ .execute n command :: (between ++ .execute n command' :: rest) →
      ∀ x ∈ between, x.call = n
  /-- A call whose outcome has been handed out never has the token again. -/
  released : ∀ n later, ((s.run deeds).take n).2 ≠ none →
    (((s.run deeds).take n).1.run later).holder ≠ some n

theorem Recorded.alone {past rest : List Contact} {command : Command}
    (h : s.Recorded (past ++ .execute n command :: rest)) : outstanding past = [] := by
  obtain ⟨st, hheard, -, -⟩ := h.heard
  obtain ⟨st₀, st₁, hpast, hx, -⟩ := heard_split hheard
  rw [outstanding_of_heard hpast]
  rcases Standing.hear_cases hx with ⟨_, _, rfl, -, -⟩ | ⟨_, -, hx, -⟩ | ⟨_, -, hx, -⟩ |
    ⟨_, -, hx, -⟩
  · rfl
  all_goals cases hx

theorem Recorded.cancelled {past rest : List Contact}
    (h : s.Recorded (past ++ .expired n :: rest)) :
    (rest = [] ∧ ∃ c, s.call? n = some c ∧ c.stage = .cancelling) ∨
      ∃ later, rest = .stopped n :: later := by
  obtain ⟨st, hheard, -, hsome⟩ := h.heard
  obtain ⟨st₀, st₁, -, hx, hrest⟩ := heard_split hheard
  have hst₁ : st₁ = .stopping n := by
    rcases Standing.hear_cases hx with ⟨_, _, -, hx, -⟩ | ⟨_, -, hx, -⟩ | ⟨_, -, hx, hst₁⟩ |
      ⟨_, -, hx, -⟩ <;> cases hx
    exact hst₁
  subst hst₁
  cases rest with
  | nil =>
    -- The element is still told to stop.
    obtain rfl := Option.some.inj hrest
    obtain ⟨m, c, hget, hstanding⟩ := hsome (by simp)
    refine .inl ⟨rfl, c, ?_⟩
    cases hstage : c.stage with
    | cancelling =>
      rw [hstage] at hstanding
      obtain rfl : m = n := by simpa [CallStage.standing] using hstanding
      exact ⟨hget, rfl⟩
    | _ => simp [hstage, CallStage.standing] at hstanding
  | cons x later =>
    rw [List.foldlM_cons] at hrest
    obtain ⟨st₂, hx, -⟩ := Option.bind_eq_some_iff.mp hrest
    refine .inr ⟨later, ?_⟩
    rcases Standing.hear_cases hx with ⟨_, _, hst, -, -⟩ | ⟨_, hst, -, -⟩ | ⟨_, hst, -, -⟩ |
      ⟨_, hst, rfl, -⟩ <;> cases hst
    rfl

theorem Recorded.cancels {past rest : List Contact}
    (h : s.Recorded (past ++ .stopped n :: rest)) : past.getLast? = some (.expired n) := by
  obtain ⟨st, hheard, -, -⟩ := h.heard
  obtain ⟨st₀, st₁, hpast, hx, -⟩ := heard_split hheard
  rcases Standing.hear_cases hx with ⟨_, _, -, hx, -⟩ | ⟨_, -, hx, -⟩ | ⟨_, -, hx, -⟩ |
    ⟨_, rfl, hx, -⟩ <;> cases hx
  exact getLast?_of_stopping hpast

theorem Recorded.unmixed {past between rest : List Contact} {command command' : Command}
    (h : s.Recorded (past ++ .execute n command :: (between ++ .execute n command' :: rest))) :
    ∀ x ∈ between, x.call = n := by
  have hlast : Last n (past ++ .execute n command :: between) :=
    h.unbroken _ (.execute n command') rest (by simp)
  exact hlast.after rfl

/-- Whatever the element does, it is used in turn in every run in which no caller drops its call. -/
theorem used_in_turn_run (timeout : Nat) (deeds : List KeyDeed) (hkeep : ∀ n, .drop n ∉ deeds) :
    UsedInTurn { timeout } deeds := by
  have hrecorded := recorded_run timeout deeds hkeep
  refine ⟨?_, ?_, ?_, ?_, ?_⟩
  · intro past n command rest hlog
    rw [hlog] at hrecorded
    exact hrecorded.alone
  · intro past n rest hlog
    rw [hlog] at hrecorded
    exact hrecorded.cancelled
  · intro past n rest hlog
    rw [hlog] at hrecorded
    exact hrecorded.cancels
  · intro past n command between command' rest hlog
    rw [hlog] at hrecorded
    exact hrecorded.unmixed
  · intro n later htaken
    obtain ⟨c, outcome, hget, hended⟩ := ended_of_take htaken
    obtain ⟨c', hget', hended'⟩ := ended_run hget hended (.take n :: later)
    have horderly : (run { timeout } (deeds ++ .take n :: later)).Orderly := orderly_run _ _
    rw [run_append] at horderly
    exact horderly.holder_ne_of_ended hget' hended'

/-- An erase that is cancelled while another call waits, and a command that is started then. -/
def threeCallers : List KeyDeed :=
  [.call .erase, .call (.ask .random .random), .event 0 0 .go, .event 0 1 .go, .event 0 0 .go,
    .event 1 0 (.answer (.ok (.identity ElementId.wildcard 0 Block.zero))), .event 9 0 .expire,
    .event 12 0 .stopped, .event 12 1 .go, .event 12 1 .go,
    .event 13 1 (.answer (.ok (.random Block.zero))), .start .random, .event 14 2 .go,
    .event 15 2 (.answer (.ok (.random Block.zero)))]

theorem three_callers_in_turn :
    (∀ n, .drop n ∉ threeCallers) ∧ UsedInTurn { timeout := 8 } threeCallers ∧
      KeyService.log { timeout := 8 } threeCallers =
        [.execute 0 (.identify Block.zero), .answered 0, .execute 0 .debugChallenge, .expired 0,
          .stopped 0, .execute 1 .random, .answered 1, .execute 2 .random, .answered 2] :=
  have hkeep : ∀ n, .drop n ∉ threeCallers := by simp [threeCallers]
  ⟨hkeep, used_in_turn_run 8 threeCallers hkeep, rfl⟩

end KeyService
end VehicleGateway
