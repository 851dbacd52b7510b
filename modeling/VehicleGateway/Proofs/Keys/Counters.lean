import Mathlib.Data.List.DropRight
import VehicleGateway.Proofs.Keys.Stages
import VehicleGateway.Proofs.Keys.Token

/-!
# The counters of the key service

What the notes of a key service say about the calls that have ended, for an element that may answer
anything at any time.

* `KeyService.history` lists the calls of a run in the order in which they ended.
* `Effect` says what an event does to the notes and what it makes of the call, and `Move.effect`
  that it does one of these.
* `Counted` is what every deed keeps, and `counters_kept_run` what follows for the loads of a run.
-/

namespace VehicleGateway

/-- The counter with which a call has loaded a slot. -/
def KeyCall.loaded? (slot : KeySlot) (c : KeyCall) : Option Nat :=
  match c.load?, c.stage with
  | some (slot', _, counter, _), .ended (.ok _) => if slot' = slot then some counter else none
  | _, _ => none

/-- Whether a call has erased all keys. -/
def KeyCall.erased (c : KeyCall) : Bool :=
  match c.request, c.stage with
  | .erase, .ended (.ok _) => true
  | _, _ => false

/-- The calls that have ended since the keys were erased for the last time. -/
def sinceErase (history : List KeyCall) : List KeyCall :=
  history.rtakeWhile fun c => !c.erased

/-- The counters with which a slot was loaded, in the order in which the loads ended. -/
def loads (slot : KeySlot) (history : List KeyCall) : List Nat :=
  history.filterMap (KeyCall.loaded? slot)

namespace KeyService

/-- The call that an event brings to its end. -/
def settled (s : KeyService) : KeyDeed → List KeyCall
  | .event now n e =>
    match s.call? n, (s.step now n e).call? n with
    | some c, some c' => if c.outcome? = none ∧ c'.outcome?.isSome then [c'] else []
    | _, _ => []
  | _ => []

/-- The calls of a run in the order in which they ended. -/
def history (s : KeyService) (deeds : List KeyDeed) : List KeyCall :=
  s.trace settled deeds

variable {s s' : KeyService} {now n m : Nat} {c c' d : KeyCall} {e : KeyEvent}
  {outcome : KeyOutcome} {slot : KeySlot} {k : Nat} {history : List KeyCall}

/-! ## What an event does to the notes -/

/-- A call that has loaded nothing and erased nothing. -/
structure Idle (c : KeyCall) : Prop where
  loaded : ∀ slot, c.loaded? slot = none
  erased : c.erased = false

theorem idle_of_open (h : c.outcome? = none) : Idle c := by
  cases hstage : c.stage with
  | ended outcome => simp [KeyCall.outcome?, hstage] at h
  | _ => exact ⟨fun slot => by simp [KeyCall.loaded?, hstage], by simp [KeyCall.erased, hstage]⟩

theorem idle_of_ended (hstage : c.stage = .ended outcome)
    (hlight : ∀ answer, outcome = .ok answer → c.load? = none ∧ c.request ≠ .erase) : Idle c := by
  cases outcome with
  | error fault =>
    exact ⟨fun slot => by simp [KeyCall.loaded?, hstage], by simp [KeyCall.erased, hstage]⟩
  | ok answer =>
    obtain ⟨hload, herase⟩ := hlight answer rfl
    refine ⟨fun slot => by simp [KeyCall.loaded?, hload], ?_⟩
    unfold KeyCall.erased
    split
    case h_1 hrequest _ => exact absurd hrequest herase
    case h_2 => rfl

/-- What an event does to the notes, and what it makes of a call. -/
inductive Effect (s : KeyService) (c : KeyCall) (e : KeyEvent) (c' : KeyCall) (s' : KeyService) :
    Prop where
  | none (hidle : Idle c') (hnotes : s'.notes = s.notes)
  | note {slot : KeySlot} {key : Option Key} {counter : Nat}
      (hrequest : c.request = .remember slot key counter)
  /-- The element has proved that it stored the key. -/
  | load {element : ElementId} {order : KeyOrder} {receipt : KeyReceipt} {slot : KeySlot}
      {key : Key} {counter : Nat} {flags : KeyFlags}
      (hstage : c.stage = .loading element order) (hidentity : s.identity = some element)
      (hload : c.load? = some (slot, key, counter, flags))
      (hreceipt : KeyReceipt.make .master slot key counter element = .ok receipt)
      (hevent : e = .answer (.ok (.keyLoaded receipt)))
      (hnew : s.checkCounter slot counter = .ok ())
      (hended : c' = { c with stage := .ended (.ok c.loadedAnswer) })
      (hnotes : s'.notes = s.notes.insert slot ⟨counter, some key⟩)
  | erase {proof : Block} (hstage : c.stage = .authorizing proof) (hrequest : c.request = .erase)
      (hevent : e = .answer (.ok .done)) (hended : c' = { c with stage := .ended (.ok .done) })
      (hnotes : s'.notes = ∅)

theorem Proceeds.idle (h : s.Proceeds n c c' s') : Idle c' ∧ s'.notes = s.notes := by
  cases h with
  | ends hplain => exact ⟨idle_of_ended rfl hplain.light, notes_finish _ _ _ _⟩
  | gives stage hcommand =>
    refine ⟨idle_of_open ?_, rfl⟩
    cases stage <;> first | rfl | cases hcommand

/-- An event does one of these. -/
theorem Move.effect (h : Move s now n c e c' s') (hbrings : Brings s.identity c c.stage)
    (hopen : c.outcome? = none) : s.Effect c e c' s' := by
  cases h with
  | stay => exact .none (idle_of_open hopen) rfl
  | note _ hrequest => exact .note hrequest
  | decline _ hplain => exact .none (idle_of_ended rfl hplain.light) (notes_finish _ _ _ _)
  | seize | line | grant | expire => exact .none (idle_of_open rfl) rfl
  | use _ _ hproceeds => exact .none hproceeds.idle.1 hproceeds.idle.2
  | name _ hproceeds => exact .none hproceeds.idle.1 hproceeds.idle.2
  | giveUp | stopped | fail | mismatch =>
    exact .none (idle_of_ended rfl fun _ hok => nomatch hok) (notes_finish _ _ _ _)
  | tell hstage =>
    rw [hstage] at hbrings
    have hrequest : c.request = _ := hbrings
    refine .none (idle_of_ended rfl fun _ _ => ?_) (notes_finish _ _ _ _)
    simp [KeyCall.load?, hrequest]
  | answer _ hproof =>
    refine .none (idle_of_open ?_) rfl
    rw [hproof]
    rfl
  | confirm hstage hload hreceipt hnew =>
    rw [hstage] at hbrings
    exact .load hstage hbrings.1 hload hreceipt rfl hnew rfl (notes_finish _ _ _ _)
  | @erase proof hstage =>
    have hrequest : c.request = .erase := by
      rw [hstage] at hbrings
      exact hbrings
    exact .erase hstage hrequest rfl rfl (notes_finish _ _ _ _)

/-! ## What the notes say of the history -/

theorem sinceErase_snoc_of_erased (history : List KeyCall) (h : c.erased = true) :
    sinceErase (history ++ [c]) = [] :=
  List.rtakeWhile_concat_neg _ _ _ (by simp [h])

theorem sinceErase_snoc (history : List KeyCall) (h : c.erased = false) :
    sinceErase (history ++ [c]) = sinceErase history ++ [c] :=
  List.rtakeWhile_concat_pos _ _ _ (by simp [h])

theorem loads_snoc (slot : KeySlot) (history : List KeyCall) (c : KeyCall) :
    loads slot (history ++ [c]) = loads slot history ++ (c.loaded? slot).toList := by
  cases hloaded : c.loaded? slot <;> simp [loads, hloaded]

/-- The notes say of each slot with which counter it was loaded last, and the counters have
grown. -/
structure Counted (s : KeyService) (history : List KeyCall) : Prop where
  noted : ∀ slot, s.counter? slot = (loads slot (sinceErase history)).getLast?
  below : ∀ slot, ∀ k ∈ loads slot (sinceErase history),
    ∃ stored, s.counter? slot = some stored ∧ k ≤ stored
  increasing : ∀ past rest, history = past ++ rest →
    ∀ slot, (loads slot (sinceErase past)).Pairwise (· < ·)
  bounded : ∀ slot, ∀ k ∈ loads slot history, k ≤ KeyOrder.maxCounter

theorem Counted.of_notes (h : s.Counted history) (hnotes : s'.notes = s.notes) :
    s'.Counted history := by
  have hsame (slot : KeySlot) : s'.counter? slot = s.counter? slot := by
    simp only [counter?, hnotes]
  refine ⟨?_, ?_, h.increasing, h.bounded⟩
  · intro slot
    rw [hsame]
    exact h.noted slot
  · intro slot k hk
    rw [hsame]
    exact h.below slot k hk

/-- A longer history has the same counters up to its last call. -/
theorem increasing_snoc
    (h : ∀ past rest, history = past ++ rest →
      ∀ slot, (loads slot (sinceErase past)).Pairwise (· < ·))
    (hlast : ∀ slot, (loads slot (sinceErase (history ++ [c]))).Pairwise (· < ·)) :
    ∀ past rest, history ++ [c] = past ++ rest →
      ∀ slot, (loads slot (sinceErase past)).Pairwise (· < ·) := by
  intro past rest hsplit
  rcases List.eq_nil_or_concat rest with rfl | ⟨rest, x, rfl⟩
  · rw [List.append_nil] at hsplit
    rw [← hsplit]
    exact hlast
  · rw [List.concat_eq_append, ← List.append_assoc] at hsplit
    exact h past rest (List.append_inj' hsplit rfl).1

theorem Counted.idle (h : s.Counted history) (hidle : Idle c) : s.Counted (history ++ [c]) := by
  have hsame (slot : KeySlot) :
      loads slot (sinceErase (history ++ [c])) = loads slot (sinceErase history) := by
    rw [sinceErase_snoc history hidle.erased, loads_snoc, hidle.loaded]
    exact List.append_nil _
  refine ⟨?_, ?_, increasing_snoc h.increasing ?_, ?_⟩
  · intro slot
    rw [hsame]
    exact h.noted slot
  · intro slot
    rw [hsame]
    exact h.below slot
  · intro slot
    rw [hsame]
    exact h.increasing history [] (List.append_nil _).symm slot
  · intro slot
    rw [loads_snoc, hidle.loaded]
    simpa using h.bounded slot

/-- A counter that is not refused exceeds the one that is noted. -/
theorem lt_of_checkCounter {counter stored : Nat} (h : s.checkCounter slot counter = .ok ())
    (hstored : s.counter? slot = some stored) : stored < counter := by
  obtain ⟨note, hnote, rfl⟩ := Option.map_eq_some_iff.mp hstored
  simp only [checkCounter, hnote] at h
  split at h
  case isTrue => cases h
  case isFalse hmore => omega

theorem le_maxCounter_of_receipt {authority : KeySlot} {key : Key} {counter : Nat}
    {element : ElementId} {receipt : KeyReceipt}
    (h : KeyReceipt.make authority slot key counter element = .ok receipt) :
    counter ≤ KeyOrder.maxCounter := by
  unfold KeyReceipt.make at h
  split at h
  case isTrue => cases h
  case isFalse hmore => omega

/-- A load that succeeds. -/
theorem Counted.load (h : s.Counted history) {key : Key} {counter : Nat} {flags : KeyFlags}
    {answer : KeyAnswer} (hload : c.load? = some (slot, key, counter, flags))
    (hended : c.stage = .ended (.ok answer)) (hmax : counter ≤ KeyOrder.maxCounter)
    (hnew : s.checkCounter slot counter = .ok ())
    (hnotes : s'.notes = s.notes.insert slot ⟨counter, some key⟩) :
    s'.Counted (history ++ [c]) := by
  have hloaded (slot' : KeySlot) :
      c.loaded? slot' = if slot = slot' then some counter else none := by
    simp [KeyCall.loaded?, hload, hended]
  have herased : c.erased = false := by
    unfold KeyCall.erased
    split
    case h_1 hrequest _ => simp [KeyCall.load?, hrequest] at hload
    case h_2 => rfl
  have hself : s'.counter? slot = some counter := by simp [counter?, hnotes]
  have hother (slot' : KeySlot) (hne : slot ≠ slot') : s'.counter? slot' = s.counter? slot' := by
    simp [counter?, hnotes, Dictionary.get?_insert_of_ne _ (Ne.symm hne)]
  have hloads (slot' : KeySlot) : loads slot' (sinceErase (history ++ [c])) =
      loads slot' (sinceErase history) ++ (c.loaded? slot').toList := by
    rw [sinceErase_snoc history herased, loads_snoc]
  -- The counters before are not above the one that was noted, and the new one is.
  have hlt : ∀ k ∈ loads slot (sinceErase history), k < counter := by
    intro k hk
    obtain ⟨stored, hstored, hle⟩ := h.below slot k hk
    have hmore := lt_of_checkCounter hnew hstored
    omega
  refine ⟨?_, ?_, increasing_snoc h.increasing ?_, ?_⟩
  · intro slot'
    rw [hloads, hloaded]
    by_cases hsame : slot = slot'
    · subst hsame
      simpa using hself
    · rw [hother slot' hsame]
      simpa [hsame] using h.noted slot'
  · intro slot' k hk
    rw [hloads, hloaded] at hk
    by_cases hsame : slot = slot'
    · subst hsame
      refine ⟨counter, hself, ?_⟩
      rcases List.mem_append.mp hk with hk | hk
      · exact (hlt k hk).le
      · simp at hk
        exact hk.le
    · rw [hother slot' hsame]
      exact h.below slot' k (by simpa [hsame] using hk)
  · intro slot'
    have hbefore := h.increasing history [] (List.append_nil _).symm slot'
    rw [hloads, hloaded]
    by_cases hsame : slot = slot'
    · subst hsame
      simpa [List.pairwise_append, hbefore] using hlt
    · simpa [hsame] using hbefore
  · intro slot' k hk
    rw [loads_snoc, hloaded] at hk
    rcases List.mem_append.mp hk with hk | hk
    · exact h.bounded slot' k hk
    · by_cases hsame : slot = slot'
      · simp [hsame] at hk
        omega
      · simp [hsame] at hk

/-- A successful erase. -/
theorem Counted.erase (h : s.Counted history) {answer : KeyAnswer} (hrequest : c.request = .erase)
    (hended : c.stage = .ended (.ok answer)) (hnotes : s'.notes = ∅) :
    s'.Counted (history ++ [c]) := by
  have herased : c.erased = true := by simp [KeyCall.erased, hrequest, hended]
  have hnone (slot : KeySlot) : loads slot (sinceErase (history ++ [c])) = [] := by
    rw [sinceErase_snoc_of_erased history herased]
    rfl
  refine ⟨?_, ?_, increasing_snoc h.increasing ?_, ?_⟩
  · intro slot
    simp [hnone, counter?, hnotes]
  · intro slot k hk
    rw [hnone] at hk
    cases hk
  · intro slot
    rw [hnone]
    exact List.Pairwise.nil
  · intro slot k hk
    have hload : c.loaded? slot = none := by simp [KeyCall.loaded?, KeyCall.load?, hrequest]
    rw [loads_snoc, hload] at hk
    exact h.bounded slot k (by simpa using hk)

/-! ## Runs -/

/-- An event keeps what the notes say, when no slot is noted that was loaded elsewhere. -/
theorem Counted.event (h : s.Counted history) (hcoherent : s.Coherent) (now n : Nat)
    (e : KeyEvent) (hown : ∀ c, s.call? n = some c →
      ∀ slot key counter, c.request ≠ .remember slot key counter) :
    (s.step now n e).Counted (history ++ s.settled (.event now n e)) := by
  cases hget : s.call? n with
  | none =>
    have hsame : s.step now n e = s := by simp [step, hget]
    simpa [settled, hget, hsame] using h
  | some c =>
    obtain ⟨c', hmove, hget'⟩ := step_cases hget now e
    have hsettled : s.settled (.event now n e) =
        if c.outcome? = none ∧ c'.outcome?.isSome then [c'] else [] := by
      simp [settled, hget, hget']
    rw [hsettled]
    cases hopen : c.outcome? with
    | some outcome =>
      rw [step_of_ended hget (stage_of_outcome? hopen)]
      simpa using h
    | none =>
      cases hmove.effect (hcoherent.brings n c hget) hopen with
      | none hidle hnotes =>
        have hkept := h.of_notes hnotes
        split
        case isTrue => exact hkept.idle hidle
        case isFalse => simpa using hkept
      | note hrequest => exact absurd hrequest (hown c hget _ _ _)
      | load _ _ hload hreceipt _ hnew hended hnotes =>
        subst hended
        exact h.load hload rfl (le_maxCounter_of_receipt hreceipt) hnew hnotes
      | erase _ hrequest _ hended hnotes =>
        subst hended
        exact h.erase hrequest rfl hnotes

theorem counted_new (timeout : Nat) : Counted { timeout } [] := by
  refine ⟨fun slot => rfl, ?_, ?_, ?_⟩
  · intro slot k hk
    cases hk
  · intro past rest hsplit slot
    obtain ⟨rfl, -⟩ := List.append_eq_nil_iff.mp hsplit.symm
    exact List.Pairwise.nil
  · intro slot k hk
    cases hk

/-- Whatever the element answers, the notes say what the loads of a run have brought. -/
theorem counted_run (timeout : Nat) (deeds : List KeyDeed)
    (hown : ∀ slot key counter, .call (.remember slot key counter) ∉ deeds) :
    (run { timeout } deeds).Counted (KeyService.history { timeout } deeds) := by
  induction deeds using List.reverseRecOn with
  | nil => exact counted_new timeout
  | append_singleton deeds d ih =>
    have hbefore : ∀ slot key counter, .call (.remember slot key counter) ∉ deeds :=
      fun slot key counter hmem => hown slot key counter (List.mem_append_left _ hmem)
    rw [KeyService.history, trace_append, trace_singleton, run_append]
    by_cases hquiet : ∀ now n e, d ≠ .event now n e
    · have hnothing : (run { timeout } deeds).settled d = [] := by
        cases d with
        | event now n e => exact absurd rfl (hquiet now n e)
        | _ => rfl
      rw [hnothing, List.append_nil]
      exact (ih hbefore).of_notes (aside_act hquiet).notes
    · push Not at hquiet
      obtain ⟨now, n, e, rfl⟩ := hquiet
      refine (ih hbefore).event (coherent_run timeout deeds) now n e ?_
      intro c hget slot key counter hrequest
      rcases request_run hget with hcall | ⟨command, -, hother⟩
      · exact hbefore slot key counter (hrequest ▸ hcall)
      · exact nomatch hrequest.symm.trans hother

/-! ## Loads that fail -/

theorem isSome_load? (h : c'.request = c.request) : c'.load?.isSome = c.load?.isSome := by
  simp only [KeyCall.load?, h]
  cases c.request <;> rfl

/-- A call that loads something and succeeds has loaded a slot. -/
theorem not_idle_of_loaded {answer : KeyAnswer} (hload : c.load?.isSome)
    (hended : c.stage = .ended (.ok answer)) : ¬ Idle c := by
  intro hidle
  obtain ⟨⟨slot, key, counter, flags⟩, hsome⟩ := Option.isSome_iff_exists.mp hload
  have hloaded : c.loaded? slot = some counter := by simp [KeyCall.loaded?, hsome, hended]
  exact nomatch hloaded.symm.trans (hidle.loaded slot)

/-- A load succeeds with the receipt for its slot, key, counter and element, and with nothing
else. -/
theorem Coherent.receipt_of_load (h : s.Coherent) {answer : KeyAnswer}
    (hget : s.call? n = some c) (hopen : c.outcome? = none) (hload : c.load?.isSome)
    (hok : (s.step now n e).outcome? n = some (.ok answer)) :
    ∃ element order slot key counter flags receipt, c.stage = .loading element order ∧
      s.identity = some element ∧ c.load? = some (slot, key, counter, flags) ∧
      KeyReceipt.make .master slot key counter element = .ok receipt ∧
      e = .answer (.ok (.keyLoaded receipt)) := by
  obtain ⟨c', hmove, hget'⟩ := step_cases hget now e
  have hended : c'.stage = .ended (.ok answer) := by
    refine stage_of_outcome? ?_
    simpa [outcome?, hget'] using hok
  cases hmove.effect (h.brings n c hget) hopen with
  | none hidle =>
    have hload' : c'.load?.isSome := (isSome_load? hmove.request_eq).trans hload
    exact absurd hidle (not_idle_of_loaded hload' hended)
  | note hrequest => simp [KeyCall.load?, hrequest] at hload
  | load hstage hidentity hload hreceipt hevent =>
    exact ⟨_, _, _, _, _, _, _, hstage, hidentity, hload, hreceipt, hevent⟩
  | erase _ hrequest => simp [KeyCall.load?, hrequest] at hload

/-- Any other answer to a load ends it with an error. -/
theorem error_of_other_answer {element : ElementId} {order : KeyOrder} {key : Key} {counter : Nat}
    {flags : KeyFlags} {result : Except ElementFault Response} (hget : s.call? n = some c)
    (hstage : c.stage = .loading element order) (hload : c.load? = some (slot, key, counter, flags))
    (hother : ∀ receipt, KeyReceipt.make .master slot key counter element = .ok receipt →
      result ≠ .ok (.keyLoaded receipt)) :
    ∃ fault, (s.step now n (.answer result)).outcome? n = some (.error fault) := by
  obtain ⟨c', hmove, hget'⟩ := step_cases hget now (.answer result)
  have hcommand : c.stage.command? = some (.loadKey order) := by rw [hstage]; rfl
  -- It is enough to know the stage in which the call is then.
  suffices hended : ∃ fault, c'.stage = .ended (.error fault) by
    obtain ⟨fault, hended⟩ := hended
    exact ⟨fault, by simpa [outcome?, hget'] using outcome?_of_stage hended⟩
  generalize s.step now n (.answer result) = s' at hmove
  cases hmove with
  | stay hunfit => simp [KeyEvent.concerns, hcommand] at hunfit
  | @fail command fault => exact ⟨fault, rfl⟩
  | mismatch => exact ⟨.unverified, rfl⟩
  | confirm hstage' hload' hreceipt =>
    obtain ⟨rfl, -⟩ := CallStage.loading.inj (hstage.symm.trans hstage')
    obtain ⟨rfl, rfl, rfl, -⟩ : slot = _ ∧ key = _ ∧ counter = _ ∧ flags = _ := by
      simpa using hload.symm.trans hload'
    exact absurd rfl (hother _ hreceipt)
  | tell hstage' | name hstage' | answer hstage' | erase hstage' =>
    cases hstage.symm.trans hstage'

/-- No event of a load that ends with an error changes the notes. -/
theorem Coherent.notes_of_failed_load (h : s.Coherent) {later : List KeyDeed} {fault : KeyFault}
    (hget : s.call? n = some c) (hload : c.load?.isSome)
    (hfailed : ((s.step now n e).run later).outcome? n = some (.error fault)) :
    (s.step now n e).notes = s.notes := by
  cases hopen : c.outcome? with
  | some outcome => rw [step_of_ended hget (stage_of_outcome? hopen)]
  | none =>
    obtain ⟨c', hmove, hget'⟩ := step_cases hget now e
    cases hmove.effect (h.brings n c hget) hopen with
    | none _ hnotes => exact hnotes
    | note hrequest => simp [KeyCall.load?, hrequest] at hload
    | load _ _ _ _ _ _ hended =>
      -- The call would have ended with success.
      subst hended
      obtain ⟨d, hd, hstage⟩ := ended_run hget' rfl later
      simp [outcome?, hd, KeyCall.outcome?, hstage] at hfailed
    | erase _ hrequest => simp [KeyCall.load?, hrequest] at hload

/-! ## The counters of a run -/

/-- How a run has counted the loads of its slots. -/
structure CountersKept (s : KeyService) (deeds : List KeyDeed) : Prop where
  /-- Between two erases the counters of a slot grow in the order in which its loads succeed. -/
  increasing : ∀ past between rest, s.history deeds = past ++ (between ++ rest) →
    (∀ c ∈ between, c.erased = false) → ∀ slot, (loads slot between).Pairwise (· < ·) ∧
      ∀ k ∈ loads slot between, k ≤ 0xFFFFFFF
  /-- The counter of a slot is the one with which it was loaded last, if it was since the erase. -/
  noted : ∀ slot, (s.run deeds).counter? slot =
    (loads slot (sinceErase (s.history deeds))).getLast?
  /-- A load succeeds only with the receipt that is made from its slot, key, counter and element. -/
  proved : ∀ now n e c answer, (s.run deeds).call? n = some c → c.outcome? = none →
    c.load?.isSome → ((s.run deeds).step now n e).outcome? n = some (.ok answer) →
      ∃ element order slot key counter flags receipt, c.stage = .loading element order ∧
        (s.run deeds).identity = some element ∧ c.load? = some (slot, key, counter, flags) ∧
        KeyReceipt.make .master slot key counter element = .ok receipt ∧
        e = .answer (.ok (.keyLoaded receipt))
  /-- Every other answer to the order ends the load with an error. -/
  refused : ∀ now n c element order slot key counter flags result,
    (s.run deeds).call? n = some c → c.stage = .loading element order →
    c.load? = some (slot, key, counter, flags) →
    (∀ receipt, KeyReceipt.make .master slot key counter element = .ok receipt →
      result ≠ .ok (.keyLoaded receipt)) →
      ∃ fault, ((s.run deeds).step now n (.answer result)).outcome? n = some (.error fault)
  /-- No event of a load that ends with an error, then or later, changes what is noted. -/
  unchanged : ∀ now n e c later fault, (s.run deeds).call? n = some c → c.load?.isSome →
    (((s.run deeds).step now n e).run later).outcome? n = some (.error fault) →
      ((s.run deeds).step now n e).notes = (s.run deeds).notes

theorem Counted.increasing_between {past between rest : List KeyCall}
    (h : s.Counted (past ++ (between ++ rest))) (hno : ∀ c ∈ between, c.erased = false)
    (slot : KeySlot) : (loads slot between).Pairwise (· < ·) ∧
      ∀ k ∈ loads slot between, k ≤ KeyOrder.maxCounter := by
  have hgrown := h.increasing (past ++ between) rest (List.append_assoc _ _ _).symm slot
  -- None of these calls has erased the keys, so all of them have ended since the last erase.
  have hsplit : sinceErase (past ++ between) = sinceErase past ++ between := by
    clear hgrown h
    induction between using List.reverseRecOn with
    | nil => simp
    | append_singleton between c ih =>
      have hc : c.erased = false := hno c (by simp)
      rw [← List.append_assoc, sinceErase_snoc _ hc, ih fun d hd => hno d (by simp [hd]),
        List.append_assoc]
  rw [hsplit, loads, List.filterMap_append] at hgrown
  refine ⟨(List.pairwise_append.mp hgrown).2.1, ?_⟩
  intro k hk
  refine h.bounded slot k ?_
  simp only [loads, List.filterMap_append, List.mem_append]
  exact .inr (.inl hk)

/-- Whatever the element answers, the counters are kept in every run in which no slot is noted that
was loaded elsewhere. -/
theorem counters_kept_run (timeout : Nat) (deeds : List KeyDeed)
    (hown : ∀ slot key counter, .call (.remember slot key counter) ∉ deeds) :
    CountersKept { timeout } deeds := by
  have hcounted := counted_run timeout deeds hown
  have hcoherent := coherent_run timeout deeds
  refine ⟨?_, hcounted.noted, ?_, ?_, ?_⟩
  · intro past between rest hsplit hno slot
    rw [hsplit] at hcounted
    exact hcounted.increasing_between hno slot
  · intro now n e c answer hget hopen hload hok
    exact hcoherent.receipt_of_load hget hopen hload hok
  · intro now n c element order slot key counter flags result hget hstage hload hother
    exact error_of_other_answer hget hstage hload hother
  · intro now n e c later fault hget hload hfailed
    exact hcoherent.notes_of_failed_load hget hload hfailed

/-- A call that loads the first master key and asks the element who it is. -/
def loadBegun : List KeyDeed :=
  [.call (.load .master Block.zero 7 {}), .event 0 0 .go, .event 0 0 .go]

/-- The load with the answers of an element that gives a receipt for it. -/
def loadDone (receipt : KeyReceipt) : List KeyDeed :=
  loadBegun ++ [.event 1 0 (.answer (.ok (.identity ElementId.wildcard 0 Block.zero))),
    .event 2 0 (.answer (.ok (.keyLoaded receipt)))]

theorem first_load_counted :
    ∃ receipt, KeyReceipt.make .master .master Block.zero 7 ElementId.wildcard = .ok receipt ∧
      (∀ slot key counter, .call (.remember slot key counter) ∉ loadDone receipt) ∧
      CountersKept { timeout := 8 } (loadDone receipt) ∧
      loads .master (KeyService.history { timeout := 8 } (loadDone receipt)) = [7] := by
  obtain ⟨order, horder⟩ : ∃ order, KeyOrder.make Block.zero .master .master Block.zero 7 {}
      ElementId.wildcard = .ok order := ⟨_, rfl⟩
  obtain ⟨receipt, hreceipt⟩ : ∃ receipt,
      KeyReceipt.make .master .master Block.zero 7 ElementId.wildcard = .ok receipt := ⟨_, rfl⟩
  have hown : ∀ slot key counter, .call (.remember slot key counter) ∉ loadDone receipt := by
    simp [loadDone, loadBegun]
  refine ⟨receipt, hreceipt, hown, counters_kept_run 8 _ hown, ?_⟩
  have hbegun : run { timeout := 8 } loadBegun =
      { timeout := 8, holder := some 0
        calls := [{ request := .load .master Block.zero 7 {}, stage := .naming, counter := 1 }] } :=
    rfl
  have hopen : KeyService.trace settled { timeout := 8 } loadBegun = [] := rfl
  rw [KeyService.history, loadDone, trace_append, hbegun, hopen]
  simp [trace, settled, act, step, call?, stepCall, put, KeyCall.load?, checkCounter, respond,
    proceed, horder, confirm, hreceipt, finish, release, CallStage.command?, KeyCall.outcome?,
    loads, KeyCall.loaded?]

end KeyService
end VehicleGateway
