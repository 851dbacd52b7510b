import VehicleGateway.Proofs.Keys.Commands
import VehicleGateway.Proofs.Keys.Counters
import VehicleGateway.Proofs.Keys.VaultRun

/-!
# The notes of the key service and the slots of its element

The service notes each key that it has loaded, and the element stores it.  They do so in different
places and neither asks the other, but as long as the service is the only one that writes the slots,
what is noted is what is stored.

* `load_cases` says what an element makes of an order that the service gives it, and
  `authorize_cases` what it makes of an answer to its challenge.
* `Mirrored` is what every deed keeps.  Its main part is that a call with a command at the element
  is still entitled to it: nobody else has changed the notes meanwhile.
* `mirrored_run` says that notes and slots agree in every run.
-/

namespace VehicleGateway

/-- Whether a command can write the slots of an element. -/
def Command.writes : Command → Bool
  | .loadKey _ | .debugAuthorize _ => true
  | _ => false

/-- Whether a request leaves it to the service to write slots and notes. -/
def KeyRequest.lawful : KeyRequest → Bool
  | .ask command _ => !command.writes
  | .remember _ _ _ => false
  | _ => true

/-- Whether a caller leaves it to the service to write slots and notes. -/
def VaultDeed.lawful : VaultDeed → Bool
  | .call request => request.lawful
  | .start command => !command.writes
  | _ => true

namespace Element

variable {e : Element}

theorem slots_execute {command : Command} (h : command.writes = false) :
    (e.execute command).1.slots = e.slots := by
  cases command <;> first | rfl | cases h

/-- What becomes of an order that the master key was used for.  The element answers with the receipt
for what it stores. -/
theorem load_cases {slot : KeySlot} {key : Key} {counter : Nat} {flags : KeyFlags}
    {order : KeyOrder}
    (h : KeyOrder.make (e.authorityKey .master) .master slot key counter flags e.identity =
      .ok order) :
    (∃ fault, e.load order = (e, .error fault)) ∨
      ∃ receipt, KeyReceipt.make .master slot key counter e.identity = .ok receipt ∧
        e.load order = ({ e with slots := e.slots.insert slot ⟨key, counter, flags⟩ },
          .ok (.keyLoaded receipt)) := by
  -- The order names the slot and the master key, and says what the service put in.
  obtain ⟨hslot, hauthority, -, -, hsaid⟩ := KeyOrder.said_of_make h
  cases haccept : e.accept order with
  | error fault => exact .inl ⟨fault, by rw [load, haccept]⟩
  | ok accepted =>
    obtain ⟨slot', authority, terms⟩ := accepted
    obtain ⟨hpermits, hterms⟩ := permits_of_accept haccept
    obtain rfl := Option.some.inj (hslot.symm.trans hpermits.names)
    obtain rfl := Option.some.inj (hauthority.symm.trans hpermits.authorized)
    rw [hsaid] at hterms
    subst hterms
    cases hreceipt : KeyReceipt.make .master slot key counter e.identity with
    | error fault => exact .inl ⟨fault, by simp only [load, haccept, hreceipt]⟩
    | ok receipt => exact .inr ⟨receipt, rfl, by simp only [load, haccept, hreceipt]⟩

/-- An answer to the challenge erases all slots, or none. -/
theorem authorize_cases (e : Element) (proof : Block) :
    (∃ fault, (e.authorize proof).2 = .error fault ∧ (e.authorize proof).1.slots = e.slots) ∨
      ((e.authorize proof).2 = .ok .done ∧ (e.authorize proof).1.slots = ∅) := by
  have hcarried := e.carried_authorize proof
  generalize (e.authorize proof).1 = e', (e.authorize proof).2 = r at hcarried ⊢
  cases hcarried with
  | deny fault => exact .inl ⟨fault, rfl, rfl⟩
  | erase => exact .inr ⟨rfl, rfl⟩
  | read _ _ hreads => cases hreads

end Element

namespace KeyService

variable {s s' : KeyService} {now n m : Nat} {c c' : KeyCall} {event : KeyEvent} {e e' : Element}
  {slot : KeySlot} {counter : Nat}

/-- A slot is empty and not noted, or its key and its counter are noted. -/
def Agrees (s : KeyService) (e : Element) (slot : KeySlot) : Prop :=
  (s.notes.get? slot = none ∧ e.slots.get? slot = none) ∨
    ∃ key counter flags, s.notes.get? slot = some ⟨counter, some key⟩ ∧
      e.slots.get? slot = some ⟨key, counter, flags⟩

theorem Agrees.congr (h : s.Agrees e slot) (hnotes : s'.notes = s.notes)
    (hslots : e'.slots = e.slots) : s'.Agrees e' slot := by
  unfold Agrees
  rw [hnotes, hslots]
  exact h

/-- The key that the service takes for authority is the one by which the element judges. -/
theorem authority_eq_of_agrees {key : Key} (h : s.Agrees e .master)
    (hauthority : s.authority slot counter = .ok key) : key = e.authorityKey .master := by
  unfold authority at hauthority
  split at hauthority
  case h_1 => cases hauthority
  case h_2 =>
    rcases h with ⟨hnote, hslot⟩ | ⟨key', counter', flags, hnote, hslot⟩
    · simp only [hnote] at hauthority
      rw [Element.authorityKey_of_none hslot]
      split at hauthority
      · exact (Except.ok.inj hauthority).symm
      · cases hauthority
    · simp only [hnote, Except.ok.injEq] at hauthority
      rw [Element.authorityKey_of_some hslot]
      exact hauthority.symm

theorem checkCounter_of_authority {key : Key} (h : s.authority slot counter = .ok key) :
    s.checkCounter slot counter = .ok () := by
  unfold authority at h
  split at h
  case h_1 => cases h
  case h_2 hcheck => exact hcheck

/-- The right to load depends on the notes. -/
theorem Entitled.congr (h : s.Entitled c) (hnotes : s'.notes = s.notes)
    (hload : c'.load? = c.load?) (hauthority : c'.authority = c.authority) : s'.Entitled c' := by
  have hsame (slot : KeySlot) (counter : Nat) :
      s'.authority slot counter = s.authority slot counter := by
    simp only [authority, checkCounter, hnotes]
  intro slot key counter flags hloads
  rw [hload] at hloads
  rw [hsame, hauthority]
  exact h slot key counter flags hloads

/-- A call that keeps a command at the element keeps the right to it, or has just got it. -/
theorem Move.entitled (h : Move s now n c event c' s') (hcommand : c'.stage.command?.isSome)
    (hbefore : c.stage.command?.isSome → s.Entitled c) : s'.Entitled c' := by
  cases h with
  | stay => exact hbefore hcommand
  | use _ hright hproceeds =>
    cases hproceeds with
    | ends => cases hcommand
    | gives => exact hright.congr rfl rfl rfl
  | name hstage hproceeds =>
    cases hproceeds with
    | ends => cases hcommand
    | gives => exact (hbefore (by rw [hstage]; rfl)).congr rfl rfl rfl
  | answer hstage hproof =>
    subst hproof
    exact (hbefore (by rw [hstage]; rfl)).congr rfl rfl rfl
  | _ => cases hcommand

/-- The identity of the element becomes known from its own answer, and else stays. -/
theorem Move.identity_cases (h : Move s now n c event c' s') :
    s'.identity = s.identity ∨ ∃ element status mac, c.stage = .naming ∧
      event = .answer (.ok (.identity element status mac)) ∧ s'.identity = some element := by
  by_cases hstage : c.stage = .naming
  · cases h with
    | @name element status mac c' s' _ hproceeds =>
      exact .inr ⟨element, status, mac, hstage, rfl, hproceeds.identity_eq⟩
    | stay | seize | line | grant | expire | answer => exact .inl rfl
    | use _ _ hproceeds => exact .inl hproceeds.identity_eq
    | _ => exact .inl (identity_finish _ _ _ _)
  · exact .inl (h.identity_eq hstage)

/-- Only a load whose receipt is wrong ends in this way. -/
theorem Move.unverified_cases (h : Move s now n c event c' s')
    (hended : c'.stage = .ended (.error .unverified)) :
    c.stage = .ended (.error .unverified) ∨ ∃ element order receipt,
      c.stage = .loading element order ∧ event = .answer (.ok (.keyLoaded receipt)) := by
  have hproceeds {t : KeyService} {c₀ : KeyCall} (h : t.Proceeds n c₀ c' s') : False := by
    cases h with
    | ends hplain => exact hplain.verified (CallStage.ended.inj hended)
    | gives stage hcommand =>
      obtain rfl : stage = .ended (.error .unverified) := hended
      cases hcommand
  cases h with
  | stay => exact .inl hended
  | decline _ hplain => exact absurd (CallStage.ended.inj hended) hplain.verified
  | fail _ hfault => exact absurd (Except.error.inj (CallStage.ended.inj hended)) hfault
  | use _ _ hgoes => exact (hproceeds hgoes).elim
  | name _ hgoes => exact (hproceeds hgoes).elim
  | answer _ hproof =>
    subst hproof
    cases hended
  | mismatch hstage => exact .inr ⟨_, _, _, hstage, rfl⟩
  | _ => cases hended

/-- The service takes note of a key for the right receipt. -/
theorem step_of_receipt {element : ElementId} {order : KeyOrder} {key : Key} {flags : KeyFlags}
    {receipt : KeyReceipt} (hget : s.call? n = some c) (hstage : c.stage = .loading element order)
    (hload : c.load? = some (slot, key, counter, flags))
    (hreceipt : KeyReceipt.make .master slot key counter element = .ok receipt)
    (hnew : s.checkCounter slot counter = .ok ()) :
    s.step now n (.answer (.ok (.keyLoaded receipt))) =
      { s with notes := s.notes.insert slot ⟨counter, some key⟩ }.finish n c
        (.ok c.loadedAnswer) := by
  simp [step, hget, stepCall, hstage, CallStage.command?, respond, confirm, hload, hreceipt, hnew]

theorem step_of_erased {proof : Block} (hget : s.call? n = some c)
    (hstage : c.stage = .authorizing proof) :
    s.step now n (.answer (.ok .done)) = { s with notes := ∅ }.finish n c (.ok .done) := by
  simp [step, hget, stepCall, hstage, CallStage.command?, respond]

/-- Notes change with the events of a load or an erase that the element answers. -/
theorem notes_step (h : s.Coherent) (hget : s.call? n = some c) (hlawful : c.request.lawful)
    (hother : (∀ element order, c.stage = .loading element order → ∀ r, event ≠ .answer (.ok r)) ∧
      (∀ proof, c.stage = .authorizing proof → ∀ r, event ≠ .answer (.ok r))) :
    (s.step now n event).notes = s.notes := by
  cases hopen : c.outcome? with
  | some outcome => rw [step_of_ended hget (stage_of_outcome? hopen)]
  | none =>
    obtain ⟨c', hmove, hget'⟩ := step_cases hget now event
    cases hmove.effect (h.brings n c hget) hopen with
    | none _ hnotes => exact hnotes
    | note hrequest => simp [hrequest, KeyRequest.lawful] at hlawful
    | load hstage _ _ _ hevent => exact absurd hevent (hother.1 _ _ hstage _)
    | erase hstage _ hevent => exact absurd hevent (hother.2 _ hstage _)

end KeyService

namespace Vault

variable {v v' : Vault} {now n m : Nat} {c : KeyCall} {e : KeyEvent}

/-- The service notes what the element stores, and every call is still entitled to what it does. -/
structure Mirrored (v : Vault) : Prop where
  coherent : v.service.Coherent
  lawful : ∀ n c, v.service.call? n = some c → c.request.lawful
  /-- The element gives its own answers. -/
  unset : v.device.stands = []
  underWay : ∀ n i, v.underWay.get? n = some i → i.stand = none ∧
    ∃ c, v.service.call? n = some c ∧
      (c.stage.command? = some i.command ∨ ∃ outcome, c.stage = .ended outcome)
  identity : ∀ element, v.service.identity = some element → element = v.device.element.identity
  entitled : ∀ n c, v.service.call? n = some c → c.stage.command?.isSome → v.service.Entitled c
  agrees : ∀ slot, v.service.Agrees v.device.element slot
  verified : ∀ n c, v.service.call? n = some c → c.stage ≠ .ended (.error .unverified)

/-- Nothing is under way for a call that has given nothing to the element. -/
theorem Mirrored.idle (h : v.Mirrored) (hget : v.service.call? n = some c)
    (hnone : c.stage.command? = none) (hopen : c.outcome? = none) : v.underWay.get? n = none := by
  cases hunderWay : v.underWay.get? n with
  | none => rfl
  | some i =>
    obtain ⟨-, d, hd, hcommand | ⟨outcome, hended⟩⟩ := h.underWay n i hunderWay
    · obtain rfl := Option.some.inj (hget.symm.trans hd)
      exact nomatch hnone.symm.trans hcommand
    · obtain rfl := Option.some.inj (hget.symm.trans hd)
      exact nomatch hopen.symm.trans (KeyService.outcome?_of_stage hended)

/-- An event of a call keeps everything, if notes and slots agree after it, too. -/
theorem Mirrored.event (h : v.Mirrored) (hget : v.service.call? n = some c)
    (hservice : v'.service = v.service.step now n e) (hunset : v'.device.stands = [])
    (helement : v'.device.element.identity = v.device.element.identity)
    (hidle : v'.underWay.get? n = none)
    (hothers : ∀ m, n ≠ m → v'.underWay.get? m = v.underWay.get? m)
    (hnames : ∀ element status mac, c.stage = .naming →
      e = .answer (.ok (.identity element status mac)) → element = v.device.element.identity)
    (hagrees : ∀ slot, v'.service.Agrees v'.device.element slot)
    (hnotes : v'.service.notes = v.service.notes ∨ c.stage.active = true)
    (hverified : ∀ c', v'.service.call? n = some c' → c'.stage ≠ .ended (.error .unverified)) :
    v'.Mirrored := by
  obtain ⟨c', hmove, hget'⟩ := KeyService.step_cases hget now e
  rw [← hservice] at hmove hget'
  have hsame (m : Nat) (hnm : n ≠ m) : v'.service.call? m = v.service.call? m :=
    hmove.call?_of_ne hnm
  refine ⟨h.coherent.move hget hmove, ?_, hunset, ?_, ?_, ?_, hagrees, ?_⟩
  · intro m d hm
    by_cases hnm : n = m
    · subst hnm
      obtain rfl := Option.some.inj (hget'.symm.trans hm)
      rw [hmove.request_eq]
      exact h.lawful n c hget
    · exact h.lawful m d (by rwa [hsame m hnm] at hm)
  · intro m i hi
    have hnm : n ≠ m := by
      rintro rfl
      exact nomatch hidle.symm.trans hi
    rw [hothers m hnm] at hi
    rw [hsame m hnm]
    exact h.underWay m i hi
  · intro element hknown
    rw [helement]
    rcases hmove.identity_cases with hkept | ⟨element', status, mac, hstage, hevent, hnew⟩
    · exact h.identity element (by rwa [hkept] at hknown)
    · obtain rfl := Option.some.inj (hnew.symm.trans hknown)
      exact hnames _ _ _ hstage hevent
  · intro m d hm hcommand
    by_cases hnm : n = m
    · subst hnm
      obtain rfl := Option.some.inj (hget'.symm.trans hm)
      exact hmove.entitled hcommand (h.entitled n c hget)
    · rw [hsame m hnm] at hm
      rcases hnotes with hnotes | hactive
      · exact (h.entitled m d hm hcommand).congr hnotes rfl rfl
      · -- Another call has the token, so this one cannot have a command at the element.
        obtain ⟨command, hcommand⟩ := Option.isSome_iff_exists.mp hcommand
        exact absurd (h.coherent.orderly.eq_of_active hget hm hactive
          (CallStage.active_of_command? hcommand)) hnm
  · intro m d hm
    by_cases hnm : n = m
    · subst hnm
      exact hverified d hm
    · exact h.verified m d (by rwa [hsame m hnm] at hm)

/-- An event that is no answer changes no notes. -/
theorem Mirrored.event_quiet (h : v.Mirrored) (hget : v.service.call? n = some c)
    (hquiet : ∀ result, e ≠ .answer result)
    (hservice : v'.service = v.service.step now n e) (hunset : v'.device.stands = [])
    (hslots : v'.device.element.slots = v.device.element.slots)
    (helement : v'.device.element.identity = v.device.element.identity)
    (hidle : v'.underWay.get? n = none)
    (hothers : ∀ m, n ≠ m → v'.underWay.get? m = v.underWay.get? m) : v'.Mirrored := by
  have hnotes : v'.service.notes = v.service.notes := by
    rw [hservice]
    exact KeyService.notes_step h.coherent hget (h.lawful n c hget)
      ⟨fun _ _ _ r => hquiet _, fun _ _ r => hquiet _⟩
  refine h.event hget hservice hunset helement hidle hothers ?_ ?_ (.inl hnotes) ?_
  · exact fun element status mac _ hevent => absurd hevent (hquiet _)
  · exact fun slot => (h.agrees slot).congr hnotes hslots
  · intro d hd hended
    obtain ⟨c', hmove, hget'⟩ := KeyService.step_cases hget now e
    rw [hservice] at hd
    obtain rfl := Option.some.inj (hget'.symm.trans hd)
    rcases hmove.unverified_cases hended with hbefore | ⟨_, _, receipt, -, hevent⟩
    · exact h.verified n c hget hbefore
    · exact hquiet _ hevent

/-! ## Answers of the element -/

/-- A vault after the element has answered a command. -/
def answered (v : Vault) (now n : Nat) (command : Command) : Vault where
  service := v.service.step now n (.answer (v.device.element.execute command).2)
  device := { v.device with element := (v.device.element.execute command).1 }
  underWay := v.underWay.erase n

variable {command : Command}

theorem complete_eq_answered (now : Nat) {i : Invocation} (h : i.stand = none) :
    v.complete now n i = v.answered now n i.command := by
  simp only [Vault.complete, h, answered]

/-- What is left to show of an answer. -/
theorem Mirrored.of_answered (h : v.Mirrored) (hget : v.service.call? n = some c)
    (hcommand : c.stage.command? = some command)
    (hagrees : ∀ slot, (v.answered now n command).service.Agrees
      (v.answered now n command).device.element slot)
    (hverified : ∀ c', (v.answered now n command).service.call? n = some c' →
      c'.stage ≠ .ended (.error .unverified)) : (v.answered now n command).Mirrored := by
  refine h.event hget rfl h.unset (Element.identity_execute _ _) (Dictionary.get?_erase_self _ _)
    ?_ ?_ hagrees (.inr (CallStage.active_of_command? hcommand)) hverified
  · exact fun m hnm => Dictionary.get?_erase_of_ne _ (Ne.symm hnm)
  · intro element status mac hstage hevent
    obtain rfl : Command.identify Block.zero = command := by
      simpa [hstage, CallStage.command?] using hcommand
    -- The element says who it is.
    simp only [Element.execute, Element.identification, KeyEvent.answer.injEq, Except.ok.injEq,
      Response.identity.injEq] at hevent
    exact hevent.1.symm

/-- The element answers with a fault, and keeps its slots. -/
theorem Mirrored.of_fault (h : v.Mirrored) (hget : v.service.call? n = some c)
    (hcommand : c.stage.command? = some command) {fault : ElementFault}
    (hfault : (v.device.element.execute command).2 = .error fault)
    (hslots : (v.device.element.execute command).1.slots = v.device.element.slots) :
    (v.answered now n command).Mirrored := by
  have hservice : (v.answered now n command).service =
      v.service.finish n c (.error (.element fault)) := by
    simp only [answered, hfault]
    exact KeyService.step_of_fault now hget hcommand
  refine h.of_answered hget hcommand ?_ ?_
  · intro slot
    refine (h.agrees slot).congr ?_ hslots
    rw [hservice]
    exact KeyService.notes_finish _ _ _ _
  · intro d hd
    rw [hservice] at hd
    obtain rfl := KeyService.ended_of_finish hget hd
    simp

/-- A command that writes no slot. -/
theorem Mirrored.answered_plain (h : v.Mirrored) (hget : v.service.call? n = some c)
    (hcommand : c.stage.command? = some command) (hplain : command.writes = false) :
    (v.answered now n command).Mirrored := by
  have hloading : ∀ element order, c.stage ≠ .loading element order := by
    intro element order hstage
    obtain rfl : Command.loadKey order = command := by
      simpa [hstage, CallStage.command?] using hcommand
    cases hplain
  have hauthorizing : ∀ proof, c.stage ≠ .authorizing proof := by
    intro proof hstage
    obtain rfl : Command.debugAuthorize proof = command := by
      simpa [hstage, CallStage.command?] using hcommand
    cases hplain
  refine h.of_answered hget hcommand ?_ ?_
  · intro slot
    refine (h.agrees slot).congr ?_ (Element.slots_execute hplain)
    refine KeyService.notes_step h.coherent hget (h.lawful n c hget) ⟨?_, ?_⟩
    · exact fun element order hstage => absurd hstage (hloading element order)
    · exact fun proof hstage => absurd hstage (hauthorizing proof)
  · intro d hd hended
    obtain ⟨c', hmove, hget'⟩ := KeyService.step_cases hget now
      (.answer (v.device.element.execute command).2)
    obtain rfl := Option.some.inj (hget'.symm.trans hd)
    rcases hmove.unverified_cases hended with hbefore | ⟨element, order, _, hstage, -⟩
    · exact h.verified n c hget hbefore
    · exact hloading element order hstage

/-- The element has carried out an order, and the service takes note of the key. -/
theorem answered_of_loaded (hget : v.service.call? n = some c) {element : ElementId}
    {order : KeyOrder} (hstage : c.stage = .loading element order) {slot : KeySlot} {key : Key}
    {counter : Nat} {flags : KeyFlags} (hload : c.load? = some (slot, key, counter, flags))
    (hnew : v.service.checkCounter slot counter = .ok ()) {receipt : KeyReceipt}
    (hreceipt : KeyReceipt.make .master slot key counter element = .ok receipt) {stored : Element}
    (hstored : v.device.element.load order = (stored, .ok (.keyLoaded receipt))) (now : Nat) :
    v.answered now n (.loadKey order) = { v with
      service := { v.service with notes := v.service.notes.insert slot ⟨counter, some key⟩ }.finish
        n c (.ok c.loadedAnswer)
      device := { v.device with element := stored }
      underWay := v.underWay.erase n } := by
  simp only [answered, Element.execute, hstored]
  rw [KeyService.step_of_receipt hget hstage hload hreceipt hnew]

/-- The order of a load.  The element stores the key and the service notes it, or neither does. -/
theorem Mirrored.answered_load (h : v.Mirrored) (hget : v.service.call? n = some c)
    {element : ElementId} {order : KeyOrder} (hstage : c.stage = .loading element order) :
    (v.answered now n (.loadKey order)).Mirrored := by
  have hcommand : c.stage.command? = some (.loadKey order) := by rw [hstage]; rfl
  have hbrings := h.coherent.brings n c hget
  rw [hstage] at hbrings
  obtain ⟨hidentity, slot, key, counter, flags, hload, hmake⟩ := hbrings
  obtain rfl := h.identity element hidentity
  have hentitled := h.entitled n c hget (by rw [hcommand]; rfl) slot key counter flags hload
  rw [KeyService.authority_eq_of_agrees (h.agrees .master) hentitled] at hmake
  rcases Element.load_cases hmake with ⟨fault, hfault⟩ | ⟨receipt, hreceipt, hstored⟩
  · exact h.of_fault hget hcommand (congrArg Prod.snd hfault) (by rw [Element.execute, hfault])
  · have hanswered := answered_of_loaded hget hstage hload
      (KeyService.checkCounter_of_authority hentitled) hreceipt hstored now
    refine h.of_answered hget hcommand ?_ ?_
    · intro slot'
      unfold KeyService.Agrees
      rw [hanswered]
      simp only [KeyService.notes_finish]
      by_cases hslot : slot' = slot
      · subst hslot
        exact .inr ⟨key, counter, flags, Dictionary.get?_insert_self _ _ _,
          Dictionary.get?_insert_self _ _ _⟩
      · rw [Dictionary.get?_insert_of_ne _ hslot, Dictionary.get?_insert_of_ne _ hslot]
        exact h.agrees slot'
    · intro d hd
      rw [hanswered] at hd
      obtain rfl := KeyService.ended_of_finish
        (s := { v.service with notes := v.service.notes.insert slot ⟨counter, some key⟩ }) hget hd
      simp

/-- The answer to the challenge.  Both the element and the service forget all keys, or neither. -/
theorem Mirrored.answered_erase (h : v.Mirrored) (hget : v.service.call? n = some c)
    {proof : Block} (hstage : c.stage = .authorizing proof) :
    (v.answered now n (.debugAuthorize proof)).Mirrored := by
  have hcommand : c.stage.command? = some (.debugAuthorize proof) := by rw [hstage]; rfl
  rcases v.device.element.authorize_cases proof with ⟨fault, hfault, hslots⟩ | ⟨hdone, hslots⟩
  · exact h.of_fault hget hcommand hfault hslots
  · have hservice : (v.answered now n (.debugAuthorize proof)).service =
        { v.service with notes := ∅ }.finish n c (.ok .done) := by
      simp only [answered, Element.execute, hdone]
      exact KeyService.step_of_erased hget hstage
    refine h.of_answered hget hcommand ?_ ?_
    · intro slot
      refine .inl ⟨?_, ?_⟩
      · rw [hservice, KeyService.notes_finish]
        rfl
      · change (v.device.element.authorize proof).1.slots.get? slot = none
        rw [hslots]
        rfl
    · intro d hd
      rw [hservice] at hd
      obtain rfl := KeyService.ended_of_finish (s := { v.service with notes := ∅ }) hget hd
      simp

/-- The element answers a command. -/
theorem Mirrored.complete (h : v.Mirrored) (hget : v.service.call? n = some c)
    (hcommand : c.stage.command? = some command) {i : Invocation}
    (hunderWay : v.underWay.get? n = some i) : (v.complete now n i).Mirrored := by
  obtain ⟨hstand, d, hd, hcases⟩ := h.underWay n i hunderWay
  obtain rfl := Option.some.inj (hget.symm.trans hd)
  have hsame : i.command = command := by
    rcases hcases with hi | ⟨outcome, hended⟩
    · exact Option.some.inj (hi.symm.trans hcommand)
    · simp [hended, CallStage.command?] at hcommand
  rw [complete_eq_answered now hstand, hsame]
  cases hstage : c.stage with
  | loading element order =>
    obtain rfl : Command.loadKey order = command := by
      simpa [hstage, CallStage.command?] using hcommand
    exact h.answered_load hget hstage
  | authorizing proof =>
    obtain rfl : Command.debugAuthorize proof = command := by
      simpa [hstage, CallStage.command?] using hcommand
    exact h.answered_erase hget hstage
  | asking asked want =>
    obtain rfl : asked = command := by simpa [hstage, CallStage.command?] using hcommand
    have hbrings := h.coherent.brings n c hget
    rw [hstage] at hbrings
    have hrequest : c.request = .ask asked want := hbrings
    have hlawful := h.lawful n c hget
    exact h.answered_plain hget hcommand (by simpa [hrequest, KeyRequest.lawful] using hlawful)
  | naming | challenging element =>
    simp only [hstage, CallStage.command?, Option.some.injEq] at hcommand
    exact h.answered_plain hget (by rw [hstage, ← hcommand]; rfl) (by rw [← hcommand]; rfl)
  | _ => simp [hstage, CallStage.command?] at hcommand

/-! ## Runs -/

/-- The element is given a command, and will answer it by itself. -/
theorem exists_invocation (hunset : v.device.stands = []) (now n : Nat) (command : Command) :
    ∃ i : Invocation, i.command = command ∧ i.stand = none ∧
      i.due = now + v.device.latency ∧ i.limit = now + v.service.timeout ∧
      v.invoke now n command = { v with underWay := v.underWay.insert n i } := by
  have hstands : { v.device with stands := [] } = v.device := by rw [← hunset]
  refine ⟨⟨command, now + v.device.latency, now + v.service.timeout, none⟩, rfl, rfl, rfl, rfl, ?_⟩
  simp [Vault.invoke, hunset, takeStand, hstands]

/-- A command is given to the element, which gives its own answer later. -/
theorem Mirrored.invoke (h : v.Mirrored) (hget : v.service.call? n = some c)
    (hcommand : c.stage.command? = some command) (now : Nat) :
    (v.invoke now n command).Mirrored := by
  obtain ⟨i, hi, hstand, -, -, hinvoke⟩ := exists_invocation h.unset now n command
  rw [hinvoke]
  refine ⟨h.coherent, h.lawful, h.unset, ?_, h.identity, h.entitled, h.agrees, h.verified⟩
  intro m i' hi'
  by_cases hmn : m = n
  · subst hmn
    obtain rfl := Option.some.inj ((Dictionary.get?_insert_self _ _ _).symm.trans hi')
    exact ⟨hstand, c, hget, .inl (by rw [hi]; exact hcommand)⟩
  · exact h.underWay m i' (by rwa [Dictionary.get?_insert_of_ne _ hmn] at hi')

/-- A turn keeps notes and slots together. -/
theorem Mirrored.turn (h : v.Mirrored) (hget : v.service.call? n = some c)
    (hturn : Turn v now n c v') : v'.Mirrored := by
  cases hturn with
  | go hevent haway hopen =>
    refine h.event_quiet hget ?_ rfl h.unset rfl rfl (h.idle hget haway hopen) fun _ _ => rfl
    rcases hevent with rfl | rfl <;> simp
  | cancel hstage =>
    refine h.event_quiet hget (by simp) rfl h.unset rfl rfl ?_ fun _ _ => rfl
    exact h.idle hget (by rw [hstage]; rfl) (by simp [KeyCall.outcome?, hstage])
  | invoke hcommand => exact h.invoke hget hcommand now
  | complete hcommand hunderWay => exact h.complete hget hcommand hunderWay
  | expire =>
    refine h.event_quiet hget (by simp) rfl h.unset rfl rfl (Dictionary.get?_erase_self _ _) ?_
    exact fun m hnm => Dictionary.get?_erase_of_ne _ (Ne.symm hnm)

/-- What callers do without the element keeps notes and slots together. -/
theorem Mirrored.aside (h : v.Mirrored) {s' : KeyService} (hcoherent : s'.Coherent)
    (haside : v.service.Aside s') (hlawful : ∀ n c, s'.call? n = some c → c.request.lawful) :
    Mirrored { v with service := s' } := by
  refine ⟨hcoherent, hlawful, h.unset, ?_, ?_, ?_, ?_, ?_⟩
  · intro n i hi
    obtain ⟨hstand, c, hget, hcases⟩ := h.underWay n i hi
    obtain ⟨d, hd, hstage | hended⟩ := haside.kept n c hget
    · exact ⟨hstand, d, hd, by rwa [hstage]⟩
    · exact ⟨hstand, d, hd, .inr hended⟩
  · intro element hknown
    exact h.identity element (haside.identity ▸ hknown)
  · intro n d hd hcommand
    rcases haside.calls n d hd with hold | ⟨hnone, -⟩
    · exact (h.entitled n d hold hcommand).congr haside.notes rfl rfl
    · simp [hnone] at hcommand
  · exact fun slot => (h.agrees slot).congr haside.notes rfl
  · intro n d hd
    rcases haside.calls n d hd with hold | ⟨-, ⟨c, hget, hstage⟩ | hopen⟩
    · exact h.verified n d hold
    · rw [hstage]
      exact h.verified n c hget
    · exact hopen

/-- A lawful deed without the element. -/
theorem Mirrored.deed (h : v.Mirrored) (deed : KeyDeed)
    (hquiet : ∀ now n e, deed ≠ .event now n e)
    (hcall : ∀ request, deed = .call request → request.lawful)
    (hstart : ∀ command, deed = .start command → command.writes = false) :
    Mirrored { v with service := v.service.act deed } := by
  refine h.aside (h.coherent.act deed) (KeyService.aside_act hquiet) ?_
  intro n d hd
  rcases KeyService.request_act hd with ⟨c, hget, hsame⟩ | hnew | ⟨command, hnew, hrequest⟩
  · rw [hsame]
    exact h.lawful n c hget
  · exact hcall _ hnew
  · simp [hrequest, KeyRequest.lawful, hstart command hnew]

theorem Mirrored.act (h : v.Mirrored) (d : VaultDeed) (hd : d.lawful) : (v.act d).Mirrored := by
  cases d with
  | call request =>
    refine h.deed (.call request) (by simp) ?_ (by simp)
    rintro _ ⟨⟩
    exact hd
  | start command =>
    have hact : v.act (.start command) = { v with service := v.service.act (.start command) } := by
      simp only [Vault.act, Vault.start, KeyService.act]
      cases v.service.start command <;> rfl
    rw [hact]
    refine h.deed (.start command) (by simp) (by simp) ?_
    rintro _ ⟨⟩
    simpa [VaultDeed.lawful] using hd
  | turn now n =>
    change ((v.step? now n).getD v).Mirrored
    cases hstep : v.step? now n with
    | none => exact h
    | some v' =>
      obtain ⟨c, hget, hturn⟩ := turn_cases hstep
      exact h.turn hget hturn
  | take n => exact h.deed (.take n) (by simp) (by simp) (by simp)
  | drop n => exact h.deed (.drop n) (by simp) (by simp) (by simp)

theorem mirrored_fresh (timeout : Nat) (identity : ElementId) (entropy : Nat → Block)
    (latency : Nat) : (fresh timeout identity entropy latency).Mirrored := by
  have hnone (n : Nat) : (fresh timeout identity entropy latency).service.call? n = none := rfl
  refine ⟨KeyService.coherent_new timeout, ?_, rfl, ?_, ?_, ?_, ?_, ?_⟩
  · exact fun n c hget => nomatch (hnone n).symm.trans hget
  · intro n i hi
    cases hi
  · intro element hknown
    cases hknown
  · exact fun n c hget => nomatch (hnone n).symm.trans hget
  · exact fun slot => .inl ⟨rfl, rfl⟩
  · exact fun n c hget => nomatch (hnone n).symm.trans hget

/-- In every run in which the callers leave it to the service to write slots and notes, what is
noted of a slot is at every time what the element stores, also while a call has the token; and no
load ends because its receipt is wrong. -/
theorem mirrored_run (timeout : Nat) (identity : ElementId) (entropy : Nat → Block) (latency : Nat)
    (deeds : List VaultDeed) (hlawful : ∀ d ∈ deeds, d.lawful) :
    (∀ slot, ((fresh timeout identity entropy latency).actAll deeds).service.Agrees
      ((fresh timeout identity entropy latency).actAll deeds).device.element slot) ∧
    ∀ n, ((fresh timeout identity entropy latency).actAll deeds).outcome? n ≠
      some (.error .unverified) := by
  have hmirrored : ((fresh timeout identity entropy latency).actAll deeds).Mirrored :=
    actAll_induction (mirrored_fresh timeout identity entropy latency)
      fun _ d hd h => h.act d (hlawful d hd)
  refine ⟨hmirrored.agrees, ?_⟩
  intro n houtcome
  obtain ⟨c, hget, hended⟩ := Option.bind_eq_some_iff.mp houtcome
  exact hmirrored.verified n c hget (KeyService.stage_of_outcome? hended)

/-- An element with some latency that holds nothing yet. -/
def quickVault : Vault :=
  fresh 8 Element.guardedIdentity (fun _ => Block.zero) 2

/-- A master key is set while another call waits for the token, up to the order to the element. -/
def masterOrdered : List VaultDeed :=
  [.call (.setMaster Element.guardedMaster), .call (.ask .random .random), .turn 0 0, .turn 0 1,
    .turn 0 0, .turn 0 0, .turn 2 0, .turn 2 0]

/-- The order that the service gives to the element. -/
def masterOrder : KeyOrder :=
  .signed Block.zero (KeyOrder.pack Element.guardedIdentity 1 1) ⟨1, {}, Element.guardedMaster⟩

theorem element_complete_load (v : Vault) (now n due limit : Nat) (order : KeyOrder) :
    (v.complete now n ⟨.loadKey order, due, limit, none⟩).device.element =
      (v.device.element.load order).1 :=
  rfl

/-- In the next turn the element executes the order. -/
theorem element_after_masterOrder :
    (quickVault.actAll (masterOrdered ++ [.turn 4 0])).device.element =
      (quickVault.device.element.load masterOrder).1 := by
  have hstep : (quickVault.actAll masterOrdered).step? 4 0 =
      some ((quickVault.actAll masterOrdered).complete 4 0 ⟨.loadKey masterOrder, 4, 10, none⟩) :=
    rfl
  have hbefore : (quickVault.actAll masterOrdered).device.element = quickVault.device.element := rfl
  rw [actAll_append, actAll_turn hstep, element_complete_load, hbefore]

theorem master_set_mirrored :
    (∀ d ∈ masterOrdered ++ [.turn 4 0], d.lawful) ∧
      ((∀ slot, (quickVault.actAll (masterOrdered ++ [.turn 4 0])).service.Agrees
          (quickVault.actAll (masterOrdered ++ [.turn 4 0])).device.element slot) ∧
        ∀ n, (quickVault.actAll (masterOrdered ++ [.turn 4 0])).outcome? n ≠
          some (.error .unverified)) ∧
      (quickVault.actAll (masterOrdered ++ [.turn 4 0])).device.element.slots.get? .master =
        some ⟨Element.guardedMaster, 1, {}⟩ := by
  have hlawful : ∀ d ∈ masterOrdered ++ [.turn 4 0], d.lawful := by decide
  refine ⟨hlawful, mirrored_run 8 Element.guardedIdentity (fun _ => Block.zero) 2 _ hlawful, ?_⟩
  obtain ⟨r, hr⟩ := quickVault.device.element.load_signed_of_empty .master .master
    ⟨1, {}, Element.guardedMaster⟩ rfl rfl (by decide) (.inl rfl) rfl (by decide)
  have hidentity : quickVault.device.element.identity = Element.guardedIdentity := rfl
  rw [Element.authorityKey_of_none rfl, hidentity] at hr
  rw [element_after_masterOrder, masterOrder, hr]
  exact Dictionary.get?_insert_self _ _ _

end Vault
end VehicleGateway
