import VehicleGateway.Proofs.Keys.Faithful
import VehicleGateway.Proofs.Keys.Loadable

/-!
# What becomes of a load

A caller has a key loaded while nobody else changes the slots.  Both the service and its element
judge the load, each by what it knows, and they agree.

* `Loads` says how far such a call can have come, and `LoadEnd` how it can end.
* `Loads.turn` says that a turn of the call keeps to that and changes no key, or ends it.
* `load_settled` is the whole: the call ends, and it ends with success exactly if the key is
  loadable, unless the token or the element comes too late for it.
-/

namespace VehicleGateway

/-- A fault that is no matter of time. -/
structure KeyFault.Judges (fault : KeyFault) : Prop where
  notBusy : fault ≠ .busy
  notLate : ∀ micros, fault ≠ .timeout micros

namespace KeyService

variable {s s' : KeyService} {now n : Nat} {c : KeyCall} {slot : KeySlot} {key : Key}
  {counter : Nat} {flags : KeyFlags} {fault : KeyFault}

theorem authority_judges (h : s.authority slot counter = .error fault) : fault.Judges := by
  have hcheck {fault : KeyFault} (h : s.checkCounter slot counter = .error fault) :
      fault.Judges := by
    unfold checkCounter at h
    split at h
    · split at h
      · obtain rfl := Except.error.inj h
        exact ⟨by simp, by simp⟩
      · cases h
    · cases h
  unfold authority at h
  split at h
  case h_1 hrefused =>
    obtain rfl := Except.error.inj h
    exact hcheck hrefused
  case h_2 =>
    obtain rfl : KeyFault.noAuthority = fault := by
      split at h
      · split at h
        · cases h
        · exact Except.error.inj h
      · split at h
        · cases h
        · exact Except.error.inj h
    exact ⟨by simp, by simp⟩

/-- What is judged of a load does not depend on who else uses the service. -/
theorem judgeLoad_judges (h : s.judgeLoad slot counter = .error fault) : fault.Judges := by
  unfold judgeLoad at h
  split at h
  · obtain rfl := Except.error.inj h
    exact ⟨by simp, by simp⟩
  · split at h
    · obtain rfl := Except.error.inj h
      exact ⟨by simp, by simp⟩
    · cases hauthority : s.authority slot counter with
      | ok key => simp [hauthority, Except.map] at h
      | error refused =>
        simp only [hauthority, Except.map, Except.error.injEq] at h
        exact h ▸ authority_judges hauthority

/-- A load is judged when it starts, and then asks for the token. -/
theorem enter_load (now n : Nat) (hrequest : c.request = .load slot key counter flags) :
    s.enter now n c =
      match s.judgeLoad slot counter with
      | .error fault => s.finish n c (.error fault)
      | .ok _ =>
        s.queue now n { c with counter := s.nextMasterCounter, authority := s.masterKey } := by
  unfold enter prepare
  simp only [hrequest, KeyCall.load?]
  cases s.judgeLoad slot counter <;> rfl

/-- A load is judged once more when it has the token. -/
theorem useToken_load (n : Nat) (hrequest : c.request = .load slot key counter flags) :
    s.useToken n c =
      match s.authority slot counter with
      | .error fault => s.finish n c (.error fault)
      | .ok authority =>
        match s.identity with
        | some element => s.proceed n { c with authority } element
        | none => s.put n { c with authority, stage := .naming } := by
  unfold useToken
  simp only [hrequest, KeyCall.load?]
  cases s.authority slot counter <;> rfl

/-- Once the element's identity is known there is an order for it. -/
theorem exists_proceed_load (s : KeyService) (n : Nat) (element : ElementId)
    (hrequest : c.request = .load slot key counter flags) (hguarded : slot.guarded = true)
    (hfits : counter ≤ KeyOrder.maxCounter) :
    ∃ order, s.proceed n c element = s.put n { c with stage := .loading element order } := by
  obtain ⟨number, hnumber⟩ := KeySlot.exists_number? hguarded
  have hmake := KeyOrder.make_eq_signed .master slot c.authority key counter flags element (a := 1)
    rfl hnumber hfits
  simp only [proceed, KeyCall.load?, hrequest, hmake]
  exact ⟨_, rfl⟩

theorem authority_congr (h : ∀ slot, s'.notes.get? slot = s.notes.get? slot) (slot : KeySlot)
    (counter : Nat) : s'.authority slot counter = s.authority slot counter := by
  simp only [authority, checkCounter, h]

/-- A call that asks for the token gets it, or gets in line. -/
theorem queue_cases (s : KeyService) (now : Nat) (hget : s.call? n = some c) (c' : KeyCall) :
    (s.queue now n c').notes = s.notes ∧ ∃ stage,
      (stage = .granted ∨ ∃ limit, stage = .queued limit) ∧
      (s.queue now n c').call? n = some { c' with stage } := by
  unfold queue
  split
  case h_1 => exact ⟨rfl, _, .inl rfl, call?_put (by exact hget) _⟩
  case h_2 => exact ⟨rfl, _, .inr ⟨_, rfl⟩, call?_put (by exact hget) _⟩

end KeyService

namespace Vault

variable {v v' : Vault} {now n : Nat} {c : KeyCall} {slot : KeySlot} {key : Key} {counter : Nat}
  {flags : KeyFlags} {outcome : KeyOutcome}

/-- A call is about to load a key. -/
structure Loads (v : Vault) (n : Nat) (slot : KeySlot) (key : Key) (counter : Nat)
    (flags : KeyFlags) (c : KeyCall) : Prop where
  get : v.service.call? n = some c
  request : c.request = .load slot key counter flags
  running : c.outcome? = none
  judged : c.stage ≠ .entering → slot.guarded = true ∧ counter ≤ KeyOrder.maxCounter
  entitled : c.stage.command?.isSome → v.service.authority slot counter = .ok c.authority
  late : c.stage = .cancelling → v.service.timeout < v.device.latency

/-- How the turn ends in which a load ends. -/
inductive LoadEnd (v v' : Vault) (n : Nat) (slot : KeySlot) (key : Key) (counter : Nat)
    (flags : KeyFlags) : KeyOutcome → Prop where
  /-- The key is in its slot, and noted. -/
  | loaded (hloadable : v.device.element.Loadable slot counter)
      (hslot : v'.device.element.slots.get? slot = some ⟨key, counter, flags⟩)
      (hnote : v'.service.notes.get? slot = some ⟨counter, some key⟩)
      (hothers : ∀ other, other ≠ slot →
        v'.device.element.slots.get? other = v.device.element.slots.get? other ∧
          v'.service.notes.get? other = v.service.notes.get? other)
      (hplainKey : v'.device.element.plainKey = v.device.element.plainKey) :
      LoadEnd v v' n slot key counter flags (.ok .done)
  /-- The service or the element refuses the load. -/
  | refused {fault : KeyFault} (hnot : ¬ v.device.element.Loadable slot counter)
      (hjudged : fault.Judges) (hsame : SameKeys v v') :
      LoadEnd v v' n slot key counter flags (.error fault)
  /-- Another call keeps the token for too long. -/
  | busy {m : Nat} (hother : m ≠ n) (hholder : v.service.holder = some m) (hsame : SameKeys v v') :
      LoadEnd v v' n slot key counter flags (.error .busy)
  /-- The element takes too long. -/
  | late {micros : Nat} (hlate : v.service.timeout < v.device.latency) (hsame : SameKeys v v') :
      LoadEnd v v' n slot key counter flags (.error (.timeout micros))

/-- What a turn of a load does: it goes on and changes no key, or it ends. -/
inductive LoadTurn (v v' : Vault) (n : Nat) (slot : KeySlot) (key : Key) (counter : Nat)
    (flags : KeyFlags) : Prop where
  | goesOn {c' : KeyCall} (hloads : v'.Loads n slot key counter flags c') (hsame : SameKeys v v')
  | ends {outcome : KeyOutcome} (houtcome : v'.outcome? n = some outcome)
      (hend : LoadEnd v v' n slot key counter flags outcome)

/-- The element is as before, and the service has only put the call into another stage. -/
theorem LoadTurn.of_put {stage : CallStage} {authority : Key} {number : Nat}
    (hget' : v'.service.call? n =
      some { c with stage, authority, counter := number })
    (hrequest : c.request = .load slot key counter flags)
    (hsame : SameKeys v v') (hrunning : ∀ outcome, stage ≠ .ended outcome)
    (hjudged : slot.guarded = true ∧ counter ≤ KeyOrder.maxCounter)
    (hentitled : stage.command?.isSome → v.service.authority slot counter = .ok authority)
    (hlate : stage = .cancelling → v'.service.timeout < v'.device.latency) :
    LoadTurn v v' n slot key counter flags := by
  refine .goesOn ⟨hget', hrequest, ?_, fun _ => hjudged, ?_, hlate⟩ hsame
  · cases hstage : stage with
    | ended outcome => exact absurd hstage (hrunning outcome)
    | _ => rfl
  · intro hcommand
    rw [KeyService.authority_congr hsame.notes]
    exact hentitled hcommand

/-- The call ends, and the element is as before. -/
theorem LoadTurn.of_finish (hget : v.service.call? n = some c)
    (helement : v'.device.element = v.device.element)
    {s : KeyService} (hcalls : s.calls = v.service.calls) (hnotes : s.notes = v.service.notes)
    (hservice : v'.service = s.finish n c outcome)
    (hend : SameKeys v v' → LoadEnd v v' n slot key counter flags outcome) :
    LoadTurn v v' n slot key counter flags := by
  have hget' : s.call? n = some c := by
    rw [KeyService.call?, hcalls]
    exact hget
  refine .ends ?_ (hend (sameKeys_of_eq ?_ ?_ ?_))
  · rw [Vault.outcome?, hservice, KeyService.call?_finish hget']
    rfl
  · rw [helement]
  · rw [helement]
  · rw [hservice, KeyService.notes_finish, hnotes]

/-! ## The turns of the call -/

/-- The call is judged, and asks for the token. -/
theorem Loads.enter (hagrees : ∀ slot, v.service.Agrees v.device.element slot)
    (hloads : v.Loads n slot key counter flags c) (hstage : c.stage = .entering)
    (hstep : v.step? now n = some v') : LoadTurn v v' n slot key counter flags := by
  simp only [step?, hloads.get, Option.bind_eq_bind, Option.bind_some, hstage, KeyService.step,
    KeyService.stepCall, Option.some.injEq] at hstep
  subst hstep
  have henter := KeyService.enter_load (s := v.service) now n hloads.request
  have hjudge : v.service.judgeLoad slot counter = .ok () ↔ _ := KeyService.judgeLoad_eq_ok_iff
  cases hjudged : v.service.judgeLoad slot counter with
  | error fault =>
    refine .of_finish hloads.get rfl rfl rfl (by rw [henter, hjudged]) fun hsame => ?_
    refine .refused (fun hloadable => ?_) (KeyService.judgeLoad_judges hjudged) hsame
    have hok := hjudge.mpr ⟨(KeySlot.guarded_iff slot).mpr hloadable.guarded, hloadable.fits,
      (KeyService.authority_eq_ok_iff (hagrees slot) (hagrees .master)).mpr
        ⟨hloadable.newer, hloadable.authorized⟩⟩
    cases hjudged.symm.trans hok
  | ok _ =>
    obtain ⟨hguarded, hfits, -⟩ := hjudge.mp hjudged
    obtain ⟨hnotes, stage, hwaits, hget'⟩ := KeyService.queue_cases v.service now hloads.get
      { c with counter := v.service.nextMasterCounter, authority := v.service.masterKey }
    rw [henter, hjudged]
    refine .of_put hget' hloads.request (sameKeys_of_eq rfl rfl hnotes) ?_
      ⟨hguarded, hfits⟩ ?_ ?_
    all_goals
      rcases hwaits with rfl | ⟨limit, rfl⟩ <;> simp [CallStage.command?]

/-- The call gets the token, or gives up because another one keeps it. -/
theorem Loads.wait (h : v.Faithful) (hloads : v.Loads n slot key counter flags c) {limit : Nat}
    (hstage : c.stage = .queued limit) (hstep : v.step? now n = some v') :
    LoadTurn v v' n slot key counter flags := by
  have hjudged := hloads.judged (by simp [hstage])
  simp only [step?, hloads.get, Option.bind_eq_bind, Option.bind_some, hstage, KeyService.step,
    KeyService.stepCall] at hstep
  split at hstep
  case isTrue hholder =>
    obtain rfl := Option.some.inj hstep
    exact .of_put (KeyService.call?_put hloads.get _) hloads.request (sameKeys_of_eq rfl rfl rfl)
      (by simp) hjudged (by simp [CallStage.command?]) (by simp)
  case isFalse hholder =>
    obtain ⟨m, hne, hheld⟩ := h.lined.exists_holder hloads.get hstage hholder
    split at hstep
    case isFalse => cases hstep
    case isTrue =>
      obtain rfl := Option.some.inj hstep
      exact .of_finish (s := { v.service with waiting := v.service.waiting.erase n }) hloads.get rfl
        rfl rfl rfl (.busy hne hheld)

/-- The element's identity is known, and the element is to be given an order. -/
theorem Loads.order (hloads : v.Loads n slot key counter flags c)
    (hjudged : slot.guarded = true ∧ counter ≤ KeyOrder.maxCounter) {authority : Key}
    (hauthority : v.service.authority slot counter = .ok authority) {s : KeyService}
    (hcalls : s.calls = v.service.calls) (hnotes : s.notes = v.service.notes) (element : ElementId)
    (helement : v'.device.element = v.device.element)
    (hservice : v'.service = s.proceed n { c with authority } element) :
    LoadTurn v v' n slot key counter flags := by
  have hget' : s.call? n = some c := by
    rw [KeyService.call?, hcalls]
    exact hloads.get
  obtain ⟨order, hproceed⟩ := KeyService.exists_proceed_load (c := { c with authority }) s n element
    hloads.request hjudged.1 hjudged.2
  rw [hproceed] at hservice
  have hput : v'.service.call? n = some { c with stage := .loading element order, authority } := by
    rw [hservice]
    exact KeyService.call?_put hget' _
  refine .of_put hput hloads.request (sameKeys_of_eq ?_ ?_ ?_) (by simp) hjudged
    (fun _ => hauthority) (by simp)
  · rw [helement]
  · rw [helement]
  · rw [hservice]
    exact hnotes

/-- The call is judged once more, and has the element asked for its identity or given an order. -/
theorem Loads.use (hagrees : ∀ slot, v.service.Agrees v.device.element slot)
    (hloads : v.Loads n slot key counter flags c) (hstage : c.stage = .granted)
    (hstep : v.step? now n = some v') : LoadTurn v v' n slot key counter flags := by
  have hjudged := hloads.judged (by simp [hstage])
  simp only [step?, hloads.get, Option.bind_eq_bind, Option.bind_some, hstage, KeyService.step,
    KeyService.stepCall, Option.some.injEq] at hstep
  subst hstep
  have huse := KeyService.useToken_load (s := v.service) n hloads.request
  cases hauthority : v.service.authority slot counter with
  | error fault =>
    simp only [hauthority] at huse
    refine .of_finish hloads.get rfl rfl rfl huse fun hsame => ?_
    refine .refused (fun hloadable => ?_) (KeyService.authority_judges hauthority) hsame
    obtain ⟨key, hkey⟩ := (KeyService.authority_eq_ok_iff (hagrees slot) (hagrees .master)).mpr
      ⟨hloadable.newer, hloadable.authorized⟩
    cases hauthority.symm.trans hkey
  | ok authority =>
    simp only [hauthority] at huse
    cases hidentity : v.service.identity with
    | some element =>
      simp only [hidentity] at huse
      exact hloads.order hjudged hauthority rfl rfl element rfl huse
    | none =>
      simp only [hidentity] at huse
      rw [huse]
      exact .of_put (KeyService.call?_put hloads.get _) hloads.request
        (sameKeys_of_eq rfl rfl rfl) (by simp) hjudged (fun _ => hauthority) (by simp)

/-- The order that is under way is for this element, and was made with its own master key. -/
theorem Loads.order_made (h : v.Faithful) (hagrees : v.service.Agrees v.device.element .master)
    (hloads : v.Loads n slot key counter flags c) {element : ElementId} {order : KeyOrder}
    (hstage : c.stage = .loading element order) :
    element = v.device.element.identity ∧
      KeyOrder.make (v.device.element.authorityKey .master) .master slot key counter flags
        v.device.element.identity = .ok order := by
  have hauthority := hloads.entitled (by rw [hstage]; rfl)
  have hload : c.load? = some (slot, key, counter, flags) := by
    simp [KeyCall.load?, hloads.request]
  have hbrings := h.coherent.brings n c hloads.get
  rw [hstage] at hbrings
  obtain ⟨hidentity, slot', key', counter', flags', hload', hmake⟩ := hbrings
  obtain ⟨rfl, rfl, rfl, rfl⟩ : slot = slot' ∧ key = key' ∧ counter = counter' ∧
      flags = flags' := by
    simpa using hload.symm.trans hload'
  obtain rfl := h.identity element hidentity
  rw [KeyService.authority_eq_of_agrees hagrees hauthority] at hmake
  exact ⟨rfl, hmake⟩

/-- The element has carried out the order. -/
theorem Loads.stored (hloads : v.Loads n slot key counter flags c) {order : KeyOrder}
    (hstage : c.stage = .loading v.device.element.identity order)
    (hloadable : v.device.element.Loadable slot counter)
    (hmake : KeyOrder.make (v.device.element.authorityKey .master) .master slot key counter flags
      v.device.element.identity = .ok order) :
    LoadTurn v (v.answered now n (.loadKey order)) n slot key counter flags := by
  have hauthority := hloads.entitled (by rw [hstage]; rfl)
  have hload : c.load? = some (slot, key, counter, flags) := by
    simp [KeyCall.load?, hloads.request]
  have hdone : c.loadedAnswer = .done := by simp [KeyCall.loadedAnswer, hloads.request]
  obtain ⟨receipt, hreceipt, hloaded⟩ := Element.load_of_loadable hloadable hmake
  have hanswered := answered_of_loaded hloads.get hstage hload
    (KeyService.checkCounter_of_authority hauthority) hreceipt hloaded now
  rw [hdone] at hanswered
  have houtcome : (v.answered now n (.loadKey order)).outcome? n = some (.ok .done) := by
    rw [Vault.outcome?, hanswered, KeyService.call?_finish (by exact hloads.get)]
    rfl
  have hnotes : (v.answered now n (.loadKey order)).service.notes =
      v.service.notes.insert slot ⟨counter, some key⟩ := by
    rw [hanswered, KeyService.notes_finish]
  refine .ends houtcome (.loaded hloadable ?_ ?_ ?_ ?_)
  · rw [hanswered, Dictionary.get?_insert_self]
  · rw [hnotes, Dictionary.get?_insert_self]
  · intro other hother
    rw [hnotes, hanswered, Dictionary.get?_insert_of_ne _ hother,
      Dictionary.get?_insert_of_ne _ hother]
    exact ⟨rfl, rfl⟩
  · rw [hanswered]

/-- The element has carried out the order, or refused it. -/
theorem Loads.answered (h : v.Faithful) (hagrees : ∀ slot, v.service.Agrees v.device.element slot)
    (hloads : v.Loads n slot key counter flags c) {element : ElementId} {order : KeyOrder}
    (hstage : c.stage = .loading element order) :
    LoadTurn v (v.answered now n (.loadKey order)) n slot key counter flags := by
  obtain ⟨rfl, hmake⟩ := hloads.order_made h (hagrees .master) hstage
  by_cases hloadable : v.device.element.Loadable slot counter
  · exact hloads.stored hstage hloadable hmake
  · have hcommand : c.stage.command? = some (.loadKey order) := by rw [hstage]; rfl
    obtain ⟨hguarded, -⟩ := hloads.judged (by simp [hstage])
    have hauthorized := ((KeyService.authority_eq_ok_iff (hagrees slot) (hagrees .master)).mp
      ⟨_, hloads.entitled (by rw [hcommand]; rfl)⟩).2
    obtain ⟨fault, hfault⟩ :=
      Element.fault_of_not_loadable hguarded hauthorized hmake hloadable
    have hanswered : v.answered now n (.loadKey order) = { v with
        service := v.service.finish n c (.error (.element fault))
        underWay := v.underWay.erase n } := by
      simp only [Vault.answered, Element.execute, hfault,
        KeyService.step_of_fault now hloads.get hcommand]
    rw [hanswered]
    exact .of_finish hloads.get rfl rfl rfl rfl (.refused hloadable ⟨by simp, by simp⟩)

/-- The call gives its command, or the element answers it, or it is given up. -/
theorem Loads.commanded (h : v.Faithful)
    (hagrees : ∀ slot, v.service.Agrees v.device.element slot)
    (hloads : v.Loads n slot key counter flags c) {command : Command}
    (hcommand : c.stage.command? = some command) (hstep : v.step? now n = some v') :
    LoadTurn v v' n slot key counter flags := by
  have hstarted : c.stage ≠ .entering := by
    intro hstage
    cases hcommand.symm.trans (congrArg CallStage.command? hstage)
  have hauthority := hloads.entitled (by rw [hcommand]; rfl)
  have hbrings := h.coherent.brings n c hloads.get
  cases commanded_cases h hloads.get hcommand hstep with
  | given => exact .goesOn ⟨hloads.get, hloads.request, hloads.running, hloads.judged,
      hloads.entitled, hloads.late⟩ (sameKeys_of_eq rfl rfl rfl)
  | late hlate =>
    rw [KeyService.step_of_expire now hloads.get hcommand]
    exact .of_put (KeyService.call?_put hloads.get _) hloads.request (sameKeys_of_eq rfl rfl rfl)
      (by simp) (hloads.judged hstarted) (by simp [CallStage.command?]) fun _ => hlate
  | answered =>
    cases hstage : c.stage with
    | naming =>
      obtain rfl : Command.identify Block.zero = command := by
        simpa [hstage, CallStage.command?] using hcommand
      refine hloads.order (hloads.judged hstarted) hauthority
        (s := { v.service with identity := some v.device.element.identity }) rfl rfl
        v.device.element.identity rfl ?_
      exact KeyService.step_of_identity now hloads.get hstage _ _
    | loading element order =>
      obtain rfl : Command.loadKey order = command := by
        simpa [hstage, CallStage.command?] using hcommand
      exact hloads.answered h hagrees hstage
    | asking | challenging | authorizing =>
      -- A load gives no such command.
      rw [hstage] at hbrings
      simp [KeyService.Brings, hloads.request] at hbrings
    | _ => simp [hstage, CallStage.command?] at hcommand

/-- What a turn of a load does. -/
theorem Loads.turn (h : v.Faithful) (hagrees : ∀ slot, v.service.Agrees v.device.element slot)
    (hloads : v.Loads n slot key counter flags c) (hstep : v.step? now n = some v') :
    LoadTurn v v' n slot key counter flags := by
  cases hstage : c.stage with
  | entering => exact hloads.enter hagrees hstage hstep
  | queued limit => exact hloads.wait h hstage hstep
  | granted => exact hloads.use hagrees hstage hstep
  | cancelling =>
    simp only [step?, hloads.get, Option.bind_eq_bind, Option.bind_some, hstage, Vault.cancel,
      KeyService.step, KeyService.stepCall, Option.some.injEq] at hstep
    subst hstep
    refine .ends (show _ = some (.error (.timeout (v.service.timeout * 1000))) from ?_)
      (.late (hloads.late hstage) (sameKeys_of_eq rfl rfl (KeyService.notes_finish _ _ _ _)))
    rw [Vault.outcome?, KeyService.call?_finish hloads.get]
    rfl
  | ended outcome =>
    cases hloads.running.symm.trans (KeyService.outcome?_of_stage hstage)
  | _ => exact hloads.commanded h hagrees (congrArg CallStage.command? hstage) hstep

/-! ## The whole run -/

/-- Nobody but a call changes a key while that call goes on. -/
def Undisturbed (v : Vault) (deeds : Nat → VaultDeed) (n : Nat) : Prop :=
  ∀ i, (v.after deeds i).outcome? n = none → (∀ now, deeds i ≠ .turn now n) →
    SameKeys (v.after deeds i) (v.after deeds (i + 1))

/-- What a load has done from a state `v` on that ends between `w` and `w'`. -/
structure LoadSettled (v w w' : Vault) (n : Nat) (slot : KeySlot) (key : Key) (counter : Nat)
    (flags : KeyFlags) (outcome : KeyOutcome) : Prop where
  told : outcome = .ok .done ∨ ∃ fault, outcome = .error fault
  /-- Unless it is a matter of time, the caller is told of success exactly if the key is
  loadable. -/
  done_iff : outcome ≠ .error .busy → (∀ micros, outcome ≠ .error (.timeout micros)) →
    (outcome = .ok .done ↔ v.device.element.Loadable slot counter)
  /-- Another call has the token. -/
  busy : outcome = .error .busy → ∃ m, m ≠ n ∧ w.service.holder = some m
  /-- The element takes longer than the service waits. -/
  late : ∀ micros, outcome = .error (.timeout micros) → v.service.timeout < v.device.latency
  stored : outcome = .ok .done →
    w'.device.element.slots.get? slot = some ⟨key, counter, flags⟩ ∧
      w'.service.notes.get? slot = some ⟨counter, some key⟩ ∧
      (∀ other, other ≠ slot →
        w'.device.element.slots.get? other = v.device.element.slots.get? other ∧
          w'.service.notes.get? other = v.service.notes.get? other) ∧
      w'.device.element.plainKey = v.device.element.plainKey
  kept : ∀ fault, outcome = .error fault → SameKeys v w'

theorem LoadEnd.settled {w w' : Vault} (h : LoadEnd w w' n slot key counter flags outcome)
    (hsame : SameKeys v w) (hmake : SameMake v w) :
    LoadSettled v w w' n slot key counter flags outcome := by
  cases h with
  | loaded hloadable hslot hnote hothers hplainKey =>
    refine ⟨.inl rfl, fun _ _ => ?_, by simp, by simp, fun _ => ⟨hslot, hnote, ?_, ?_⟩, by simp⟩
    · exact iff_of_true rfl (hloadable.congr fun s => (hsame.slots s).symm)
    · intro other hother
      obtain ⟨hslots, hnotes⟩ := hothers other hother
      exact ⟨hslots.trans (hsame.slots other), hnotes.trans (hsame.notes other)⟩
    · exact hplainKey.trans hsame.plainKey
  | refused hnot hjudges hkept =>
    refine ⟨.inr ⟨_, rfl⟩, fun _ _ => ?_, ?_, ?_, by simp, fun _ _ => hsame.trans hkept⟩
    · exact iff_of_false (by simp) fun hloadable => hnot (hloadable.congr hsame.slots)
    · exact fun hbusy => absurd (Except.error.inj hbusy) hjudges.notBusy
    · exact fun micros hlate => absurd (Except.error.inj hlate) (hjudges.notLate micros)
  | busy hother hholder hkept =>
    refine ⟨.inr ⟨_, rfl⟩, fun hnot => absurd rfl hnot, fun _ => ⟨_, hother, hholder⟩, by simp,
      by simp, fun _ _ => hsame.trans hkept⟩
  | late hlate hkept =>
    refine ⟨.inr ⟨_, rfl⟩, fun _ hnot => absurd rfl (hnot _), by simp, fun _ _ => ?_, by simp,
      fun _ _ => hsame.trans hkept⟩
    rwa [hmake.timeout, hmake.latency] at hlate

/-- What leaves the call and all keys alone leaves the load where it is. -/
theorem Loads.untouched (hloads : v.Loads n slot key counter flags c) (h : Untouched n v v')
    (hsame : SameKeys v v') (hmake : SameMake v v') : v'.Loads n slot key counter flags c := by
  refine ⟨h.call.trans hloads.get, hloads.request, hloads.running, hloads.judged, ?_, ?_⟩
  · rw [KeyService.authority_congr hsame.notes]
    exact hloads.entitled
  · rw [hmake.timeout, hmake.latency]
    exact hloads.late

theorem loads_addCall (v : Vault) (slot : KeySlot) (key : Key) (counter : Nat) (flags : KeyFlags) :
    (v.addCall (.load slot key counter flags)).Loads v.service.calls.length slot key counter flags
      { request := .load slot key counter flags } := by
  refine ⟨KeyService.call?_addCall _ _, rfl, rfl, ?_, ?_, ?_⟩
  · exact fun hstarted => absurd rfl hstarted
  · rintro ⟨⟩
  · rintro ⟨⟩

/-- Up to its end a load changes no key. -/
theorem loads_after {deeds : Nat → VaultDeed} {j : Nat} (hfaithful : v.Faithful)
    (hagrees : ∀ slot, v.service.Agrees v.device.element slot) (hkept : ∀ i, deeds i ≠ .drop n)
    (halone : v.Undisturbed deeds n) (hloads : v.Loads n slot key counter flags c)
    (hends : v.EndsIn deeds n 0 j outcome) (i : Nat) (hij : i ≤ j) :
    SameKeys v (v.after deeds i) ∧ ∃ c', (v.after deeds i).Loads n slot key counter flags c' := by
  refine hends.induction
    (Q := fun w => SameKeys v w ∧ ∃ c', w.Loads n slot key counter flags c')
    ⟨sameKeys_of_eq rfl rfl rfl, c, hloads⟩ ?_ ?_ i (Nat.zero_le i) hij
  · rintro i now v' ⟨hsame, c', hloads'⟩ hstep
    cases hloads'.turn (hfaithful.after deeds i) (hsame.agrees hagrees) hstep with
    | goesOn hloads'' hkeys => exact .inl ⟨hsame.trans hkeys, _, hloads''⟩
    | ends houtcome => exact .inr ⟨_, houtcome⟩
  · rintro i ⟨hsame, c', hloads'⟩ hrunning hother
    have hkeys := halone i hrunning hother
    exact ⟨hsame.trans hkeys, c', hloads'.untouched
      (untouched_act hloads'.get hloads'.running hother (hkept i)) hkeys
      ((hfaithful.after deeds i).sameMake_act (deeds i))⟩

/-- A load that has its turns and is not disturbed ends.  Unless another call keeps the token or the
element is too slow, it ends with success exactly if the key is loadable.  With success the slot
holds the key, which is noted, and all else is as before; with an error everything is. -/
theorem load_settled {deeds : Nat → VaultDeed} (hfaithful : v.Faithful)
    (hagrees : ∀ slot, v.service.Agrees v.device.element slot) (slot : KeySlot) (key : Key)
    (counter : Nat) (flags : KeyFlags) (hserved : Served deeds v.service.calls.length)
    (hkept : ∀ i, deeds i ≠ .drop v.service.calls.length)
    (halone : (v.addCall (.load slot key counter flags)).Undisturbed deeds
      v.service.calls.length) :
    ∃ j outcome,
      (v.addCall (.load slot key counter flags)).EndsIn deeds v.service.calls.length 0 j outcome ∧
      (∀ i ≤ j, SameKeys v ((v.addCall (.load slot key counter flags)).after deeds i)) ∧
      LoadSettled v ((v.addCall (.load slot key counter flags)).after deeds j)
        ((v.addCall (.load slot key counter flags)).after deeds (j + 1)) v.service.calls.length slot
        key counter flags outcome := by
  have hstart := loads_addCall v slot key counter flags
  have hfaithful' : (v.addCall (.load slot key counter flags)).Faithful := hfaithful.act (.call _)
  generalize hn : v.service.calls.length = n at *
  generalize hw : v.addCall (.load slot key counter flags) = w at *
  have hsame : SameKeys v w := by
    subst hw
    exact sameKeys_of_eq rfl rfl rfl
  have hmake : SameMake v w := by
    subst hw
    exact ⟨rfl, rfl, rfl⟩
  obtain ⟨j, outcome, hends⟩ := exists_endsIn (k := 0) hserved hkept hstart.get hstart.running
  have hthrough := loads_after hfaithful' (hsame.agrees hagrees) hkept halone hstart hends
  refine ⟨j, outcome, hends, fun i hi => hsame.trans (hthrough i hi).1, ?_⟩
  obtain ⟨hkeys, c, hloads⟩ := hthrough j (Nat.le_refl j)
  obtain ⟨now, -, hstep⟩ := hends.turn
  have hmake' := hfaithful'.sameMake_after deeds j
  cases hloads.turn (hfaithful'.after deeds j) ((hsame.trans hkeys).agrees hagrees) hstep with
  | goesOn hloads' =>
    cases hends.told.symm.trans ((outcome?_of_call? hloads'.get).trans hloads'.running)
  | ends houtcome hend =>
    obtain rfl := Option.some.inj (hends.told.symm.trans houtcome)
    exact hend.settled (hsame.trans hkeys)
      ⟨hmake'.timeout.trans hmake.timeout, hmake'.latency.trans hmake.latency,
        hmake'.identity.trans hmake.identity⟩

/-! ## A call that is alone -/

theorem length_step (s : KeyService) (now n : Nat) (e : KeyEvent) :
    (s.step now n e).calls.length = s.calls.length := by
  refine Nat.le_antisymm ?_ (s.length_step_le now n e)
  cases hget : s.call? n with
  | none => simp [KeyService.step, hget]
  | some c =>
    obtain ⟨c', hmove, -⟩ := KeyService.step_cases hget now e
    have hne : n ≠ s.calls.length := Nat.ne_of_lt (KeyService.lt_of_call? hget)
    exact List.getElem?_eq_none_iff.mp ((hmove.call?_of_ne hne).trans
      (List.getElem?_eq_none_iff.mpr (Nat.le_refl _)))

/-- A turn makes no new calls. -/
theorem length_turn (v : Vault) (now n : Nat) :
    (v.act (.turn now n)).service.calls.length = v.service.calls.length := by
  change ((v.step? now n).getD v).service.calls.length = v.service.calls.length
  cases hstep : v.step? now n with
  | none => rfl
  | some v' =>
    obtain ⟨c, -, hturn⟩ := turn_cases hstep
    cases hturn with
    | invoke => rfl
    | complete =>
      unfold Vault.complete
      dsimp only [Option.getD_some]
      split <;> exact length_step _ _ _ _
    | go | cancel | expire => exact length_step _ _ _ _

/-- The first call has one turn after the other. -/
def firstTurns (i : Nat) : VaultDeed := .turn i 0

theorem served_firstTurns : Served firstTurns 0 :=
  fun k time => ⟨max k time, max k time, Nat.le_max_left k time, Nat.le_max_right k time, rfl⟩

theorem length_after_firstTurns (v : Vault) (i : Nat) :
    (v.after firstTurns i).service.calls.length = v.service.calls.length := by
  induction i with
  | zero => rfl
  | succ i ih => exact (length_turn _ i 0).trans ih

/-- The first master key is loaded. -/
theorem first_master_loaded :
    quickVault.Faithful ∧ (∀ slot, quickVault.service.Agrees quickVault.device.element slot) ∧
      Served firstTurns 0 ∧ (∀ i, firstTurns i ≠ .drop 0) ∧
      (quickVault.addCall (.load .master Element.guardedMaster 1 {})).Undisturbed firstTurns 0 ∧
      ∃ j, (quickVault.addCall (.load .master Element.guardedMaster 1 {})).EndsIn firstTurns 0 0 j
          (.ok .done) ∧
        ((quickVault.addCall (.load .master Element.guardedMaster 1 {})).after firstTurns
          (j + 1)).device.element.slots.get? .master = some ⟨Element.guardedMaster, 1, {}⟩ := by
  have hfaithful : quickVault.Faithful := faithful_fresh 8 Element.guardedIdentity _ 2
  have hagrees (slot : KeySlot) : quickVault.service.Agrees quickVault.device.element slot :=
    .inl ⟨rfl, rfl⟩
  have hkept (i : Nat) : firstTurns i ≠ .drop 0 := by simp [firstTurns]
  have halone : (quickVault.addCall (.load .master Element.guardedMaster 1 {})).Undisturbed
      firstTurns 0 :=
    fun i _ hother => absurd rfl (hother i)
  refine ⟨hfaithful, hagrees, served_firstTurns, hkept, halone, ?_⟩
  obtain ⟨j, outcome, hends, -, hsettled⟩ := load_settled hfaithful hagrees .master
    Element.guardedMaster 1 {} served_firstTurns hkept halone
  have hloadable : quickVault.device.element.Loadable .master 1 :=
    Element.loadable_of_blank fun _ => rfl
  -- There is no other call that could have the token.
  have hbusy : outcome ≠ .error .busy := by
    intro hbusy
    obtain ⟨m, hne, hholder⟩ := hsettled.busy hbusy
    have hfaithful' := (hfaithful.act (.call (.load .master Element.guardedMaster 1 {}))).after
      firstTurns j
    obtain ⟨-, c, hget, -⟩ := hfaithful'.coherent.orderly.holder m hholder
    have hlt := KeyService.lt_of_call? hget
    have hone : quickVault.service.calls.length = 0 := rfl
    rw [length_after_firstTurns] at hlt
    simp only [act, addCall, KeyService.addCall, List.length_append, hone, List.length_singleton]
      at hlt hne
    omega
  have hlate (micros : Nat) : outcome ≠ .error (.timeout micros) := by
    intro hlate
    exact absurd (hsettled.late micros hlate) (by decide)
  obtain rfl := (hsettled.done_iff hbusy hlate).mpr hloadable
  exact ⟨j, hends, (hsettled.stored rfl).1⟩

/-! ## A call that waits too long -/

/-- Two callers ask for random blocks, each of which takes most of the time that a caller waits. -/
def crowdedVault : Vault :=
  (fresh 8 Element.guardedIdentity (fun _ => Block.zero) 6).actAll
    [.call (.ask .random .random), .call (.ask .random .random), .turn 0 0, .turn 0 1]

/-- A third call waits for both and gives up. -/
def crowdedTurns : List VaultDeed :=
  [.turn 0 2, .turn 0 0, .turn 0 0, .turn 6 0, .turn 6 1, .turn 6 1, .turn 6 1, .turn 8 2]

/-- A key is loadable, no slot is changed by anybody, and the element answers in time, but the load
of the key is refused because the service is busy. -/
theorem loadable_key_refused :
    crowdedVault.Faithful ∧
      (∀ slot, crowdedVault.service.Agrees crowdedVault.device.element slot) ∧
      crowdedVault.device.latency ≤ crowdedVault.service.timeout ∧
      crowdedVault.device.element.Loadable .master 1 ∧
      (∀ k ≤ 8, ((crowdedVault.addCall (.load .master Element.guardedMaster 1 {})).actAll
        (crowdedTurns.take k)).device.element.slots.entries = []) ∧
      ((crowdedVault.addCall (.load .master Element.guardedMaster 1 {})).actAll
        crowdedTurns).outcome? 2 = some (.error .busy) := by
  refine ⟨faithful_actAll _ _ _ _ _, ?_, by decide, ?_, by decide, rfl⟩
  · exact fun slot => .inl ⟨rfl, rfl⟩
  · exact Element.loadable_of_blank fun _ => rfl

end Vault
end VehicleGateway
