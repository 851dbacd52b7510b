import VehicleGateway.Keys.Service

/-!
# Runs of the key service

What can happen to a key service, in any order: callers make calls and start commands, calls go on,
the element answers or is too slow, outcomes are handed out, and callers drop their calls.  Nothing
is assumed of the element: every event can come for every call at every time.

* `KeyDeed` names these, and `KeyService.run` does them one after the other.
* `Move` says all that an event can do to a call and to the service, and `step_cases` that it does
  one of these.
-/

namespace VehicleGateway

/-- Something that happens to a key service. -/
inductive KeyDeed where
  /-- A caller makes a call. -/
  | call (request : KeyRequest)
  /-- A caller starts a command, if the token is free. -/
  | start (command : Command)
  /-- A call goes on, or the element or the time has something for it. -/
  | event (now n : Nat) (e : KeyEvent)
  /-- An outcome is handed out. -/
  | take (n : Nat)
  /-- A caller drops a call before its end. -/
  | drop (n : Nat)

/-- Whether a call in a stage has the token and uses it. -/
def CallStage.active : CallStage → Bool
  | .entering | .queued _ | .ended _ => false
  | _ => true

/-- Whether an event comes from the element, or from a wait for it, and concerns a call in a
stage. -/
def KeyEvent.concerns : KeyEvent → CallStage → Bool
  | .answer _, stage | .expire, stage => stage.command?.isSome
  | .stopped, .cancelling => true
  | _, _ => false

theorem CallStage.active_of_command? {stage : CallStage} {command : Command}
    (h : stage.command? = some command) : stage.active = true := by
  cases stage <;> first | rfl | cases h

namespace KeyService

/-- The outcome of a call. -/
def outcome? (s : KeyService) (n : Nat) : Option KeyOutcome :=
  (s.call? n).bind (·.outcome?)

/-- A call is dropped.  It leaves the line, and gives back the token if it has it; what it has given
to the element is not finished. -/
def abandon (s : KeyService) (n : Nat) : KeyService :=
  match s.call? n with
  | none => s
  | some c =>
    if c.outcome?.isSome then s
    else { s with waiting := s.waiting.erase n }.finish n c (.error .closed)

/-- A service after something has happened.  What is refused changes nothing. -/
def act (s : KeyService) : KeyDeed → KeyService
  | .call request => s.addCall request
  | .start command => (s.start command).getD s
  | .event now n e => s.step now n e
  | .take n => (s.take n).1
  | .drop n => s.abandon n

/-- A service after all that has happened. -/
def run (s : KeyService) (deeds : List KeyDeed) : KeyService :=
  deeds.foldl act s

theorem run_append (s : KeyService) (before after : List KeyDeed) :
    s.run (before ++ after) = (s.run before).run after :=
  List.foldl_append

/-- All that can be seen in a run, when `f` says what there is to see of a deed. -/
def trace {α : Type} (f : KeyService → KeyDeed → List α) (s : KeyService) : List KeyDeed → List α
  | [] => []
  | d :: rest => f s d ++ trace f (s.act d) rest

theorem trace_append {α : Type} (f : KeyService → KeyDeed → List α) (s : KeyService)
    (deeds later : List KeyDeed) :
    trace f s (deeds ++ later) = trace f s deeds ++ trace f (s.run deeds) later := by
  induction deeds generalizing s with
  | nil => rfl
  | cons d rest ih =>
    simp only [List.cons_append, trace, ih, List.append_assoc]
    rfl

theorem trace_singleton {α : Type} (f : KeyService → KeyDeed → List α) (s : KeyService)
    (d : KeyDeed) : trace f s [d] = f s d :=
  List.append_nil _

/-- What every deed keeps holds after every run. -/
theorem run_induction {P : KeyService → Prop} {s : KeyService} {deeds : List KeyDeed} (hs : P s)
    (hact : ∀ s d, d ∈ deeds → P s → P (s.act d)) : P (s.run deeds) := by
  induction deeds generalizing s with
  | nil => exact hs
  | cons d rest ih =>
    refine ih (hact s d List.mem_cons_self hs) ?_
    exact fun s d' hd' => hact s d' (List.mem_cons_of_mem d hd')

/-! ## Calls by number -/

variable {s : KeyService} {now n m : Nat} {c c' : KeyCall} {outcome : KeyOutcome}

theorem lt_of_call? (h : s.call? n = some c) : n < s.calls.length :=
  (List.getElem?_eq_some_iff.mp h).1

theorem call?_put (h : s.call? n = some c) (c' : KeyCall) : (s.put n c').call? n = some c' := by
  simp [call?, put, lt_of_call? h]

theorem call?_put_of_ne (s : KeyService) (c' : KeyCall) (h : n ≠ m) :
    (s.put n c').call? m = s.call? m :=
  List.getElem?_set_ne h

/-- The token passes on at the end of the call that has it, and else stays. -/
theorem finish_eq (s : KeyService) (n : Nat) (c : KeyCall) (outcome : KeyOutcome) :
    s.finish n c outcome =
      if s.holder = some n then (s.put n { c with stage := .ended outcome }).release
      else s.put n { c with stage := .ended outcome } :=
  rfl

theorem calls_finish (s : KeyService) (n : Nat) (c : KeyCall) (outcome : KeyOutcome) :
    (s.finish n c outcome).calls = s.calls.set n { c with stage := .ended outcome } := by
  rw [finish_eq]
  split <;> rfl

theorem call?_finish (h : s.call? n = some c) :
    (s.finish n c' outcome).call? n = some { c' with stage := .ended outcome } := by
  simp [call?, calls_finish, lt_of_call? h]

theorem ended_of_finish {d : KeyCall} (hget : s.call? n = some c)
    (hd : (s.finish n c' outcome).call? n = some d) : d = { c' with stage := .ended outcome } :=
  Option.some.inj (hd.symm.trans (call?_finish hget))

theorem call?_finish_of_ne (s : KeyService) (c' : KeyCall) (outcome : KeyOutcome) (h : n ≠ m) :
    (s.finish n c' outcome).call? m = s.call? m := by
  simp [call?, calls_finish, List.getElem?_set_ne h]

@[simp] theorem notes_finish (s : KeyService) (n : Nat) (c : KeyCall) (outcome : KeyOutcome) :
    (s.finish n c outcome).notes = s.notes := by
  rw [finish_eq]
  split <;> rfl

@[simp] theorem identity_finish (s : KeyService) (n : Nat) (c : KeyCall) (outcome : KeyOutcome) :
    (s.finish n c outcome).identity = s.identity := by
  rw [finish_eq]
  split <;> rfl

theorem call?_addCall (s : KeyService) (request : KeyRequest) :
    (s.addCall request).call? s.calls.length = some { request } := by
  simp [call?, addCall]

/-- A new call has a number of its own. -/
theorem call?_append (s : KeyService) (new : KeyCall) (m : Nat) :
    (s.calls ++ [new])[m]? = some c ↔
      s.call? m = some c ∨ m = s.calls.length ∧ c = new := by
  rw [List.getElem?_append]
  split
  case isTrue hlt =>
    have hne : m ≠ s.calls.length := by omega
    simp [call?, hne]
  case isFalse hge =>
    have hnone : s.call? m = none := List.getElem?_eq_none (by omega)
    rw [hnone, List.getElem?_singleton]
    by_cases hm : m = s.calls.length
    · simp [hm, eq_comm]
    · have hpos : m - s.calls.length ≠ 0 := by omega
      simp [hm, hpos]

/-! ## What an event can do -/

/-- An outcome that goes with no change of the notes: a success of a call that neither loads nor
erases, or an error other than that of a wrong receipt. -/
structure Plain (c : KeyCall) (outcome : KeyOutcome) : Prop where
  light : ∀ answer, outcome = .ok answer → c.load? = none ∧ c.request ≠ .erase
  verified : outcome ≠ .error .unverified

theorem plain_error (c : KeyCall) {fault : KeyFault} (h : fault ≠ .unverified) :
    Plain c (.error fault) :=
  ⟨fun _ hok => (nomatch hok), fun hsame => h (Except.error.inj hsame)⟩

/-- Why a call in a stage has given its command to the element. -/
def Brings (identity : Option ElementId) (c : KeyCall) : CallStage → Prop
  | .asking command want => c.request = .ask command want
  | .naming => identity = none
  | .loading element order => identity = some element ∧
      ∃ slot key counter flags, c.load? = some (slot, key, counter, flags) ∧
        KeyOrder.make c.authority .master slot key counter flags element = .ok order
  | .challenging element => identity = some element ∧ c.request = .erase
  | .authorizing _ => c.request = .erase
  | _ => True

/-- A call is entitled to what it loads: its key is the one that authorizes, and its counter is
new. -/
def Entitled (s : KeyService) (c : KeyCall) : Prop :=
  ∀ slot key counter flags, c.load? = some (slot, key, counter, flags) →
    s.authority slot counter = .ok c.authority

/-- A call that has the token goes on: it ends, or it gives a command to the element. -/
inductive Proceeds (s : KeyService) (n : Nat) (c : KeyCall) : KeyCall → KeyService → Prop where
  | ends {outcome : KeyOutcome} (hplain : Plain c outcome) :
      Proceeds s n c { c with stage := .ended outcome } (s.finish n c outcome)
  | gives (stage : CallStage) {command : Command} (hcommand : stage.command? = some command)
      (hbrings : Brings s.identity c stage) :
      Proceeds s n c { c with stage } (s.put n { c with stage })

/-- What an event can do to a call and to the service. -/
inductive Move (s : KeyService) (now n : Nat) (c : KeyCall) :
    KeyEvent → KeyCall → KeyService → Prop where
  /-- The event does not fit the stage of the call. -/
  | stay {e : KeyEvent} (hunfit : e.concerns c.stage = false) : Move s now n c e c s
  /-- A slot is noted that was loaded before. -/
  | note {slot : KeySlot} {key : Option Key} {counter : Nat} (hstage : c.stage = .entering)
      (hrequest : c.request = .remember slot key counter) :
      Move s now n c .go { c with stage := .ended (.ok .done) }
        ((s.remember slot key counter).finish n c (.ok .done))
  /-- The call ends before it has given anything to the element. -/
  | decline {outcome : KeyOutcome} (hstage : c.stage = .entering ∨ c.stage = .granted)
      (hplain : Plain c outcome) :
      Move s now n c .go { c with stage := .ended outcome } (s.finish n c outcome)
  /-- The token is free. -/
  | seize {c' : KeyCall} (hstage : c.stage = .entering) (hready : s.prepare c = .ok c')
      (hfree : s.holder = none) :
      Move s now n c .go { c' with stage := .granted }
        ({ s with holder := some n }.put n { c' with stage := .granted })
  /-- The call gets in line for the token. -/
  | line {c' : KeyCall} {holder : Nat} (hstage : c.stage = .entering)
      (hready : s.prepare c = .ok c') (hheld : s.holder = some holder) :
      Move s now n c .go { c' with stage := .queued (now + s.timeout) }
        ({ s with waiting := s.waiting ++ [n] }.put n
          { c' with stage := .queued (now + s.timeout) })
  /-- The token has been passed on to the call. -/
  | grant {limit : Nat} (hstage : c.stage = .queued limit) (hholder : s.holder = some n) :
      Move s now n c .go { c with stage := .granted } (s.put n { c with stage := .granted })
  /-- The token has not come in time. -/
  | giveUp {limit : Nat} (hstage : c.stage = .queued limit) (hholder : s.holder ≠ some n) :
      Move s now n c .giveUp { c with stage := .ended (.error .busy) }
        ({ s with waiting := s.waiting.erase n }.finish n c (.error .busy))
  /-- The call uses the token for the first time. -/
  | use {authority : Key} {c' : KeyCall} {s' : KeyService} (hstage : c.stage = .granted)
      (hright : s.Entitled { c with authority })
      (hproceeds : s.Proceeds n { c with authority } c' s') : Move s now n c .go c' s'
  /-- The element is told to stop. -/
  | expire {command : Command} (hcommand : c.stage.command? = some command) :
      Move s now n c .expire { c with stage := .cancelling }
        (s.put n { c with stage := .cancelling })
  /-- The element has stopped. -/
  | stopped (hstage : c.stage = .cancelling) :
      Move s now n c .stopped { c with stage := .ended (.error (.timeout (s.timeout * 1000))) }
        (s.finish n c (.error (.timeout (s.timeout * 1000))))
  /-- The answer is an error or none of those that were expected. -/
  | fail {command : Command} {fault : KeyFault} {result : Except ElementFault Response}
      (hcommand : c.stage.command? = some command) (hfault : fault ≠ .unverified) :
      Move s now n c (.answer result) { c with stage := .ended (.error fault) }
        (s.finish n c (.error fault))
  /-- The caller is told the answer to its own command. -/
  | tell {command : Command} {want : Want} {r : Response}
      (hstage : c.stage = .asking command want) :
      Move s now n c (.answer (.ok r)) { c with stage := .ended (.ok (.response r)) }
        (s.finish n c (.ok (.response r)))
  /-- The element has said who it is. -/
  | name {element : ElementId} {status : UInt8} {mac : Block} {c' : KeyCall} {s' : KeyService}
      (hstage : c.stage = .naming)
      (hproceeds : { s with identity := some element }.Proceeds n c c' s') :
      Move s now n c (.answer (.ok (.identity element status mac))) c' s'
  /-- The element has given its challenge. -/
  | answer {element : ElementId} {challenge : Block} {c' : KeyCall}
      (hstage : c.stage = .challenging element)
      (hproof : c' = { c with
        stage := .authorizing (Element.debugProof c.authority challenge element) }) :
      Move s now n c (.answer (.ok (.challenge challenge))) c' (s.put n c')
  /-- The receipt is wrong. -/
  | mismatch {element : ElementId} {order : KeyOrder} {receipt expected : KeyReceipt}
      {slot : KeySlot} {key : Key} {counter : Nat} {flags : KeyFlags}
      (hstage : c.stage = .loading element order)
      (hload : c.load? = some (slot, key, counter, flags))
      (hexpected : KeyReceipt.make .master slot key counter element = .ok expected)
      (hwrong : expected ≠ receipt) :
      Move s now n c (.answer (.ok (.keyLoaded receipt)))
        { c with stage := .ended (.error .unverified) } (s.finish n c (.error .unverified))
  /-- The receipt is right, and the key is noted. -/
  | confirm {element : ElementId} {order : KeyOrder} {receipt : KeyReceipt}
      {slot : KeySlot} {key : Key} {counter : Nat} {flags : KeyFlags}
      (hstage : c.stage = .loading element order)
      (hload : c.load? = some (slot, key, counter, flags))
      (hreceipt : KeyReceipt.make .master slot key counter element = .ok receipt)
      (hnew : s.checkCounter slot counter = .ok ()) :
      Move s now n c (.answer (.ok (.keyLoaded receipt)))
        { c with stage := .ended (.ok c.loadedAnswer) }
        ({ s with notes := s.notes.insert slot ⟨counter, some key⟩ }.finish n c
          (.ok c.loadedAnswer))
  /-- All keys are erased. -/
  | erase {proof : Block} (hstage : c.stage = .authorizing proof) :
      Move s now n c (.answer (.ok .done)) { c with stage := .ended (.ok .done) }
        ({ s with notes := ∅ }.finish n c (.ok .done))

/-- A call that needs the identity of the element goes on with it. -/
theorem proceed_proceeds {element : ElementId} (n : Nat) (c : KeyCall)
    (hidentity : s.identity = some element) : ∃ c', s.Proceeds n c c' (s.proceed n c element) := by
  unfold proceed
  cases hload : c.load? with
  | some load =>
    obtain ⟨slot, key, counter, flags⟩ := load
    dsimp only
    cases horder : KeyOrder.make c.authority .master slot key counter flags element with
    | error fault => exact ⟨_, .ends (plain_error c (by simp))⟩
    | ok order =>
      exact ⟨_, .gives (.loading element order) rfl
        ⟨hidentity, slot, key, counter, flags, hload, horder⟩⟩
  | none =>
    dsimp only
    split
    case h_1 herase =>
      exact ⟨_, .gives (.challenging element) rfl ⟨hidentity, herase⟩⟩
    case h_2 hother => exact ⟨_, .ends ⟨fun _ _ => ⟨hload, hother⟩, by simp⟩⟩

theorem authority_ne_unverified {slot : KeySlot} {counter : Nat} {fault : KeyFault}
    (h : s.authority slot counter = .error fault) : fault ≠ .unverified := by
  unfold authority checkCounter at h
  rintro rfl
  split at h
  case h_1 fault' hcheck =>
    -- The counter is refused.
    obtain rfl := Except.error.inj h
    split at hcheck
    · split at hcheck <;> cases hcheck
    · cases hcheck
  case h_2 =>
    split at h
    · split at h <;> cases h
    · split at h <;> cases h

theorem prepare_ne_unverified {fault : KeyFault} (h : s.prepare c = .error fault) :
    fault ≠ .unverified := by
  unfold prepare judgeLoad at h
  dsimp only at h
  split at h
  case h_2 => cases h
  case h_1 slot key counter flags hload =>
    rintro rfl
    split at h
    · cases h
    split at h
    · cases h
    cases hauthority : s.authority slot counter with
    | ok key => simp [hauthority, Except.map] at h
    | error fault =>
      have hfault := authority_ne_unverified hauthority
      simp [hauthority, Except.map] at h
      exact hfault h

theorem enter_cases (now : Nat) (hstage : c.stage = .entering) :
    ∃ c', Move s now n c .go c' (s.enter now n c) := by
  unfold enter
  split
  case h_1 slot hrequest =>
    exact ⟨_, .decline (.inl hstage) ⟨fun _ _ => by simp [KeyCall.load?, hrequest], by simp⟩⟩
  case h_2 slot key counter hrequest => exact ⟨_, .note hstage hrequest⟩
  case h_3 =>
    cases hready : s.prepare c with
    | error fault =>
      exact ⟨_, .decline (.inl hstage) (plain_error c (prepare_ne_unverified hready))⟩
    | ok c' =>
      dsimp only
      unfold queue
      split
      case h_1 hfree => exact ⟨_, .seize hstage hready hfree⟩
      case h_2 holder hheld => exact ⟨_, .line hstage hready hheld⟩

theorem useToken_cases (now : Nat) (hstage : c.stage = .granted) :
    ∃ c', Move s now n c .go c' (s.useToken n c) := by
  unfold useToken
  split
  case h_1 command want hrequest =>
    have hright : s.Entitled { c with authority := c.authority } := by
      intro slot key counter flags hload
      simp [KeyCall.load?, hrequest] at hload
    exact ⟨_, .use hstage hright (.gives (.asking command want) rfl hrequest)⟩
  case h_2 =>
    -- The call goes on with an authority of its own, with or without the element's identity.
    have hknown (authority : Key) (hright : s.Entitled { c with authority }) (element : ElementId)
        (hidentity : s.identity = some element) :
        ∃ c', Move s now n c .go c' (s.proceed n { c with authority } element) := by
      obtain ⟨c', hproceeds⟩ := proceed_proceeds n { c with authority } hidentity
      exact ⟨c', .use hstage hright hproceeds⟩
    have hunknown (authority : Key) (hright : s.Entitled { c with authority })
        (hidentity : s.identity = none) :
        ∃ c', Move s now n c .go c' (s.put n { c with authority, stage := .naming }) :=
      ⟨_, .use hstage hright (.gives .naming rfl hidentity)⟩
    cases hload : c.load? with
    | none =>
      have hright : s.Entitled { c with authority := c.authority } := by
        intro slot key counter flags h
        exact absurd (hload.symm.trans h) (by simp)
      dsimp only
      split
      case h_1 element hidentity => exact hknown c.authority hright element hidentity
      case h_2 hidentity => exact hunknown c.authority hright hidentity
    | some load =>
      obtain ⟨slot, key, counter, flags⟩ := load
      dsimp only
      cases hauthority : s.authority slot counter with
      | error fault =>
        exact ⟨_, .decline (.inr hstage) (plain_error c (authority_ne_unverified hauthority))⟩
      | ok authority =>
        have hright : s.Entitled { c with authority } := by
          intro slot' key' counter' flags' h
          obtain ⟨rfl, rfl, rfl, rfl⟩ : slot = slot' ∧ key = key' ∧ counter = counter' ∧
              flags = flags' := by simpa using hload.symm.trans h
          exact hauthority
        simp only [Except.map]
        split
        case h_1 element hidentity => exact hknown authority hright element hidentity
        case h_2 hidentity => exact hunknown authority hright hidentity

theorem confirm_cases (now : Nat) {element : ElementId} {order : KeyOrder} (receipt : KeyReceipt)
    (hstage : c.stage = .loading element order) :
    ∃ c', Move s now n c (.answer (.ok (.keyLoaded receipt))) c'
      (s.confirm n c element receipt) := by
  have hcommand : c.stage.command? = some (.loadKey order) := by rw [hstage]; rfl
  unfold confirm
  split
  case h_1 => exact ⟨_, .fail hcommand (by simp)⟩
  case h_2 slot key counter flags hload =>
    split
    case h_1 => exact ⟨_, .fail hcommand (by simp)⟩
    case h_2 expected hexpected =>
      split
      case isTrue hwrong => exact ⟨_, .mismatch hstage hload hexpected hwrong⟩
      case isFalse hright =>
        obtain rfl : expected = receipt := Classical.not_not.mp hright
        split
        case h_1 fault hcheck =>
          refine ⟨_, .fail hcommand ?_⟩
          rintro rfl
          unfold checkCounter at hcheck
          split at hcheck
          · split at hcheck <;> cases hcheck
          · cases hcheck
        case h_2 hnew => exact ⟨_, .confirm hstage hload hexpected hnew⟩

theorem respond_cases (now : Nat) {command : Command} (r : Response)
    (hcommand : c.stage.command? = some command) :
    ∃ c', Move s now n c (.answer (.ok r)) c' (s.respond n c r) := by
  unfold respond
  split
  case h_1 command want r hstage =>
    split
    case isTrue => exact ⟨_, .tell hstage⟩
    case isFalse => exact ⟨_, .fail hcommand (by simp)⟩
  case h_2 element status mac hstage =>
    obtain ⟨c', hproceeds⟩ := proceed_proceeds (s := { s with identity := some element }) n c rfl
    exact ⟨c', .name hstage hproceeds⟩
  case h_3 => exact ⟨_, .fail hcommand (by simp)⟩
  case h_4 element order receipt hstage => exact confirm_cases now receipt hstage
  case h_5 => exact ⟨_, .fail hcommand (by simp)⟩
  case h_6 element challenge hstage => exact ⟨_, .answer hstage rfl⟩
  case h_7 => exact ⟨_, .fail hcommand (by simp)⟩
  case h_8 proof hstage => exact ⟨_, .erase hstage⟩
  case h_9 => exact ⟨_, .fail hcommand (by simp)⟩
  case h_10 hasking hnaming hloading hchallenging hauthorizing _ _ _ _ =>
    cases hstage : c.stage with
    | asking command' want => exact absurd hstage (hasking command' want)
    | naming => exact absurd hstage hnaming
    | loading element order => exact absurd hstage (hloading element order)
    | challenging element => exact absurd hstage (hchallenging element)
    | authorizing proof => exact absurd hstage (hauthorizing proof)
    | _ => simp [hstage, CallStage.command?] at hcommand

/-- An event does one of these. -/
theorem stepCall_cases (now : Nat) (e : KeyEvent) :
    ∃ c', Move s now n c e c' (s.stepCall now n c e) := by
  unfold stepCall
  split
  case h_1 hstage => exact enter_cases now hstage
  case h_2 limit hstage =>
    split
    case isTrue hholder => exact ⟨_, .grant hstage hholder⟩
    case isFalse => exact ⟨c, .stay rfl⟩
  case h_3 limit hstage =>
    split
    case isTrue => exact ⟨c, .stay rfl⟩
    case isFalse hholder => exact ⟨_, .giveUp hstage hholder⟩
  case h_4 hstage => exact useToken_cases now hstage
  case h_5 hstage => exact ⟨_, .stopped hstage⟩
  case h_6 =>
    split
    case isTrue hconcerned =>
      obtain ⟨command, hcommand⟩ := Option.isSome_iff_exists.mp hconcerned
      exact ⟨_, .expire hcommand⟩
    case isFalse hunfit => exact ⟨c, .stay (by simpa [KeyEvent.concerns] using hunfit)⟩
  case h_7 result =>
    split
    case isTrue hconcerned =>
      obtain ⟨command, hcommand⟩ := Option.isSome_iff_exists.mp hconcerned
      cases result with
      | ok r => exact respond_cases now r hcommand
      | error fault => exact ⟨_, .fail hcommand (by simp)⟩
    case isFalse hunfit => exact ⟨c, .stay (by simpa [KeyEvent.concerns] using hunfit)⟩
  case h_8 event _ _ hexpire hanswer _ _ _ _ hstopped =>
    refine ⟨c, .stay ?_⟩
    cases event with
    | expire => exact absurd rfl hexpire
    | answer result => exact absurd rfl (hanswer result)
    | stopped => cases hstage : c.stage with
      | cancelling => exact absurd rfl (hstopped hstage)
      | _ => rfl
    | _ => rfl

variable {s' : KeyService} {e : KeyEvent}

theorem Proceeds.call?_eq (h : s.Proceeds n c c' s') {c₀ : KeyCall}
    (hget : s.call? n = some c₀) : s'.call? n = some c' := by
  cases h with
  | ends => exact call?_finish hget
  | gives => exact call?_put hget _

theorem Proceeds.call?_of_ne (h : s.Proceeds n c c' s') (hne : n ≠ m) :
    s'.call? m = s.call? m := by
  cases h with
  | ends => exact call?_finish_of_ne _ _ _ hne
  | gives => exact call?_put_of_ne _ _ hne

theorem Move.call?_eq (h : Move s now n c e c' s') (hget : s.call? n = some c) :
    s'.call? n = some c' := by
  cases h with
  | stay => exact hget
  | seize | line | grant | expire | answer => exact call?_put (by exact hget) _
  | use _ _ hproceeds => exact hproceeds.call?_eq hget
  | name _ hproceeds => exact hproceeds.call?_eq (by exact hget)
  | _ => exact call?_finish (by exact hget)

/-- An event for a call leaves the other calls as they are. -/
theorem Move.call?_of_ne (h : Move s now n c e c' s') (hne : n ≠ m) :
    s'.call? m = s.call? m := by
  cases h with
  | stay => rfl
  | seize | line | grant | expire | answer => exact call?_put_of_ne _ _ hne
  | use _ _ hproceeds => exact hproceeds.call?_of_ne hne
  | name _ hproceeds => exact hproceeds.call?_of_ne hne
  | _ => exact call?_finish_of_ne _ _ _ hne

/-- An event for a call moves that call, and the service with it. -/
theorem step_cases (hget : s.call? n = some c) (now : Nat) (e : KeyEvent) :
    ∃ c', Move s now n c e c' (s.step now n e) ∧ (s.step now n e).call? n = some c' := by
  have hstep : s.step now n e = s.stepCall now n c e := by simp only [step, hget]
  obtain ⟨c', hmove⟩ := stepCall_cases (s := s) (n := n) (c := c) now e
  rw [hstep]
  exact ⟨c', hmove, hmove.call?_eq hget⟩

/-- A call whose command the element answers with a fault has ended with it. -/
theorem step_of_fault (now : Nat) {command : Command}
    {fault : ElementFault} (hget : s.call? n = some c)
    (hcommand : c.stage.command? = some command) :
    s.step now n (.answer (.error fault)) = s.finish n c (.error (.element fault)) := by
  have hstep : s.step now n (.answer (.error fault)) =
      s.stepCall now n c (.answer (.error fault)) := by
    simp only [step, hget]
  rw [hstep]
  unfold stepCall
  cases hstage : c.stage <;> simp [hstage, CallStage.command?] at hcommand ⊢

theorem prepare_eq (h : s.prepare c = .ok c') :
    c' = { c with counter := s.nextMasterCounter, authority := s.masterKey } := by
  unfold prepare at h
  dsimp only at h
  split at h
  case h_2 => exact (Except.ok.inj h).symm
  case h_1 =>
    obtain ⟨-, -, hprepared⟩ := exists_of_map_ok h
    exact hprepared.symm

/-- Handing out an outcome marks the call, and no more. -/
theorem take_cases (s : KeyService) (n : Nat) :
    ((s.take n).1 = s ∧ (s.take n).2 = none) ∨
      ∃ c outcome, s.call? n = some c ∧ c.stage = .ended outcome ∧
        ((s.take n).1 = s ∨ (s.take n).1 = s.put n { c with taken := true }) := by
  unfold take
  cases hget : s.call? n with
  | none => exact .inl ⟨rfl, rfl⟩
  | some c =>
    dsimp only
    cases hstage : c.stage with
    | ended outcome =>
      refine .inr ⟨c, outcome, rfl, hstage, ?_⟩
      simp only [KeyCall.outcome?, hstage]
      split
      · exact .inl rfl
      · exact .inr rfl
    | _ => exact .inl (by simp [KeyCall.outcome?, hstage])

/-- A call that is dropped before its end ends. -/
theorem abandon_cases (s : KeyService) (n : Nat) :
    s.abandon n = s ∨ ∃ c, s.call? n = some c ∧ c.outcome? = none ∧
      s.abandon n = { s with waiting := s.waiting.erase n }.finish n c (.error .closed) := by
  unfold abandon
  cases hget : s.call? n with
  | none => exact .inl rfl
  | some c =>
    dsimp only
    split
    case isTrue => exact .inl rfl
    case isFalse hopen => exact .inr ⟨c, rfl, by simpa using hopen, rfl⟩

/-! ## What callers do without the element -/

/-- A change of calls without any change of the notes: nothing is given to the element. -/
structure Aside (s s' : KeyService) : Prop where
  notes : s'.notes = s.notes
  identity : s'.identity = s.identity
  calls : ∀ m d, s'.call? m = some d → s.call? m = some d ∨ (d.stage.command? = none ∧
    ((∃ c, s.call? m = some c ∧ d.stage = c.stage) ∨ d.stage ≠ .ended (.error .unverified)))
  kept : ∀ m c, s.call? m = some c → ∃ d, s'.call? m = some d ∧
    (d.stage = c.stage ∨ ∃ outcome, d.stage = .ended outcome)

theorem aside_refl (s : KeyService) : Aside s s :=
  ⟨rfl, rfl, fun _ _ hm => .inl hm, fun _ c hm => ⟨c, hm, .inl rfl⟩⟩

theorem aside_append {s' : KeyService} {d : KeyCall} (hnotes : s'.notes = s.notes)
    (hidentity : s'.identity = s.identity) (hcalls : s'.calls = s.calls ++ [d])
    (hnone : d.stage.command? = none) (hopen : d.stage ≠ .ended (.error .unverified)) :
    Aside s s' := by
  have hcases (m : Nat) (c : KeyCall) :
      s'.call? m = some c ↔ s.call? m = some c ∨ m = s.calls.length ∧ c = d := by
    rw [call?, hcalls]
    exact call?_append s d m
  refine ⟨hnotes, hidentity, ?_, ?_⟩
  · intro m c hm
    rcases (hcases m c).mp hm with hold | ⟨-, rfl⟩
    · exact .inl hold
    · exact .inr ⟨hnone, .inr hopen⟩
  · exact fun m c hm => ⟨c, (hcases m c).mpr (.inl hm), .inl rfl⟩

/-- What is no event is done without the element. -/
theorem aside_act {deed : KeyDeed} (hquiet : ∀ now n e, deed ≠ .event now n e) :
    Aside s (s.act deed) := by
  cases deed with
  | event now n e => exact absurd rfl (hquiet now n e)
  | call request => exact aside_append rfl rfl rfl rfl (by simp)
  | start command =>
    change Aside s ((s.start command).getD s)
    unfold start
    split
    case h_1 => exact aside_refl s
    case h_2 => exact aside_append rfl rfl rfl rfl (by simp)
  | take n =>
    change Aside s (s.take n).1
    rcases take_cases s n with ⟨hsame, -⟩ | ⟨c, outcome, hget, hended, hsame | hsame⟩
    · rw [hsame]
      exact aside_refl s
    · rw [hsame]
      exact aside_refl s
    · rw [hsame]
      refine ⟨rfl, rfl, ?_, ?_⟩
      · intro m d hm
        by_cases hnm : n = m
        · subst hnm
          obtain rfl := Option.some.inj ((call?_put hget _).symm.trans hm)
          exact .inr ⟨by rw [hended]; rfl, .inl ⟨c, hget, rfl⟩⟩
        · exact .inl (by rwa [call?_put_of_ne _ _ hnm] at hm)
      · intro m d hm
        by_cases hnm : n = m
        · subst hnm
          obtain rfl := Option.some.inj (hget.symm.trans hm)
          exact ⟨_, call?_put hget _, .inl rfl⟩
        · exact ⟨d, (call?_put_of_ne _ _ hnm).trans hm, .inl rfl⟩
  | drop n =>
    change Aside s (s.abandon n)
    rcases abandon_cases s n with hsame | ⟨c, hget, -, hsame⟩
    · rw [hsame]
      exact aside_refl s
    · rw [hsame]
      refine ⟨notes_finish _ _ _ _, identity_finish _ _ _ _, ?_, ?_⟩
      · intro m d hm
        by_cases hnm : n = m
        · subst hnm
          obtain rfl := ended_of_finish (s := { s with waiting := s.waiting.erase n }) hget hm
          exact .inr ⟨rfl, .inr (by simp)⟩
        · exact .inl (by rwa [call?_finish_of_ne _ _ _ hnm] at hm)
      · intro m d hm
        by_cases hnm : n = m
        · subst hnm
          exact ⟨_, call?_finish (s := { s with waiting := s.waiting.erase n }) hget,
            .inr ⟨_, rfl⟩⟩
        · exact ⟨d, (call?_finish_of_ne _ _ _ hnm).trans hm, .inl rfl⟩

/-! ## What the calls ask -/

theorem Proceeds.request_eq (h : s.Proceeds n c c' s') : c'.request = c.request := by
  cases h <;> rfl

/-- An event does not change what a call asks. -/
theorem Move.request_eq (h : Move s now n c e c' s') : c'.request = c.request := by
  cases h with
  | seize _ hready => rw [prepare_eq hready]
  | line _ hready => rw [prepare_eq hready]
  | use _ _ hproceeds => exact hproceeds.request_eq
  | name _ hproceeds => exact hproceeds.request_eq
  | answer _ hproof => rw [hproof]
  | _ => rfl

/-- Only a caller's deed brings a new request. -/
theorem request_act {deed : KeyDeed} {d : KeyCall} (hd : (s.act deed).call? m = some d) :
    (∃ c, s.call? m = some c ∧ d.request = c.request) ∨ deed = .call d.request ∨
      ∃ command, deed = .start command ∧ d.request = .ask command .anything := by
  cases deed with
  | call request =>
    rcases (call?_append s { request } m).mp hd with hold | ⟨-, rfl⟩
    · exact .inl ⟨d, hold, rfl⟩
    · exact .inr (.inl rfl)
  | start command =>
    change ((s.start command).getD s).call? m = some d at hd
    unfold start at hd
    split at hd
    case h_1 => exact .inl ⟨d, hd, rfl⟩
    case h_2 =>
      rcases (call?_append s _ m).mp hd with hold | ⟨-, rfl⟩
      · exact .inl ⟨d, hold, rfl⟩
      · exact .inr (.inr ⟨command, rfl, rfl⟩)
  | event now n e =>
    change (s.step now n e).call? m = some d at hd
    cases hget : s.call? n with
    | none => exact .inl ⟨d, by simpa [step, hget] using hd, rfl⟩
    | some c =>
      obtain ⟨c', hmove, hget'⟩ := step_cases hget now e
      by_cases hnm : n = m
      · subst hnm
        obtain rfl := Option.some.inj (hget'.symm.trans hd)
        exact .inl ⟨c, hget, hmove.request_eq⟩
      · exact .inl ⟨d, by rwa [hmove.call?_of_ne hnm] at hd, rfl⟩
  | take n =>
    change (s.take n).1.call? m = some d at hd
    rcases take_cases s n with ⟨hsame, -⟩ | ⟨c, outcome, hget, -, hsame | hsame⟩
    · exact .inl ⟨d, by rwa [hsame] at hd, rfl⟩
    · exact .inl ⟨d, by rwa [hsame] at hd, rfl⟩
    · rw [hsame] at hd
      by_cases hnm : n = m
      · subst hnm
        obtain rfl := Option.some.inj ((call?_put hget _).symm.trans hd)
        exact .inl ⟨c, hget, rfl⟩
      · exact .inl ⟨d, by rwa [call?_put_of_ne _ _ hnm] at hd, rfl⟩
  | drop n =>
    change (s.abandon n).call? m = some d at hd
    rcases abandon_cases s n with hsame | ⟨c, hget, -, hsame⟩
    · exact .inl ⟨d, by rwa [hsame] at hd, rfl⟩
    · rw [hsame] at hd
      by_cases hnm : n = m
      · subst hnm
        obtain rfl := ended_of_finish (s := { s with waiting := s.waiting.erase n }) hget hd
        exact .inl ⟨c, hget, rfl⟩
      · exact .inl ⟨d, by rwa [call?_finish_of_ne _ _ _ hnm] at hd, rfl⟩

/-- What the calls of a service ask in the end has been asked in the run. -/
theorem request_run {timeout : Nat} {deeds : List KeyDeed} {d : KeyCall}
    (hd : (run { timeout } deeds).call? m = some d) :
    .call d.request ∈ deeds ∨ ∃ command, .start command ∈ deeds ∧
      d.request = .ask command .anything := by
  refine run_induction (s := { timeout })
    (P := fun s => ∀ m d, s.call? m = some d → .call d.request ∈ deeds ∨
      ∃ command, .start command ∈ deeds ∧ d.request = .ask command .anything) ?_ ?_ m d hd
  · intro m d hd
    cases hd
  · intro s deed hdeed ih m d hd
    rcases request_act hd with ⟨c, hget, hsame⟩ | rfl | ⟨command, rfl, hrequest⟩
    · rw [hsame]
      exact ih m c hget
    · exact .inl hdeed
    · exact .inr ⟨command, hdeed, hrequest⟩

/-- What brings no new call leaves the others with what they ask. -/
theorem call?_aside {deed : KeyDeed} (hget : s.call? n = some c)
    (hquiet : ∀ now n e, deed ≠ .event now n e) (hcall : ∀ request, deed ≠ .call request)
    (hstart : ∀ command, deed ≠ .start command) :
    ∃ d, (s.act deed).call? n = some d ∧ d.request = c.request := by
  obtain ⟨d, hd, -⟩ := (aside_act hquiet).kept n c hget
  refine ⟨d, hd, ?_⟩
  rcases request_act hd with ⟨c', hc', hsame⟩ | hother | ⟨command, hother, -⟩
  · obtain rfl := Option.some.inj (hget.symm.trans hc')
    exact hsame
  · exact absurd hother (hcall _)
  · exact absurd hother (hstart _)

/-- A call is never lost and never asks anything else. -/
theorem call?_act (hget : s.call? n = some c) (deed : KeyDeed) :
    ∃ d, (s.act deed).call? n = some d ∧ d.request = c.request := by
  cases deed with
  | call request => exact ⟨c, (call?_append s { request } n).mpr (.inl hget), rfl⟩
  | start command =>
    change ∃ d, ((s.start command).getD s).call? n = some d ∧ d.request = c.request
    unfold start
    split
    case h_1 => exact ⟨c, hget, rfl⟩
    case h_2 => exact ⟨c, (call?_append s _ n).mpr (.inl hget), rfl⟩
  | event now m e =>
    change ∃ d, (s.step now m e).call? n = some d ∧ d.request = c.request
    by_cases hmn : m = n
    · subst hmn
      obtain ⟨d, hmove, hd⟩ := step_cases hget now e
      exact ⟨d, hd, hmove.request_eq⟩
    · cases hm : s.call? m with
      | none => exact ⟨c, by simpa [step, hm] using hget, rfl⟩
      | some _ =>
        obtain ⟨_, hmove, -⟩ := step_cases hm now e
        exact ⟨c, (hmove.call?_of_ne hmn).trans hget, rfl⟩
  | take m => exact call?_aside hget (by simp) (by simp) (by simp)
  | drop m => exact call?_aside hget (by simp) (by simp) (by simp)

theorem call?_run (hget : s.call? n = some c) (deeds : List KeyDeed) :
    ∃ d, (s.run deeds).call? n = some d ∧ d.request = c.request := by
  refine run_induction (P := fun s => ∃ d, s.call? n = some d ∧ d.request = c.request)
    ⟨c, hget, rfl⟩ ?_
  rintro s deed - ⟨d, hd, hsame⟩
  obtain ⟨d', hd', hsame'⟩ := call?_act hd deed
  exact ⟨d', hd', hsame'.trans hsame⟩

end KeyService
end VehicleGateway
