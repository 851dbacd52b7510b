import VehicleGateway.Proofs.Message.Heading
import VehicleGateway.Proofs.Update.Reading

/-!
# A world that answers at once

What is assumed of a world that does its part can be had for every image, with encrypted chunks or
without: the ECU answers each frame as soon as the session listens, and nobody else uses the keys.

* `promptWorld` is that world, made out of one that stands still and of the session in it.
* `prompt_cooperates` and `prompt_keyCooperates` say that it does its part.
-/

namespace VehicleGateway

/-! ## A vault with one call -/

/-- At the end of a call there are as many calls as before. -/
theorem KeyService.finish_keeps (s : KeyService) (n : Nat) (c : KeyCall) (outcome : KeyOutcome) :
    (s.finish n c outcome).timeout = s.timeout ∧
      (s.finish n c outcome).calls.length = s.calls.length := by
  unfold finish
  dsimp only
  split <;> simp [release, put]

namespace Vault

/-- A vault whose element answers by itself and in time, with no call but the first one, which need
not wait for the token. -/
structure Alone (v : Vault) : Prop where
  stands : v.device.stands = []
  latency : v.device.latency ≤ v.service.timeout
  single : v.service.calls.length ≤ 1
  idle : ∀ n, v.service.calls.length ≤ n → v.underWay.get? n = none
  /-- The call does not wait for the token. -/
  unqueued : ∀ call limit, v.service.call? 0 = some call → call.stage ≠ .queued limit
  /-- The token is free when the call comes. -/
  free : ∀ call, v.service.call? 0 = some call → call.stage = .entering → v.service.holder = none

variable {v v' : Vault} {now : Nat} {command : Command} {want : Want} {told : KeyOutcome → Prop}
  {r : Response}

theorem Alone.tokenInTime (h : v.Alone) : v.TokenInTime now 0 := by
  intro call limit hget hqueued
  exact absurd hqueued (h.unqueued call limit hget)

/-- The first call comes. -/
theorem Alone.addCall (h : v.Alone) (hcalls : v.service.calls = [])
    (hholder : v.service.holder = none) (request : KeyRequest) : (v.addCall request).Alone := by
  have hget : (v.addCall request).service.call? 0 = some { request } := by
    simp [Vault.addCall, KeyService.addCall, KeyService.call?, hcalls]
  refine ⟨h.stands, h.latency, ?_, ?_, ?_, ?_⟩
  · simp [Vault.addCall, KeyService.addCall, hcalls]
  · intro n hn
    exact h.idle n (by simp [hcalls])
  · intro call limit hcall
    obtain rfl := Option.some.inj (hget.symm.trans hcall)
    simp
  · intro call hcall hentering
    exact hholder

/-- The call goes on. -/
theorem Alone.next (h : v.Alone) (call : KeyCall) (hdevice : v'.device = v.device)
    (htimeout : v'.service.timeout = v.service.timeout)
    (hlength : v'.service.calls.length = v.service.calls.length)
    (hunderWay : ∀ n, n ≠ 0 → v'.underWay.get? n = v.underWay.get? n)
    (hget : v'.service.call? 0 = some call) (hstage : call.stage ≠ .entering)
    (hunqueued : ∀ limit, call.stage ≠ .queued limit) : v'.Alone := by
  refine ⟨?_, ?_, hlength.le.trans h.single, ?_, ?_, ?_⟩
  · rw [hdevice]
    exact h.stands
  · rw [hdevice, htimeout]
    exact h.latency
  · intro n hn
    have hpos : 0 < v'.service.calls.length := (List.getElem?_eq_some_iff.mp hget).1
    rw [hunderWay n (by omega)]
    exact h.idle n (hlength.ge.trans hn)
  · intro call' limit hcall
    obtain rfl := Option.some.inj (hget.symm.trans hcall)
    exact hunqueued limit
  · intro call' hcall hentering
    obtain rfl := Option.some.inj (hget.symm.trans hcall)
    exact absurd hentering hstage

/-- A step of a call that passes a command on leaves it alone, and the device as it is. -/
theorem Alone.step (h : v.Alone) (hcall : v.Awaits 0 command want told)
    (hreplies : v.Replies command r) (hfits : want.fits r = true)
    (hstep : v.step? now 0 = some v') : v'.Alone ∧ v'.device = v.device := by
  obtain ⟨call, hget, hrequest, hcases⟩ := askStep_cases hcall h.tokenInTime hstep
  cases hcases with
  | enter hphase hidle =>
    have hholder := h.free call hget hphase
    have hservice : v.service.enter now 0 call = { v.service with holder := some 0 }.put 0
        { call with
          counter := v.service.nextMasterCounter, authority := v.service.masterKey
          stage := .granted } := by
      simp [KeyService.enter, hrequest, KeyService.prepare, KeyCall.load?, KeyService.queue,
        hholder]
    rw [hservice]
    refine ⟨h.next _ rfl rfl ?_ (fun _ _ => rfl) (KeyService.call?_put hget _) (by simp) (by simp),
      rfl⟩
    simp [KeyService.put]
  | grant hphase => exact absurd hphase (h.unqueued call _ hget)
  | use hphase hidle =>
    refine ⟨h.next _ rfl rfl ?_ (fun _ _ => rfl) (KeyService.call?_put hget _) (by simp) (by simp),
      rfl⟩
    simp [KeyService.put]
  | invoke hphase hidle =>
    obtain ⟨hservice, hdevice, i, hunderWay, -⟩ :=
      invoke_answers h.stands h.latency now 0 command
    refine ⟨h.next call hdevice (by rw [hservice]) (by rw [hservice]) ?_
      (by rw [hservice]; exact hget) (by simp [hphase]) (by simp [hphase]), hdevice⟩
    intro n hn
    rw [hunderWay]
    exact Dictionary.get?_insert_of_ne _ hn _
  | complete hphase hunderWay hanswers =>
    rw [complete_eq now hget hphase hreplies hfits hanswers]
    obtain ⟨htimeout, hlength⟩ := KeyService.finish_keeps v.service 0 call (.ok (.response r))
    refine ⟨h.next _ rfl htimeout hlength ?_ (KeyService.call?_finish hget) (by simp) (by simp),
      rfl⟩
    intro n hn
    exact Dictionary.get?_erase_of_ne _ hn

end Vault

/-! ## The world -/

namespace Session

variable {σ : Type}

/-- What the ECU answers. -/
def promptReply (s : Session) (frame : UpdateFrame) : Bytes :=
  if frame = .opening ∧ s.secure then List.replicate Firmware.challengeSize 0x55
  else [frame.demanded]

theorem length_promptReply (s : Session) (frame : UpdateFrame) :
    (s.promptReply frame).length ≤ 64 := by
  unfold promptReply
  split <;> simp [Firmware.challengeSize]

/-- The message with which the ECU answers. -/
def promptMessage (s : Session) (frame : UpdateFrame) : Message where
  id := Identifier.firmware s.ecu Firmware.response
  interface := s.interface
  payload := s.promptReply frame
  fits := s.length_promptReply frame

/-- What is in the inbox when a session has its turn: the answer that it listens for. -/
def promptItems (s now : Session) : List Message :=
  match now.doing, now.dialogue.phase with
  | .listening _, .awaiting frame => [s.promptMessage frame]
  | _, _ => []

/-- A world that stands still but for its time, an inbox, and the keys while they are in use. -/
def promptStill (quiet : World σ) (s : Session) (time : Nat) (left : World σ) (now : Session) :
    World σ :=
  { quiet with
    now := time
    keys := match now.doing with
      | .calling _ => left.keys
      | _ => quiet.keys
    inboxes :=
      { boxes := List.replicate s.inbox .shut ++ [{ depth := 1, items := s.promptItems now }] } }

variable [Storage σ]

/-- The world that a session finds at a turn, and the session then. -/
def prompt (c : FirmwareConfig) (quiet : World σ) (s : Session) : Nat → World σ × Session
  | 0 => (promptStill quiet s 0 quiet s, s)
  | i + 1 =>
    let (x, now) := prompt c quiet s i
    let (left, next) := (now.step? c x).getD (x, now)
    (promptStill quiet s (i + 1) left next, next)

/-- A world that answers at once. -/
def promptWorld (c : FirmwareConfig) (quiet : World σ) (s : Session) (i : Nat) : World σ :=
  (prompt c quiet s i).1

variable {c : FirmwareConfig} {quiet : World σ} {s : Session} {image : Bytes} {key : Key}

theorem turn_promptWorld (c : FirmwareConfig) (quiet : World σ) (s : Session) (i : Nat) :
    s.turn c (promptWorld c quiet s) i = (prompt c quiet s i).2 := by
  induction i with
  | zero => rfl
  | succ i ih =>
    have hworld : promptWorld c quiet s i = (prompt c quiet s i).1 := rfl
    simp only [turn, ih, hworld, prompt]
    cases ((prompt c quiet s i).2.step? c (prompt c quiet s i).1) <;> rfl

theorem promptWorld_zero : promptWorld c quiet s 0 = promptStill quiet s 0 quiet s := rfl

theorem promptWorld_succ (c : FirmwareConfig) (quiet : World σ) (s : Session) (i : Nat) :
    promptWorld c quiet s (i + 1) =
      promptStill quiet s (i + 1) (s.left c (promptWorld c quiet s) i)
        (s.turn c (promptWorld c quiet s) (i + 1)) := by
  have hworld : promptWorld c quiet s i = (prompt c quiet s i).1 := rfl
  rw [turn_promptWorld]
  simp only [left, turn_promptWorld, hworld]
  simp only [promptWorld, prompt]
  cases ((prompt c quiet s i).2.step? c (prompt c quiet s i).1) <;> rfl

/-- The world at a turn stands still but for what the session needs. -/
theorem exists_promptStill (c : FirmwareConfig) (quiet : World σ) (s : Session) (i : Nat) :
    ∃ left, promptWorld c quiet s i =
      promptStill quiet s i left (s.turn c (promptWorld c quiet s) i) := by
  cases i with
  | zero => exact ⟨quiet, rfl⟩
  | succ i => exact ⟨_, promptWorld_succ c quiet s i⟩

/-- Time passes, and storage and bus stay as they are. -/
theorem promptWorld_fixed (c : FirmwareConfig) (quiet : World σ) (s : Session) (i : Nat) :
    (promptWorld c quiet s i).now = i ∧ (promptWorld c quiet s i).storage = quiet.storage ∧
      (promptWorld c quiet s i).bus = quiet.bus := by
  obtain ⟨left, hstill⟩ := exists_promptStill c quiet s i
  rw [hstill]
  exact ⟨rfl, rfl, rfl⟩

theorem timePasses_promptWorld (c : FirmwareConfig) (quiet : World σ) (s : Session) :
    TimePasses (promptWorld c quiet s) := by
  constructor
  · intro i
    rw [(promptWorld_fixed c quiet s i).1, (promptWorld_fixed c quiet s (i + 1)).1]
    omega
  · intro time
    exact ⟨time, (promptWorld_fixed c quiet s time).1.ge⟩

/-- What an update needs of a world that stands still. -/
structure Quiet (c : FirmwareConfig) (s : Session) (quiet : World σ) (image : Bytes) : Prop where
  image : ∀ offset wanted,
    Storage.readImage quiet.storage s.image offset wanted = .ok (Bytes.window image offset wanted)
  header : c.verifyHeader = false ∨ Storage.readHeader quiet.storage s.image = .ok none
  bus : quiet.bus.connected = true ∧ s.interface < quiet.bus.interfaces ∧
    quiet.bus.latency ≤ c.ackTimeout

/-- The element of a world that stands still answers what the session asks it up to a turn. -/
def Answered (c : FirmwareConfig) (quiet : World σ) (s : Session) (vault : Vault) (i : Nat) : Prop :=
  ∀ j, j ≤ i → ∀ command want,
    (s.turn c (promptWorld c quiet s) j).dialogue.question? c.updateKey = some (command, want) →
      ∃ r, want.fits r = true ∧
        vault.device.element.execute command = (vault.device.element, .ok r)

/-- The vault at a turn is as it was at the start, or busy with the session's only call. -/
theorem prompt_vault {vault : Vault} (hkeys : quiet.keys = some vault)
    (hrests : vault.Alone) (hcalls : vault.service.calls = [])
    (hholder : vault.service.holder = none) (hstart : s.doing = .ready) (hcoherent : s.Coherent)
    (i : Nat) (hanswered : Answered c quiet s vault i) :
    ∃ v, (promptWorld c quiet s i).keys = some v ∧ v.Alone ∧ v.device = vault.device ∧
      ((∀ n, (s.turn c (promptWorld c quiet s) i).doing ≠ .calling n) ∧ v = vault ∨
        (s.turn c (promptWorld c quiet s) i).doing = .calling 0 ∧
          ∃ command want, (s.turn c (promptWorld c quiet s) i).dialogue.question? c.updateKey =
              some (command, want) ∧ v.Awaits 0 command want fun _ => True) := by
  induction i with
  | zero =>
    refine ⟨vault, ?_, hrests, rfl, .inl ⟨?_, rfl⟩⟩
    · simp [promptWorld_zero, promptStill, hstart, hkeys]
    · intro n
      simp [turn, hstart]
  | succ i ih =>
    obtain ⟨v, hv, halone, hdevice, hform⟩ := ih fun j hj => hanswered j (by omega)
    have hcoherentNext := coherent_turn (c := c) (w := promptWorld c quiet s) hcoherent (i + 1)
    have hworld := promptWorld_succ c quiet s i
    by_cases hcalling : ∃ n, (s.turn c (promptWorld c quiet s) (i + 1)).doing = .calling n
    case neg =>
      refine ⟨vault, ?_, hrests, rfl, .inl ⟨fun n hn => hcalling ⟨n, hn⟩, rfl⟩⟩
      rw [hworld]
      unfold promptStill
      dsimp only
      split
      case h_1 n hn => exact absurd ⟨n, hn⟩ hcalling
      case h_2 => exact hkeys
    case pos =>
      obtain ⟨n, hn⟩ := hcalling
      obtain ⟨command, want, hquestion⟩ := hcoherentNext.exists_question c.updateKey hn
      have hleft : (promptWorld c quiet s (i + 1)).keys =
          (s.left c (promptWorld c quiet s) i).keys := by
        rw [hworld]
        simp [promptStill, hn]
      cases hstep : (s.turn c (promptWorld c quiet s) i).step? c (promptWorld c quiet s i) with
      | none =>
        obtain ⟨hsame, hstill⟩ := turn_wait hstep
        rw [hsame] at hn ⊢
        refine ⟨v, by rw [hleft, hstill]; exact hv, halone, hdevice, hform⟩
      | some next =>
        obtain ⟨x', s'⟩ := next
        obtain ⟨hturn, hstill⟩ := turn_succ hstep
        rw [hturn] at hn hquestion ⊢
        rw [hleft, hstill]
        rcases calling_of_step hstep hn hquestion with
          ⟨hready, -, v', hv', rfl, hadded⟩ | ⟨rfl, v', v'', hv', -, hmoved, hkeys'⟩
        · -- The session makes its call, and has made none before.
          obtain rfl : v = v' := Option.some.inj (hv.symm.trans hv')
          rcases hform with ⟨-, rfl⟩ | ⟨hbusy, -⟩
          case inr => simp [hready] at hbusy
          have hawaits := Vault.awaits_addCall command want (fun _ => True)
            (halone.idle _ le_rfl)
          simp only [hcalls, List.length_nil] at hn hawaits
          exact ⟨_, hadded, halone.addCall hcalls hholder _, rfl,
            .inr ⟨hn, command, want, hquestion, hawaits⟩⟩
        · -- The session carries its call on.
          obtain rfl : v = v' := Option.some.inj (hv.symm.trans hv')
          rcases hform with ⟨hidle, -⟩ | ⟨hbusy, command', want', hquestion', hawaits⟩
          case inl => exact absurd hn (hidle n)
          obtain ⟨r, hfits, hanswer⟩ := hanswered i (Nat.le_succ i) command' want' hquestion'
          have hreplies : v.Replies command' r :=
            ⟨halone.stands, by rw [hdevice]; exact hanswer, halone.latency⟩
          obtain rfl : n = 0 := Doing.calling.inj (hn.symm.trans hbusy)
          obtain ⟨hawaits', -⟩ := Vault.step?_awaits hawaits hreplies hfits trivial
            halone.tokenInTime hmoved
          obtain ⟨halone', hdevice'⟩ := halone.step hawaits hreplies hfits hmoved
          exact ⟨v'', hkeys', halone', hdevice'.trans hdevice,
            .inr ⟨hbusy, command', want', hquestion', hawaits'⟩⟩

end Session
end VehicleGateway
