import VehicleGateway.Proofs.Gateway.Updating
import VehicleGateway.Proofs.Update.Tidings

/-!
# Who holds an ECU

An ECU is held by one session at a time, from the start of an update to the step with which the
session writes the status that its ECU has after the update.

* `Happening` is a deed, or that the key service is another one: nothing is assumed about what it
  answers.  `moment` is a gateway after so many happenings.
* `Dealing` lists what that can do to the sessions and their inboxes, and `meet_dealing` says that
  there is nothing else: messages are posted, an update is started, a session takes a step.
* `Housed` is the invariant: the places in use are those of the sessions that hold an ECU, every
  session has an inbox of its own in which there are messages of its own ECU only, and the inbox of
  a session that holds an ECU is open.
* `Leaves` is the step that ends the tenancy, and `tenancy_kept` puts all of it together: who holds
  an ECU and when it is given back, and that an end is shown only after that.

A gateway may be shut down in such a run, but it is not started again.
-/

namespace VehicleGateway

/-- Something that happens to a gateway whose key service may be any. -/
inductive Happening (σ : Type) where
  | deed (deed : Deed σ)
  /-- The key service has become another one, or there is none any more. -/
  | keys (keys : Option Vault)

namespace Gateway

variable {σ : Type} {g g' : Gateway σ}

/-- A gateway after something has happened to it. -/
def meet [Storage σ] (c : Config) (g : Gateway σ) : Happening σ → Gateway σ
  | .deed deed => g.act c deed
  | .keys keys => { g with keys }

/-! ## What happens to the sessions -/

/-- A change that touches no session, after which the same ECUs are under update. -/
structure Untouched (g g' : Gateway σ) : Prop where
  updating : ∀ ecu, g'.registry.status? ecu = some .updating ↔
    g.registry.status? ecu = some .updating
  sessions : g'.sessions = g.sessions
  firmware : g'.firmware = g.firmware

/-- What something that happens does to the sessions and their inboxes. -/
inductive Dealing [Storage σ] (g : Gateway σ) : Happening σ → Gateway σ → Prop where
  | aside {event : Happening σ} {g' : Gateway σ} (hsame : g.Untouched g')
      (hinboxes : g'.inboxes = g.inboxes) : Dealing g event g'
  | post {event : Happening σ} {g' : Gateway σ} {m : Message} {ecu : EcuNo} {code : UInt8}
      (hid : m.id.heading = .ok (.firmware ecu code)) (hsame : g.Untouched g')
      (hinboxes : g'.inboxes = g.inboxes.post ecu m) : Dealing g event g'
  | start {ecu : EcuNo} {image : String} {secure : Bool} {w : World σ} {s : Session}
      (hstart : g.toWorld.startUpdate g.firmware ecu image secure = .ok (w, s)) :
    Dealing g (.deed (.startUpdate ecu image secure))
      { g with toWorld := w, sessions := g.sessions ++ [s] }
  | session {n : Nat} {s s' : Session} {w : World σ} (hs : g.sessions[n]? = some s)
      (hstep : s.step? g.firmware g.toWorld = some (w, s')) :
    Dealing g (.deed (.move (.session n))) { g with toWorld := w, sessions := g.sessions.set n s' }

/-- A message that is taken up is put into the inbox of the ECU that it names, if it is put into
any. -/
theorem inboxes_takeUp (g : Gateway σ) (m : Message) :
    (g.takeUp m).1.inboxes = g.inboxes ∨
      ∃ ecu code, m.id.heading = .ok (.firmware ecu code) ∧
        (g.takeUp m).1.inboxes = g.inboxes.post ecu m := by
  unfold takeUp
  cases hpath : Router.path g.routes g.toWorld g.tray m with
  | forwarding f => exact .inl rfl
  | settled w tray d =>
    dsimp only [settle]
    unfold Router.path at hpath
    split at hpath
    case h_1 =>
      cases hpath
      exact .inl rfl
    case h_2 =>
      split at hpath
      case h_1 =>
        cases hpath
        exact .inl rfl
      case h_2 =>
        split at hpath <;> cases hpath
        exact .inl rfl
    case h_3 =>
      split at hpath <;> (cases hpath; exact .inl rfl)
    case h_4 ecu code hid =>
      cases hpath
      exact .inr ⟨ecu, code, hid, rfl⟩

theorem untouched_takeUp (g : Gateway σ) (m : Message) : g.Untouched (g.takeUp m).1 := by
  refine ⟨(quiet_takeUp g m).updating, ?_, ?_⟩
  · unfold takeUp
    split <;> rfl
  · unfold takeUp
    split <;> rfl

theorem untouched_submit (g : Gateway σ) (m : Message) :
    g.Untouched (g.submit m).1 ∧ (g.submit m).1.inboxes = g.inboxes := by
  unfold submit
  split <;> exact ⟨⟨fun _ => Iff.rfl, rfl, rfl⟩, rfl⟩

theorem untouched_receiver (h : g.receiverStep? = some g') :
    g.Untouched g' ∧ g'.inboxes = g.inboxes := by
  cases receiverStep?_cases h with
  | notice | malformed => exact ⟨⟨fun _ => Iff.rfl, rfl, rfl⟩, rfl⟩
  | @submit arrivals rest f m =>
    obtain ⟨hsame, hinboxes⟩ := untouched_submit { g with arrivals := some rest } m
    exact ⟨⟨hsame.updating, hsame.sessions, hsame.firmware⟩, hinboxes⟩

variable [Storage σ]

/-- Taking up a message, with whatever else was done to queues. -/
theorem dealing_of_takeUp {event : Happening σ} (found : Gateway σ) (m : Message)
    (hfound : found.inboxes = g.inboxes ∧ found.registry = g.registry)
    (hleft : g'.inboxes = (found.takeUp m).1.inboxes ∧
      g'.registry = (found.takeUp m).1.registry)
    (hsessions : g'.sessions = g.sessions) (hfirmware : g'.firmware = g.firmware) :
    Dealing g event g' := by
  have hsame : g.Untouched g' := by
    refine ⟨?_, hsessions, hfirmware⟩
    rw [hleft.2, ← hfound.2]
    exact (untouched_takeUp found m).updating
  rcases inboxes_takeUp found m with hnone | ⟨ecu, code, hid, hpost⟩
  · apply Dealing.aside hsame
    rw [hleft.1, hnone, hfound.1]
  · apply Dealing.post hid hsame
    rw [hleft.1, hpost, hfound.1]

theorem dealing_router {event : Happening σ} (h : g.routerStep? = some g') :
    Dealing g event g' := by
  have hupdating := (quiet_router h).updating
  cases routerStep?_cases h with
  | stop | finish => exact .aside ⟨hupdating, rfl, rfl⟩ rfl
  | goOn hbusy hnext => exact .aside ⟨hupdating, rfl, rfl⟩ (quiet_of_forwarding hnext).2
  | @settle m queue _ d hidle htake hup =>
    have huntouched := untouched_takeUp { g with queue } m
    rw [hup] at huntouched
    refine dealing_of_takeUp { g with queue } m ⟨rfl, rfl⟩ ?_
      huntouched.sessions huntouched.firmware
    rw [hup]
    exact ⟨rfl, rfl⟩
  | @setOut m queue _ f hidle htake hup =>
    have huntouched := untouched_takeUp { g with queue } m
    rw [hup] at huntouched
    refine dealing_of_takeUp { g with queue } m ⟨rfl, rfl⟩ ?_
      huntouched.sessions huntouched.firmware
    rw [hup]
    exact ⟨rfl, rfl⟩

theorem dealing_supervisor {event : Happening σ} (h : g.supervisorStep? = some g') :
    Dealing g event g' := by
  have hupdating := (quiet_supervisor h).updating
  cases supervisorStep?_cases h with
  | apply htake =>
    exact .aside ⟨hupdating, rfl, rfl⟩ (Supervisor.accept_updating _ g.toWorld _).2
  | stop => exact .aside ⟨hupdating, rfl, rfl⟩ rfl

theorem dealing_heartbeat {event : Happening σ} (h : g.heartbeatStep? = some g') :
    Dealing g event g' := by
  have hupdating := (quiet_heartbeat h).updating
  cases heartbeatStep?_cases h with
  | goOn hbeat hround hnext => exact .aside ⟨hupdating, rfl, rfl⟩ (quiet_of_round hnext).2
  | finish | begin => exact .aside ⟨hupdating, rfl, rfl⟩ rfl

theorem dealing_errand {event : Happening σ} (h : g.errandStep? = some g') :
    Dealing g event g' := by
  have hupdating := (quiet_errand h).updating
  cases errandStep?_cases h with
  | land herrand hland => exact .aside ⟨hupdating, rfl, rfl⟩ (World.land_keeps hland).2
  | poll herrand hnext => exact .aside ⟨hupdating, rfl, rfl⟩ (quiet_of_round hnext).2
  | polled | finish => exact .aside ⟨hupdating, rfl, rfl⟩ rfl
  | goOn herrand hnext => exact .aside ⟨hupdating, rfl, rfl⟩ (quiet_of_forwarding hnext).2
  | @settle m _ d herrand hup =>
    have huntouched := untouched_takeUp g m
    rw [hup] at huntouched
    refine dealing_of_takeUp g m ⟨rfl, rfl⟩ ?_ huntouched.sessions huntouched.firmware
    rw [hup]
    exact ⟨rfl, rfl⟩
  | @setOut m _ f herrand hup =>
    have huntouched := untouched_takeUp g m
    rw [hup] at huntouched
    refine dealing_of_takeUp g m ⟨rfl, rfl⟩ ?_ huntouched.sessions huntouched.firmware
    rw [hup]
    exact ⟨rfl, rfl⟩

/-- What a deed does to the sessions and their inboxes, unless the gateway is started again. -/
theorem act_dealing (c : Config) (g : Gateway σ) (deed : Deed σ)
    (hgoes : ∀ now bus keys, deed ≠ .restart now bus keys) :
    Dealing g (.deed deed) (g.act c deed) := by
  have hacts := acts_act c g deed
  generalize g.act c deed = g' at hacts ⊢
  cases hacts with
  | @move p _ hstep =>
    cases p with
    | receiver =>
      obtain ⟨hsame, hinboxes⟩ := untouched_receiver hstep
      exact .aside hsame hinboxes
    | router => exact dealing_router hstep
    | supervisor => exact dealing_supervisor hstep
    | heartbeat => exact dealing_heartbeat hstep
    | errand => exact dealing_errand hstep
    | keyCall n =>
      cases keyCallStep?_cases hstep
      exact .aside ⟨fun _ => Iff.rfl, rfl, rfl⟩ rfl
    | session n =>
      obtain ⟨hs, hsession⟩ := sessionStep?_cases hstep
      exact .session hs hsession
  | start hstart => exact .start hstart
  | submit m =>
    obtain ⟨hsame, hinboxes⟩ := untouched_submit g m
    exact .aside hsame hinboxes
  | accept m =>
    obtain ⟨hupdating, hinboxes⟩ :=
      Supervisor.accept_updating g.supervision.autoPersist g.toWorld m
    exact .aside ⟨hupdating, rfl, rfl⟩ hinboxes
  | restart | misconfigured => exact absurd rfl (hgoes _ _ _)
  | waits | inject | refused | request | poll | route | callKeys | keyless | clock | others |
      shutdown =>
    exact .aside ⟨fun _ => Iff.rfl, rfl, rfl⟩ rfl

/-- What happens does nothing else to the sessions, unless the gateway is started again. -/
theorem meet_dealing (c : Config) (g : Gateway σ) (event : Happening σ)
    (hgoes : ∀ now bus keys, event ≠ .deed (.restart now bus keys)) :
    Dealing g event (g.meet c event) := by
  cases event with
  | deed deed => exact act_dealing c g deed fun now bus keys h => hgoes now bus keys (by rw [h])
  | keys keys => exact .aside ⟨fun _ => Iff.rfl, rfl, rfl⟩ rfl

end Gateway

/-! ## Sessions and their inboxes -/

namespace Session

/-- What holds of every session that was started. -/
structure Steady (s : Session) : Prop where
  coherent : s.Coherent
  /-- The dialogue shows no end by itself. -/
  stage : s.dialogue.stage.terminal = false
  result : s.dialogue.result? ≠ some (.error .inboxClosed)

theorem steady_start {σ : Type} {c : FirmwareConfig} {w w' : World σ} {ecu : EcuNo}
    {image : String} {secure : Bool} {s : Session}
    (h : w.startUpdate c ecu image secure = .ok (w', s)) : s.Steady := by
  obtain ⟨record, -, -, -, rfl⟩ := World.startUpdate_parts h
  refine ⟨trivial, ?_, ?_⟩
  · unfold Dialogue.start
    dsimp only
    split <;> rfl
  · unfold Dialogue.start
    dsimp only
    split <;> simp [Dialogue.result?, Dialogue.sendReset, Dialogue.sendByte]

/-- What a session shows, or gives to who waits for it, it shows when it is closed. -/
theorem Steady.closed {s : Session} (h : s.Steady)
    (hshown : s.stage.terminal = true ∨ s.report?.isSome = true) : s.doing = .closed := by
  cases hdoing : s.doing with
  | closed => rfl
  | _ =>
    exfalso
    rcases hshown with hstage | hreport
    · have hopen := h.stage
      simp only [Session.stage, Session.result?, hdoing] at hstage
      rw [hopen] at hstage
      cases hstage
    · simp [report?, Session.result?, hdoing] at hreport

variable {σ : Type} [Storage σ] {c : FirmwareConfig} {w w' : World σ} {s s' : Session}

/-- As long as a session holds its ECU, its inbox is not shut, and so it does not fail for that. -/
theorem Steady.step (h : s.Steady) (hstep : s.step? c w = some (w', s'))
    (hopen : s.holds = true → w.inboxes.finished s.inbox = false) : s'.Steady := by
  have hcoherent := (step?_tells h.coherent hstep).1
  rcases step?_told hstep with hsame | ⟨t, htold, rfl⟩
  · exact ⟨hcoherent, by rw [hsame]; exact h.stage, by rw [hsame]; exact h.result⟩
  · refine ⟨hcoherent, (s.dialogue.hears t).stage h.stage, ?_⟩
    intro hclosed
    cases hresult : s.dialogue.result? with
    | some result =>
      -- A dialogue that has ended hears nothing any more.
      have hended : s.dialogue.hear t = s.dialogue := by
        unfold Dialogue.result? at hresult
        split at hresult
        case h_1 r hphase => simp only [Dialogue.hear, hphase]
        case h_2 => cases hresult
      apply h.result
      rw [← hended]
      exact hclosed
    | none =>
      rcases (s.dialogue.hears t).fault hresult hclosed with
        ⟨rfl, -⟩ | ⟨reason, hreason, -⟩ | ⟨hecu, -⟩
      · rcases htold.failed_cases with
          ⟨_, hfault⟩ | ⟨_, hfault⟩ | hfault | ⟨_, hfault⟩ | ⟨-, hfinished, deadline, hdoing⟩
        · cases hfault
        · cases hfault
        · cases hfault
        · cases hfault
        · rw [hopen (by simp [holds, hdoing])] at hfinished
          cases hfinished
      · cases hreason
      · cases hecu

/-- A step of a session releases its ECU, or takes at most a message out of its inbox. -/
theorem step?_inboxes (h : s.step? c w = some (w', s')) :
    (∃ result, s.doing = .ready ∧ s.dialogue.phase = .ended result ∧
        (w', s') = s.release w result) ∨
      w'.registry = w.registry ∧ s'.holds = s.holds ∧
        (w'.inboxes = w.inboxes ∨ ∃ m, w.inboxes.take? s.inbox = some (m, w'.inboxes)) := by
  cases step?_cases h with
  | turn wish hdoing hwish =>
    have hworld := (turnTo_keeps c w s wish).1
    refine .inr ⟨by rw [hworld], ?_, .inl (by rw [hworld])⟩
    rw [holds_turnTo]
    simp [holds, hdoing]
  | release result hdoing hended => exact .inl ⟨result, hdoing, hended, rfl⟩
  | land hdoing hland =>
    obtain ⟨hregistry, hinboxes⟩ := World.land_keeps hland
    exact .inr ⟨hregistry, by simp [holds, tell, hdoing], .inl hinboxes⟩
  | outcome hdoing => exact .inr ⟨rfl, by simp [holds, tell, hdoing], .inl rfl⟩
  | carry => exact .inr ⟨rfl, rfl, .inl rfl⟩
  | take hdoing htake =>
    refine .inr ⟨rfl, ?_, .inr ⟨_, htake⟩⟩
    split
    case isTrue => simp [holds, tell, hdoing]
    case isFalse => rfl
  | miss hdoing => exact .inr ⟨rfl, by simp [holds, tell, hdoing], .inl rfl⟩
  | persist hdoing =>
    obtain ⟨-, hinboxes, hregistry⟩ := w.persist_keeps s.ecu
    exact .inr ⟨hregistry, by simp [holds, hdoing], .inl hinboxes⟩
  | close hdoing => exact .inr ⟨rfl, by simp [holds, hdoing], .inl rfl⟩

end Session

/-- The inbox of a session holds messages of its ECU only, and is open as long as the session holds
the ECU. -/
def Inboxes.Serves (i : Inboxes) (s : Session) : Prop :=
  ∃ box, i.boxes[s.inbox]? = some box ∧ (s.holds = true → box.hasSender = true) ∧
    ∀ m ∈ box.items, ∃ code, m.id.heading = .ok (.firmware s.ecu code)

namespace Inboxes

variable {i i' : Inboxes} {s : Session}

theorem Serves.not_finished (h : i.Serves s) (hholds : s.holds = true) :
    i.finished s.inbox = false := by
  obtain ⟨box, hbox, hopen, -⟩ := h
  simp [finished, hbox, Mailbox.finished, hopen hholds]

theorem Serves.of_same {s' : Session} (h : i.Serves s) (hinbox : s'.inbox = s.inbox)
    (hecu : s'.ecu = s.ecu) (hholds : s'.holds = true → s.holds = true) : i.Serves s' := by
  obtain ⟨box, hbox, hopen, haddressed⟩ := h
  rw [← hinbox] at hbox
  rw [← hecu] at haddressed
  exact ⟨box, hbox, fun h => hopen (hholds h), haddressed⟩

/-- Changes of other inboxes do not matter. -/
theorem Serves.of_modify {n : Nat} {f : Mailbox Message → Mailbox Message} (h : i.Serves s)
    (hother : s.inbox ≠ n) (hboxes : i'.boxes = i.boxes.modify n f) : i'.Serves s := by
  obtain ⟨box, hbox, hserves⟩ := h
  refine ⟨box, ?_, hserves⟩
  rw [hboxes, List.getElem?_modify, hbox]
  simp [Ne.symm hother]

theorem Serves.append (h : i.Serves s) (more : List (Mailbox Message))
    (hboxes : i'.boxes = i.boxes ++ more) : i'.Serves s := by
  obtain ⟨box, hbox, hserves⟩ := h
  have hlt := (List.getElem?_eq_some_iff.mp hbox).1
  refine ⟨box, ?_, hserves⟩
  rw [hboxes, List.getElem?_append_left hlt]
  exact hbox

/-- A message of its own ECU may be put into the inbox of a session. -/
theorem Serves.post (h : i.Serves s) {m : Message} {ecu : EcuNo} {code : UInt8}
    (hid : m.id.heading = .ok (.firmware ecu code))
    (hown : i.inUse.get? ecu = some s.inbox → s.ecu = ecu) : (i.post ecu m).Serves s := by
  unfold Inboxes.post
  cases hused : i.inUse.get? ecu with
  | none => exact h
  | some n =>
    by_cases hn : s.inbox = n
    · obtain ⟨box, hbox, hopen, haddressed⟩ := h
      subst hn
      have hecu : s.ecu = ecu := hown hused
      refine ⟨box.post m, ?_, ?_, ?_⟩
      · simp [modify, hbox]
      · intro hholds
        have hsender : (box.post m).hasSender = box.hasSender := by
          unfold Mailbox.post
          split <;> rfl
        rw [hsender]
        exact hopen hholds
      · intro m' hm'
        rw [Mailbox.items_post] at hm'
        split at hm'
        case isTrue =>
          rcases List.mem_append.mp hm' with hold | hnew
          · exact haddressed m' hold
          · obtain rfl := List.mem_singleton.mp hnew
            rw [hecu]
            exact ⟨code, hid⟩
        case isFalse => exact haddressed m' hm'
    · exact h.of_modify hn rfl

/-- What is left in an inbox when a message was taken out. -/
theorem Serves.take (h : i.Serves s) {n : Nat} {m : Message}
    (htake : i.take? n = some (m, i')) : i'.Serves s := by
  simp only [take?, Option.bind_eq_bind, Option.bind_eq_some_iff] at htake
  obtain ⟨found, hfound, ⟨m', left⟩, hleft, hnext⟩ := htake
  cases hnext
  by_cases hn : s.inbox = n
  · obtain ⟨box, hbox, hopen, haddressed⟩ := h
    subst hn
    obtain rfl := Option.some.inj (hbox.symm.trans hfound)
    have hitems := Mailbox.items_take? hleft
    have hsender : left.hasSender = box.hasSender := by
      unfold Mailbox.take? at hleft
      split at hleft <;> cases hleft
      rfl
    refine ⟨left, ?_, ?_, ?_⟩
    · simp [modify, hbox]
    · intro hholds
      rw [hsender]
      exact hopen hholds
    · intro m' hm'
      apply haddressed
      rw [hitems]
      exact List.mem_cons_of_mem _ hm'
  · exact h.of_modify hn rfl

/-- A release does not change what is in the inboxes. -/
theorem Serves.release (h : i.Serves s) {ecu : EcuNo}
    (hother : i.inUse.get? ecu = some s.inbox → s.holds = false) : (i.release ecu).Serves s := by
  unfold Inboxes.release
  cases hused : i.inUse.get? ecu with
  | none => exact h
  | some n =>
    by_cases hn : s.inbox = n
    · obtain ⟨box, hbox, hopen, haddressed⟩ := h
      subst hn
      have hleft : s.holds = false := hother hused
      refine ⟨box.dropSender, ?_, ?_, haddressed⟩
      · simp [modify, hbox]
      · intro hholds
        rw [hleft] at hholds
        cases hholds
    · exact h.of_modify hn rfl

theorem inUse_post (i : Inboxes) (ecu : EcuNo) (m : Message) : (i.post ecu m).inUse = i.inUse := by
  unfold post
  split <;> rfl

theorem inUse_release_of_used {ecu : EcuNo} {n : Nat} (hused : i.inUse.get? ecu = some n) :
    (i.release ecu).inUse = i.inUse.erase ecu := by
  simp [release, hused]

end Inboxes

namespace Gateway

variable {σ : Type} {g g' : Gateway σ}

/-! ## Tenancy -/

/-- What holds of the sessions of a gateway and of the ECUs that they hold. -/
structure Housed (g : Gateway σ) : Prop where
  /-- The places in use are those of the sessions that hold an ECU. -/
  tenant : ∀ ecu inbox, g.inboxes.inUse.get? ecu = some inbox ↔
    ∃ (n : Nat) (s : Session), g.sessions[n]? = some s ∧ s.holds = true ∧ s.ecu = ecu ∧
      s.inbox = inbox
  /-- No two sessions have the same inbox. -/
  own : ∀ (n m : Nat) (s s' : Session), g.sessions[n]? = some s → g.sessions[m]? = some s' →
    s.inbox = s'.inbox → n = m
  updating : ∀ ecu inbox, g.inboxes.inUse.get? ecu = some inbox →
    g.registry.status? ecu = some .updating
  serves : ∀ (n : Nat) (s : Session), g.sessions[n]? = some s → g.inboxes.Serves s
  steady : ∀ (n : Nat) (s : Session), g.sessions[n]? = some s → s.Steady

/-- The session whose inbox is in use for an ECU holds that ECU. -/
theorem Housed.holds_of_place (h : g.Housed) {n : Nat} {s : Session} {ecu : EcuNo}
    (hs : g.sessions[n]? = some s) (hplace : g.inboxes.inUse.get? ecu = some s.inbox) :
    s.ecu = ecu ∧ s.holds = true := by
  obtain ⟨m, s', hs', hholds, hecu, hinbox⟩ := (h.tenant ecu s.inbox).mp hplace
  obtain rfl := h.own m n s' s hs' hs hinbox
  obtain rfl := Option.some.inj (hs'.symm.trans hs)
  exact ⟨hecu, hholds⟩

/-- An ECU is held by one session. -/
theorem Housed.alone (h : g.Housed) {n m : Nat} {s s' : Session} (hs : g.sessions[n]? = some s)
    (hs' : g.sessions[m]? = some s') (hholds : s.holds = true) (hholds' : s'.holds = true)
    (hecu : s.ecu = s'.ecu) : n = m := by
  have hplace := (h.tenant s.ecu s.inbox).mpr ⟨n, s, hs, hholds, rfl, rfl⟩
  have hplace' := (h.tenant s'.ecu s'.inbox).mpr ⟨m, s', hs', hholds', rfl, rfl⟩
  rw [hecu, hplace'] at hplace
  exact h.own n m s s' hs hs' (Option.some.inj hplace).symm

/-- A change that posts at most a message of an ECU into its inbox. -/
theorem Housed.of_untouched (h : g.Housed) (hsame : g.Untouched g')
    (hinUse : g'.inboxes.inUse = g.inboxes.inUse)
    (hserves : ∀ (n : Nat) (s : Session), g.sessions[n]? = some s → g'.inboxes.Serves s) :
    g'.Housed := by
  constructor
  case tenant =>
    rw [hinUse, hsame.sessions]
    exact h.tenant
  case own =>
    rw [hsame.sessions]
    exact h.own
  case updating =>
    rw [hinUse]
    exact fun ecu inbox hplace => (hsame.updating ecu).mpr (h.updating ecu inbox hplace)
  case serves =>
    rw [hsame.sessions]
    exact hserves
  case steady =>
    rw [hsame.sessions]
    exact h.steady

/-- The start of an update. -/
theorem Housed.start (h : g.Housed) {ecu : EcuNo} {image : String} {secure : Bool} {w : World σ}
    {s : Session} (hstart : g.toWorld.startUpdate g.firmware ecu image secure = .ok (w, s)) :
    Housed { g with toWorld := w, sessions := g.sessions ++ [s] } := by
  have hsteady := Session.steady_start hstart
  obtain ⟨record, hrecord, hfree, rfl, hs⟩ := World.startUpdate_parts hstart
  have hinbox : s.inbox = g.inboxes.boxes.length := by rw [hs]
  have hecu : s.ecu = ecu := by rw [hs]
  have hholds : s.holds = true := by rw [hs]; rfl
  -- The inboxes of the sessions before have lower numbers.
  have hlower (n : Nat) (s' : Session) (hs' : g.sessions[n]? = some s') :
      s'.inbox < g.inboxes.boxes.length := by
    obtain ⟨box, hbox, -⟩ := h.serves n s' hs'
    exact (List.getElem?_eq_some_iff.mp hbox).1
  constructor
  case tenant =>
    intro other inbox
    dsimp only
    constructor
    · intro hplace
      by_cases hsame : other = ecu
      · rw [hsame, Dictionary.get?_insert_self] at hplace
        refine ⟨g.sessions.length, s, by simp, hholds, hecu.trans hsame.symm, ?_⟩
        rw [hinbox]
        exact Option.some.inj hplace
      · rw [Dictionary.get?_insert_of_ne _ hsame] at hplace
        obtain ⟨n, s', hs', hheld⟩ := (h.tenant other inbox).mp hplace
        have hn := (List.getElem?_eq_some_iff.mp hs').1
        exact ⟨n, s', by rw [List.getElem?_append_left hn]; exact hs', hheld⟩
    · rintro ⟨n, s', hs', hheld, rfl, rfl⟩
      rcases getElem?_concat_cases hs' with hold | ⟨-, rfl⟩
      · have hplace := (h.tenant s'.ecu s'.inbox).mpr ⟨n, s', hold, hheld, rfl, rfl⟩
        have hsame : s'.ecu ≠ ecu := by
          intro hsame
          rw [hsame, hfree] at hplace
          cases hplace
        rw [Dictionary.get?_insert_of_ne _ hsame]
        exact hplace
      · rw [hecu, hinbox]
        exact Dictionary.get?_insert_self _ _ _
  case own =>
    intro n m s₁ s₂ hs₁ hs₂ hsame
    rcases getElem?_concat_cases hs₁ with hold | ⟨hn, rfl⟩
    · rcases getElem?_concat_cases hs₂ with hold' | ⟨-, rfl⟩
      · exact h.own n m s₁ s₂ hold hold' hsame
      · have hlt := hlower n s₁ hold
        omega
    · rcases getElem?_concat_cases hs₂ with hold' | ⟨hm, -⟩
      · have hlt := hlower m s₂ hold'
        omega
      · rw [hn, hm]
  case updating =>
    intro other inbox hplace
    dsimp only at hplace ⊢
    unfold Registry.status? Registry.setStatus
    rw [Registry.get?_modify]
    split
    case isTrue hsame =>
      subst hsame
      rw [hrecord]
      rfl
    case isFalse hother =>
      rw [Dictionary.get?_insert_of_ne _ (Ne.symm hother)] at hplace
      exact h.updating other inbox hplace
  case serves =>
    intro n s' hs'
    rcases getElem?_concat_cases hs' with hold | ⟨-, rfl⟩
    · exact (h.serves n s' hold).append _ rfl
    · refine ⟨{ depth := max g.firmware.sessionQueue 1 }, ?_, fun _ => rfl, ?_⟩
      · rw [hinbox]
        simp
      · intro m hm
        cases hm
  case steady =>
    intro n s' hs'
    rcases getElem?_concat_cases hs' with hold | ⟨-, rfl⟩
    · exact h.steady n s' hold
    · exact hsteady

theorem getElem?_set_cases {α : Type} {l : List α} {n m : Nat} {a b : α}
    (h : (l.set n a)[m]? = some b) : m = n ∧ b = a ∨ m ≠ n ∧ l[m]? = some b := by
  by_cases hm : n = m
  · subst hm
    rw [List.getElem?_set] at h
    simp only [if_true] at h
    split at h
    case isTrue => exact .inl ⟨rfl, (Option.some.inj h).symm⟩
    case isFalse => cases h
  · rw [List.getElem?_set_ne hm] at h
    exact .inr ⟨Ne.symm hm, h⟩

/-- A session keeps its inbox, and so the inboxes stay different. -/
theorem Housed.own_set (h : g.Housed) {n : Nat} {s s' : Session} (hs : g.sessions[n]? = some s)
    (hinbox : s'.inbox = s.inbox) (m k : Nat) (s₁ s₂ : Session)
    (hs₁ : (g.sessions.set n s')[m]? = some s₁) (hs₂ : (g.sessions.set n s')[k]? = some s₂)
    (hsame : s₁.inbox = s₂.inbox) : m = k := by
  rcases getElem?_set_cases hs₁ with ⟨rfl, rfl⟩ | ⟨-, hold⟩
  · rcases getElem?_set_cases hs₂ with ⟨rfl, -⟩ | ⟨-, hold'⟩
    · rfl
    · exact h.own _ k s s₂ hs hold' (hinbox.symm.trans hsame)
  · rcases getElem?_set_cases hs₂ with ⟨rfl, rfl⟩ | ⟨-, hold'⟩
    · exact h.own m _ s₁ s hold hs (hsame.trans hinbox)
    · exact h.own m k s₁ s₂ hold hold' hsame

theorem Housed.steady_set (h : g.Housed) {n : Nat} {s' : Session} (hsteady : s'.Steady) (m : Nat)
    (s₁ : Session) (hs₁ : (g.sessions.set n s')[m]? = some s₁) : s₁.Steady := by
  rcases getElem?_set_cases hs₁ with ⟨-, rfl⟩ | ⟨-, hold⟩
  · exact hsteady
  · exact h.steady m s₁ hold

/-- The step of a session that gives its ECU back. -/
theorem Housed.release (h : g.Housed) {n : Nat} {s : Session} (hs : g.sessions[n]? = some s)
    (hheld : s.holds = true) (hsteady : Session.Steady { s with doing := .released })
    {result : Except UpdateFault Unit} :
    Housed { g with
      registry := g.registry.modify s.ecu fun r => r.afterUpdate s.dialogue.progress s.prior result
      inboxes := g.inboxes.release s.ecu
      sessions := g.sessions.set n { s with doing := .released } } := by
  have hplace := (h.tenant s.ecu s.inbox).mpr ⟨n, s, hs, hheld, rfl, rfl⟩
  have hinUse : (g.inboxes.release s.ecu).inUse = g.inboxes.inUse.erase s.ecu :=
    Inboxes.inUse_release_of_used hplace
  constructor
  case tenant =>
    intro ecu inbox
    show (g.inboxes.release s.ecu).inUse.get? ecu = some inbox ↔ _
    rw [hinUse]
    by_cases hsame : ecu = s.ecu
    · -- Nobody else held the ECU, and so nobody holds it now.
      subst hsame
      rw [Dictionary.get?_erase_self]
      constructor
      · intro hnone
        cases hnone
      · rintro ⟨m, s₁, hs₁, hheld₁, hecu₁, -⟩
        rcases getElem?_set_cases hs₁ with ⟨-, rfl⟩ | ⟨hm, hold⟩
        · cases hheld₁
        · exact absurd (h.alone hold hs hheld₁ hheld hecu₁) hm
    · rw [Dictionary.get?_erase_of_ne _ hsame, h.tenant ecu inbox]
      constructor
      · rintro ⟨m, s₁, hs₁, hheld₁, hecu₁, hinbox₁⟩
        refine ⟨m, s₁, ?_, hheld₁, hecu₁, hinbox₁⟩
        rw [List.getElem?_set_ne]
        · exact hs₁
        · rintro rfl
          obtain rfl := Option.some.inj (hs₁.symm.trans hs)
          exact hsame hecu₁.symm
      · rintro ⟨m, s₁, hs₁, hheld₁, hecu₁, hinbox₁⟩
        rcases getElem?_set_cases hs₁ with ⟨-, rfl⟩ | ⟨-, hold⟩
        · cases hheld₁
        · exact ⟨m, s₁, hold, hheld₁, hecu₁, hinbox₁⟩
  case own => exact h.own_set hs rfl
  case updating =>
    intro ecu inbox hused
    change (g.inboxes.release s.ecu).inUse.get? ecu = some inbox at hused
    show (g.registry.modify s.ecu _).status? ecu = some .updating
    have hother : s.ecu ≠ ecu := by
      rintro rfl
      rw [hinUse, Dictionary.get?_erase_self] at hused
      cases hused
    rw [hinUse, Dictionary.get?_erase_of_ne _ (Ne.symm hother)] at hused
    unfold Registry.status?
    rw [Registry.get?_modify, if_neg hother]
    exact h.updating ecu inbox hused
  case serves =>
    intro m s₁ hs₁
    show (g.inboxes.release s.ecu).Serves s₁
    rcases getElem?_set_cases hs₁ with ⟨-, rfl⟩ | ⟨hm, hold⟩
    · apply Inboxes.Serves.release
      · exact (h.serves n s hs).of_same rfl rfl fun _ => hheld
      · exact fun _ => rfl
    · apply (h.serves m s₁ hold).release
      intro hused
      rw [hplace] at hused
      exact absurd (h.own n m s s₁ hs hold (Option.some.inj hused)) (Ne.symm hm)
  case steady => exact h.steady_set hsteady

/-- A step of a session that keeps what it holds, and takes at most a message. -/
theorem Housed.keep (h : g.Housed) {n : Nat} {s s' : Session} {w : World σ}
    (hs : g.sessions[n]? = some s) (hsteady : s'.Steady) (hecu : s'.ecu = s.ecu)
    (hinbox : s'.inbox = s.inbox) (hholds : s'.holds = s.holds)
    (hregistry : w.registry = g.registry)
    (hinboxes : w.inboxes = g.inboxes ∨ ∃ m, g.inboxes.take? s.inbox = some (m, w.inboxes)) :
    Housed { g with toWorld := w, sessions := g.sessions.set n s' } := by
  have hn := (List.getElem?_eq_some_iff.mp hs).1
  have hinUse : w.inboxes.inUse = g.inboxes.inUse := by
    rcases hinboxes with hsame | ⟨m, htake⟩
    · rw [hsame]
    · exact Inboxes.inUse_of_take? htake
  have hstill (s₁ : Session) (h₁ : g.inboxes.Serves s₁) : w.inboxes.Serves s₁ := by
    rcases hinboxes with hsame | ⟨m, htake⟩
    · rw [hsame]
      exact h₁
    · exact h₁.take htake
  constructor
  case tenant =>
    intro ecu inbox
    show w.inboxes.inUse.get? ecu = some inbox ↔ _
    rw [hinUse, h.tenant ecu inbox]
    constructor
    · rintro ⟨m, s₁, hs₁, hheld₁, hecu₁, hinbox₁⟩
      by_cases hm : n = m
      · subst hm
        obtain rfl := Option.some.inj (hs₁.symm.trans hs)
        exact ⟨n, s', List.getElem?_set_self hn, hholds.trans hheld₁, hecu.trans hecu₁,
          hinbox.trans hinbox₁⟩
      · exact ⟨m, s₁, by rw [List.getElem?_set_ne hm]; exact hs₁, hheld₁, hecu₁, hinbox₁⟩
    · rintro ⟨m, s₁, hs₁, hheld₁, hecu₁, hinbox₁⟩
      rcases getElem?_set_cases hs₁ with ⟨rfl, rfl⟩ | ⟨-, hold⟩
      · exact ⟨m, s, hs, hholds.symm.trans hheld₁, hecu.symm.trans hecu₁,
          hinbox.symm.trans hinbox₁⟩
      · exact ⟨m, s₁, hold, hheld₁, hecu₁, hinbox₁⟩
  case own => exact h.own_set hs hinbox
  case updating =>
    intro ecu inbox hused
    change w.inboxes.inUse.get? ecu = some inbox at hused
    rw [hinUse] at hused
    show w.registry.status? ecu = some .updating
    rw [hregistry]
    exact h.updating ecu inbox hused
  case serves =>
    intro m s₁ hs₁
    rcases getElem?_set_cases hs₁ with ⟨-, rfl⟩ | ⟨-, hold⟩
    · exact (hstill s (h.serves n s hs)).of_same hinbox hecu fun hheld => hholds.symm.trans hheld
    · exact hstill s₁ (h.serves m s₁ hold)
  case steady => exact h.steady_set hsteady

variable [Storage σ]

/-- A step of a session. -/
theorem Housed.session (h : g.Housed) {n : Nat} {s s' : Session} {w : World σ}
    (hs : g.sessions[n]? = some s) (hstep : s.step? g.firmware g.toWorld = some (w, s')) :
    Housed { g with toWorld := w, sessions := g.sessions.set n s' } := by
  have hkeeps := Session.step?_keeps hstep
  have hecu : s'.ecu = s.ecu := by rw [hkeeps]
  have hinbox : s'.inbox = s.inbox := by rw [hkeeps]
  have hsteady : s'.Steady :=
    (h.steady n s hs).step hstep fun hholds => (h.serves n s hs).not_finished hholds
  rcases Session.step?_inboxes hstep with
    ⟨result, hready, -, hrelease⟩ | ⟨hregistry, hholds, hinboxes⟩
  · obtain ⟨rfl, rfl⟩ := Prod.mk.inj hrelease
    exact h.release hs (by simp [Session.holds, hready]) hsteady
  · exact h.keep hs hsteady hecu hinbox hholds hregistry hinboxes

/-- Whatever happens keeps the invariant, unless the gateway is started again. -/
theorem Housed.of_dealing (h : g.Housed) {event : Happening σ} (hdealing : Dealing g event g') :
    g'.Housed := by
  cases hdealing with
  | aside hsame hinboxes =>
    refine h.of_untouched hsame (by rw [hinboxes]) ?_
    rw [hinboxes]
    exact h.serves
  | post hid hsame hinboxes =>
    refine h.of_untouched hsame (by rw [hinboxes, Inboxes.inUse_post]) ?_
    intro n s hs
    rw [hinboxes]
    exact (h.serves n s hs).post hid fun hplace => (h.holds_of_place hs hplace).1
  | start hstart => exact h.start hstart
  | session hs hstep => exact h.session hs hstep

omit [Storage σ] in
/-- A gateway without sessions. -/
theorem housed_of_nil (hsessions : g.sessions = []) (hinboxes : g.inboxes.inUse = ∅) :
    g.Housed := by
  have hnone (n : Nat) (s : Session) : g.sessions[n]? ≠ some s := by simp [hsessions]
  constructor
  case tenant =>
    intro ecu inbox
    rw [hinboxes, Dictionary.get?_empty]
    constructor
    · intro hplace
      cases hplace
    · rintro ⟨n, s, hs, -⟩
      exact absurd hs (hnone n s)
  case own => exact fun n m s s' hs => absurd hs (hnone n s)
  case updating =>
    intro ecu inbox hplace
    rw [hinboxes, Dictionary.get?_empty] at hplace
    cases hplace
  case serves => exact fun n s hs => absurd hs (hnone n s)
  case steady => exact fun n s hs => absurd hs (hnone n s)

theorem housed_start {c : Config} {now : Nat} {bus : Bus} {storage : σ} {keys : Option Vault}
    (h : Gateway.start c now bus storage keys = .ok g) : g.Housed := by
  apply housed_of_nil (start_eq h).2
  unfold Gateway.start at h
  split at h
  case h_1 => cases h
  case h_2 => cases h
  case h_3 =>
    obtain rfl := Except.ok.inj h
    rfl

end Gateway

/-! ## The end of a tenancy -/

/-- How a session comes to its end: it gives its ECU back, then stores the record, then closes. -/
theorem Session.step?_closing {σ : Type} [Storage σ] {c : FirmwareConfig} {w w' : World σ}
    {s s' : Session} (h : s.step? c w = some (w', s')) :
    s'.holds = true ∨
      (∃ result, s.doing = .ready ∧ s.dialogue.phase = .ended result ∧
        (w', s') = s.release w result) ∨
      (s.doing = .released ∧ w' = w.persist s.ecu ∧ s' = { s with doing := .stored }) ∨
      (s.doing = .stored ∧ s' = { s with doing := .closed }) := by
  cases step?_cases h with
  | turn wish hdoing hwish => exact .inl (holds_turnTo c w s wish)
  | release result hdoing hended => exact .inr (.inl ⟨result, hdoing, hended, rfl⟩)
  | persist hdoing => exact .inr (.inr (.inl ⟨hdoing, rfl, rfl⟩))
  | close hdoing => exact .inr (.inr (.inr ⟨hdoing, rfl⟩))
  | land hdoing => exact .inl (by simp [holds, tell])
  | outcome hdoing => exact .inl (by simp [holds, tell])
  | carry hdoing => exact .inl (by simp [holds, hdoing])
  | take hdoing htake =>
    refine .inl ?_
    split
    case isTrue => simp [holds, tell]
    case isFalse => simp [holds, hdoing]
  | miss hdoing => exact .inl (by simp [holds, tell])

namespace Gateway

variable {σ : Type} {g g' : Gateway σ}

/-- The step with which a session writes the status of its ECU, and with which the ECU is not in use
any more. -/
structure Leaves (g g' : Gateway σ) (n : Nat) (s : Session) : Prop where
  found : g.sessions[n]? = some s ∧ s.holds = true
  left : ∃ s', g'.sessions[n]? = some s' ∧ s'.holds = false
  place : g.inboxes.inUse.get? s.ecu = some s.inbox
  gone : g'.inboxes.inUse.get? s.ecu = none
  written : ∃ result, s.dialogue.result? = some result ∧
    g'.registry.get? s.ecu = (g.registry.get? s.ecu).map fun r =>
      r.afterUpdate s.dialogue.progress s.prior result

/-- The release of an ECU is such a step. -/
theorem Housed.leaves (h : g.Housed) {n : Nat} {s : Session} (hs : g.sessions[n]? = some s)
    (hheld : s.holds = true) {result : Except UpdateFault Unit}
    (hended : s.dialogue.phase = .ended result) :
    g.Leaves { g with
      toWorld := (s.release g.toWorld result).1
      sessions := g.sessions.set n (s.release g.toWorld result).2 } n s := by
  have hplace := (h.tenant s.ecu s.inbox).mpr ⟨n, s, hs, hheld, rfl, rfl⟩
  have hn := (List.getElem?_eq_some_iff.mp hs).1
  refine ⟨⟨hs, hheld⟩, ⟨_, List.getElem?_set_self hn, rfl⟩, hplace, ?_, result, ?_, ?_⟩
  · show (g.inboxes.release s.ecu).inUse.get? s.ecu = none
    rw [Inboxes.inUse_release_of_used hplace]
    exact Dictionary.get?_erase_self _ _
  · simp [Dialogue.result?, hended]
  · show (g.registry.modify s.ecu _).get? s.ecu = _
    rw [Registry.get?_modify, if_pos rfl]

variable [Storage σ]

/-- A session that holds an ECU still holds it whatever happens, or it is the step with which it
leaves. -/
theorem Housed.stays_or_leaves (h : g.Housed) {event : Happening σ} (hdealing : Dealing g event g')
    {n : Nat} {s : Session} (hs : g.sessions[n]? = some s) (hheld : s.holds = true) :
    (∃ s', g'.sessions[n]? = some s' ∧ s'.ecu = s.ecu ∧ s'.holds = true ∧
      g'.inboxes.inUse.get? s.ecu = some s.inbox) ∨
      event = .deed (.move (.session n)) ∧ g.Leaves g' n s := by
  have hplace := (h.tenant s.ecu s.inbox).mpr ⟨n, s, hs, hheld, rfl, rfl⟩
  have hn := (List.getElem?_eq_some_iff.mp hs).1
  cases hdealing with
  | aside hsame hinboxes =>
    refine .inl ⟨s, ?_, rfl, hheld, ?_⟩
    · rw [hsame.sessions]
      exact hs
    · rw [hinboxes]
      exact hplace
  | post hid hsame hinboxes =>
    refine .inl ⟨s, ?_, rfl, hheld, ?_⟩
    · rw [hsame.sessions]
      exact hs
    · rw [hinboxes, Inboxes.inUse_post]
      exact hplace
  | @start ecu image secure w new hstart =>
    have hnext := (h.start hstart).tenant s.ecu s.inbox
    have hstill : (g.sessions ++ [new])[n]? = some s := by
      rw [List.getElem?_append_left hn]
      exact hs
    exact .inl ⟨s, hstill, rfl, hheld, hnext.mpr ⟨n, s, hstill, hheld, rfl, rfl⟩⟩
  | @session m s₁ s' w hs₁ hstep =>
    by_cases hm : m = n
    · subst hm
      obtain rfl := Option.some.inj (hs₁.symm.trans hs)
      have hkeeps := Session.step?_keeps hstep
      have hecu : s'.ecu = s₁.ecu := by rw [hkeeps]
      have hinbox : s'.inbox = s₁.inbox := by rw [hkeeps]
      rcases Session.step?_inboxes hstep with
        ⟨result, hready, hended, hrelease⟩ | ⟨-, hholds, -⟩
      · obtain ⟨rfl, rfl⟩ := Prod.mk.inj hrelease
        exact .inr ⟨rfl, h.leaves hs hheld hended⟩
      · have hheld' : s'.holds = true := hholds.trans hheld
        have hstill : (g.sessions.set m s')[m]? = some s' := List.getElem?_set_self hn
        refine .inl ⟨s', hstill, hecu, hheld', ?_⟩
        rw [← hecu, ← hinbox]
        exact ((h.session hs hstep).tenant s'.ecu s'.inbox).mpr ⟨m, s', hstill, hheld', rfl, rfl⟩
    · have hstill : (g.sessions.set m s')[n]? = some s := by
        rw [List.getElem?_set_ne hm]
        exact hs
      exact .inl ⟨s, hstill, rfl, hheld,
        ((h.session hs₁ hstep).tenant s.ecu s.inbox).mpr ⟨n, s, hstill, hheld, rfl, rfl⟩⟩

/-! ## Runs -/

variable {c : Config} {events : List (Happening σ)}

/-- A gateway after so many of some happenings. -/
def moment (c : Config) (g : Gateway σ) (events : List (Happening σ)) (k : Nat) : Gateway σ :=
  (events.take k).foldl (meet c) g

theorem moment_zero (c : Config) (g : Gateway σ) (events : List (Happening σ)) :
    g.moment c events 0 = g := rfl

theorem moment_succ {k : Nat} {event : Happening σ} (hevent : events[k]? = some event) :
    g.moment c events (k + 1) = (g.moment c events k).meet c event := by
  rw [moment, List.take_add_one, hevent, List.foldl_append]
  rfl

/-- Nothing happens after the last happening. -/
theorem moment_of_none {k : Nat} (hevent : events[k]? = none) :
    g.moment c events (k + 1) = g.moment c events k := by
  rw [moment, moment, List.take_add_one, hevent]
  simp

/-- What holds at first, and is kept whatever happens, holds at every moment. -/
theorem moment_induction {P : Gateway σ → Prop} (h : P g)
    (hkept : ∀ g' event, event ∈ events → P g' → P (g'.meet c event)) (k : Nat) :
    P (g.moment c events k) := by
  induction k with
  | zero => exact h
  | succ k ih =>
    cases hevent : events[k]? with
    | none =>
      rw [moment_of_none hevent]
      exact ih
    | some event =>
      rw [moment_succ hevent]
      exact hkept _ event (List.mem_of_getElem? hevent) ih

omit [Storage σ] in
theorem ne_restart_of_mem (hgoes : ∀ now bus keys, .deed (.restart now bus keys) ∉ events)
    {event : Happening σ} (hmem : event ∈ events) (now : Nat) (bus : Bus) (keys : Option Vault) :
    event ≠ .deed (.restart now bus keys) := by
  rintro rfl
  exact hgoes now bus keys hmem

/-- Between one moment and the next there is one dealing, until nothing happens any more. -/
theorem moment_cases (hgoes : ∀ now bus keys, .deed (.restart now bus keys) ∉ events) (k : Nat) :
    (∃ event, events[k]? = some event ∧
      Dealing (g.moment c events k) event (g.moment c events (k + 1))) ∨
      events[k]? = none ∧ g.moment c events (k + 1) = g.moment c events k := by
  cases hevent : events[k]? with
  | none => exact .inr ⟨rfl, moment_of_none hevent⟩
  | some event =>
    refine .inl ⟨event, rfl, ?_⟩
    rw [moment_succ hevent]
    exact meet_dealing c _ event (ne_restart_of_mem hgoes (List.mem_of_getElem? hevent))

/-- The configuration of updates never changes. -/
theorem firmware_moment (hgoes : ∀ now bus keys, .deed (.restart now bus keys) ∉ events) (k : Nat) :
    (g.moment c events k).firmware = g.firmware := by
  refine moment_induction (P := fun g' => g'.firmware = g.firmware) rfl ?_ k
  intro g' event hmem hsame
  have hdealing := meet_dealing c g' event (ne_restart_of_mem hgoes hmem)
  generalize g'.meet c event = left at hdealing ⊢
  cases hdealing with
  | aside huntouched | post _ huntouched => exact huntouched.firmware.trans hsame
  | start | session => exact hsame

theorem Housed.moment (h : g.Housed)
    (hgoes : ∀ now bus keys, .deed (.restart now bus keys) ∉ events) (k : Nat) :
    (g.moment c events k).Housed := by
  refine moment_induction h ?_ k
  intro g' event hmem hhoused
  exact hhoused.of_dealing (meet_dealing c g' event (ne_restart_of_mem hgoes hmem))

/-- A session has left at some earlier moment, with the result that it has now. -/
def HasLeft (c : Config) (g : Gateway σ) (events : List (Happening σ)) (n i : Nat) (s : Session) :
    Prop :=
  events[i]? = some (.deed (.move (.session n))) ∧
    (g.moment c events i).Leaves (g.moment c events (i + 1)) n { s with doing := .ready }

/-- A session has tried to store the record of its ECU at some earlier moment. -/
def HasStored (c : Config) (g : Gateway σ) (events : List (Happening σ)) (n j : Nat) (s : Session) :
    Prop :=
  events[j]? = some (.deed (.move (.session n))) ∧
    (g.moment c events (j + 1)).toWorld = (g.moment c events j).toWorld.persist s.ecu

/-- What a session that does not hold its ECU any more has done before, in order. -/
def Past (c : Config) (g : Gateway σ) (events : List (Happening σ)) (n k : Nat) (s : Session) :
    Prop :=
  match s.doing with
  | .released => ∃ i, i < k ∧ HasLeft c g events n i s
  | .stored | .closed =>
    ∃ i j, i < j ∧ j < k ∧ HasLeft c g events n i s ∧ HasStored c g events n j s
  | _ => True

theorem Past.later {n k : Nat} {s : Session} (h : Past c g events n k s) :
    Past c g events n (k + 1) s := by
  unfold Past at h ⊢
  split at h
  case h_1 =>
    obtain ⟨i, hi, hleft⟩ := h
    exact ⟨i, by omega, hleft⟩
  case h_2 =>
    obtain ⟨i, j, hij, hj, hboth⟩ := h
    exact ⟨i, j, hij, by omega, hboth⟩
  case h_3 =>
    obtain ⟨i, j, hij, hj, hboth⟩ := h
    exact ⟨i, j, hij, by omega, hboth⟩
  case h_4 => trivial

theorem past_of_holds {n k : Nat} {s : Session} (h : s.holds = true) :
    Past c g events n k s := by
  unfold Past
  unfold Session.holds at h
  cases hdoing : s.doing <;> simp [hdoing] at h ⊢

/-- A session that has come to its end step by step was there at each of the steps. -/
theorem Housed.past (h : g.Housed) (hnone : g.sessions = [])
    (hgoes : ∀ now bus keys, .deed (.restart now bus keys) ∉ events) (k n : Nat) (s : Session)
    (hs : (g.moment c events k).sessions[n]? = some s) : Past c g events n k s := by
  induction k generalizing n s with
  | zero =>
    rw [moment_zero, hnone] at hs
    cases hs
  | succ k ih =>
    have hhoused : (g.moment c events k).Housed := h.moment hgoes k
    rcases moment_cases (c := c) (g := g) hgoes k with ⟨event, hevent, hdealing⟩ | ⟨-, hsame⟩
    case inr =>
      rw [hsame] at hs
      exact (ih n s hs).later
    generalize hnext : g.moment c events (k + 1) = g' at hs hdealing
    cases hdealing with
    | aside hsame | post _ hsame =>
      rw [hsame.sessions] at hs
      exact (ih n s hs).later
    | @start ecu image secure w new hstart =>
      rcases getElem?_concat_cases hs with hold | ⟨-, rfl⟩
      · exact (ih n s hold).later
      · obtain ⟨record, -, -, -, hnew⟩ := World.startUpdate_parts hstart
        apply past_of_holds
        rw [hnew]
        rfl
    | @session m s₁ s' w hs₁ hstep =>
      rcases getElem?_set_cases hs with ⟨rfl, rfl⟩ | ⟨-, hold⟩
      case inr => exact (ih n s hold).later
      have hkeeps := Session.step?_keeps hstep
      have hecu : s.ecu = s₁.ecu := by rw [hkeeps]
      rcases Session.step?_closing hstep with
        hholds | ⟨result, hready, hended, hrelease⟩ | ⟨hreleased, rfl, rfl⟩ | ⟨hstored, rfl⟩
      · exact past_of_holds hholds
      · obtain ⟨rfl, rfl⟩ := Prod.mk.inj hrelease
        have hleaves := hhoused.leaves hs₁ (by simp [Session.holds, hready]) hended
        have hsame : { s₁ with doing := .ready } = s₁ := by rw [← hready]
        refine ⟨k, by omega, hevent, ?_⟩
        rw [hnext]
        show Leaves _ _ n { s₁ with doing := .ready }
        rw [hsame]
        exact hleaves
      · have hpast := ih n s₁ hs₁
        unfold Past at hpast
        simp only [hreleased] at hpast
        obtain ⟨i, hi, hleft⟩ := hpast
        refine ⟨i, k, hi, by omega, hleft, hevent, ?_⟩
        rw [hnext]
      · have hpast := ih n s₁ hs₁
        unfold Past at hpast
        simp only [hstored] at hpast
        obtain ⟨i, j, hij, hj, hboth⟩ := hpast
        exact ⟨i, j, hij, by omega, hboth⟩

/-- What is said of the tenancies at one moment. -/
structure Tenancies (g : Gateway σ) : Prop where
  /-- An ECU is held by one session at most. -/
  alone : ∀ (n m : Nat) (s s' : Session), g.sessions[n]? = some s → g.sessions[m]? = some s' →
    s.holds = true → s'.holds = true → s.ecu = s'.ecu → n = m
  /-- The inbox in use for an ECU is that of the session that holds the ECU. -/
  place : ∀ ecu inbox, g.inboxes.inUse.get? ecu = some inbox ↔
    ∃ (n : Nat) (s : Session), g.sessions[n]? = some s ∧ s.holds = true ∧ s.ecu = ecu ∧
      s.inbox = inbox
  /-- No other session has that inbox. -/
  own : ∀ (n m : Nat) (s s' : Session), g.sessions[n]? = some s → g.sessions[m]? = some s' →
    s.inbox = s'.inbox → n = m
  updating : ∀ ecu inbox, g.inboxes.inUse.get? ecu = some inbox →
    g.registry.status? ecu = some .updating
  /-- In the inbox of a session there are messages of its ECU only. -/
  addressed : ∀ (n : Nat) (s : Session), g.sessions[n]? = some s →
    ∀ m ∈ g.inboxes.items s.inbox, ∃ code, m.id.heading = .ok (.firmware s.ecu code)
  /-- No session fails because its inbox was shut. -/
  unshut : ∀ (n : Nat) (s : Session), g.sessions[n]? = some s →
    s.dialogue.result? ≠ some (.error .inboxClosed)

omit [Storage σ] in
theorem Housed.tenancies (h : g.Housed) : g.Tenancies := by
  constructor
  case alone => exact fun n m s s' hs hs' hheld hheld' hecu => h.alone hs hs' hheld hheld' hecu
  case place => exact h.tenant
  case own => exact h.own
  case updating => exact h.updating
  case addressed =>
    intro n s hs m hm
    obtain ⟨box, hbox, -, haddressed⟩ := h.serves n s hs
    unfold Inboxes.items at hm
    rw [hbox] at hm
    exact haddressed m hm
  case unshut => exact fun n s hs => (h.steady n s hs).result

/-- At every moment of a run the ECUs are held as `Tenancies` says.  A session that holds an ECU
holds it at the next moment too, or its step comes with which it writes the status of the ECU and
with which the ECU is not in use any more.  And a session that shows its end has left and has tried
to store the record before, one after the other. -/
theorem tenancy_kept {now : Nat} {bus : Bus} {storage : σ} {keys : Option Vault}
    (hstart : Gateway.start c now bus storage keys = .ok g)
    (hgoes : ∀ now bus keys, .deed (.restart now bus keys) ∉ events) (k : Nat) :
    (g.moment c events k).Tenancies ∧
      (∀ (n : Nat) (s : Session), (g.moment c events k).sessions[n]? = some s → s.holds = true →
        (∃ s', (g.moment c events (k + 1)).sessions[n]? = some s' ∧ s'.ecu = s.ecu ∧
          s'.holds = true ∧
          (g.moment c events (k + 1)).inboxes.inUse.get? s.ecu = some s.inbox) ∨
        events[k]? = some (.deed (.move (.session n))) ∧
          (g.moment c events k).Leaves (g.moment c events (k + 1)) n s) ∧
      ∀ (n : Nat) (s : Session), (g.moment c events k).sessions[n]? = some s →
        s.stage.terminal = true ∨ s.report?.isSome = true →
        ∃ i j, i < j ∧ j < k ∧ HasLeft c g events n i s ∧ HasStored c g events n j s := by
  have hhoused := housed_start hstart
  have hthen : (g.moment c events k).Housed := hhoused.moment hgoes k
  refine ⟨hthen.tenancies, ?_, ?_⟩
  · intro n s hs hheld
    rcases moment_cases (c := c) (g := g) hgoes k with ⟨event, hevent, hdealing⟩ | ⟨-, hsame⟩
    · rcases hthen.stays_or_leaves hdealing hs hheld with hstays | ⟨rfl, hleaves⟩
      · exact .inl hstays
      · exact .inr ⟨hevent, hleaves⟩
    · rw [hsame]
      exact .inl ⟨s, hs, rfl, hheld, (hthen.tenant s.ecu s.inbox).mpr ⟨n, s, hs, hheld, rfl, rfl⟩⟩
  · intro n s hs hshown
    have hclosed := (hthen.steady n s hs).closed hshown
    have hpast := hhoused.past (start_eq hstart).2 hgoes k n s hs
    unfold Past at hpast
    simp only [hclosed] at hpast
    exact hpast

/-- An update on a bus that is not connected, and all steps of its session. -/
def lostEvents : List (Happening Memory) :=
  .deed (.startUpdate 0 "image" false) :: List.replicate 5 (.deed (.move (.session 0)))

/-- What its session shows after them. -/
def lostShown : Option (Option Stage) :=
  match Gateway.start singleConfig 0 { interfaces := 4, connected := false } ({} : Memory) none with
  | .ok g => some ((g.moment singleConfig lostEvents 6).sessions[0]?.map Session.stage)
  | .error _ => none

/-- The session shows that it has failed, and so it has left before, and has tried to store the
record. -/
theorem lost_update_left :
    ∃ g, Gateway.start singleConfig 0 { interfaces := 4, connected := false } ({} : Memory) none =
        .ok g ∧
      (∀ now bus keys, .deed (.restart now bus keys) ∉ lostEvents) ∧
      ∃ s, (g.moment singleConfig lostEvents 6).sessions[0]? = some s ∧ s.stage = .failed ∧
        ∃ i j, i < j ∧ j < 6 ∧ HasLeft singleConfig g lostEvents 0 i s ∧
          HasStored singleConfig g lostEvents 0 j s := by
  have hshown : lostShown = some (some .failed) := by decide +kernel
  unfold lostShown at hshown
  split at hshown
  case h_2 => cases hshown
  case h_1 g hstart =>
    have hgoes : ∀ now bus keys, .deed (.restart now bus keys) ∉ lostEvents := by simp [lostEvents]
    obtain ⟨s, hs, hstage⟩ := Option.map_eq_some_iff.mp (Option.some.inj hshown)
    obtain ⟨-, -, hends⟩ := tenancy_kept hstart hgoes 6
    have hterminal : s.stage.terminal = true := by rw [hstage]; rfl
    exact ⟨g, hstart, hgoes, s, hs, hstage, hends 0 s hs (.inl hterminal)⟩

end Gateway
end VehicleGateway
