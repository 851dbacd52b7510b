import VehicleGateway.Proofs.Gateway.Tenancy
import VehicleGateway.Proofs.Gateway.Traffic
import VehicleGateway.Proofs.Update.Ending

/-!
# Who sends what

The router, the heartbeat and the errands share the bus with the sessions.  They send data and
commands; the frames of updates come from sessions alone.

* `Frame.Plain` frames belong to no update.  `Apart` says that all that is under way, for whoever is
  not a session, is plain, and `Apart.meet` that it stays so.
* `sentAt` is what the parts of a gateway put on the bus at one happening, and `sent` what they put
  there in a stretch of a run.  `plain_sentAt` says that it is plain unless a session has its turn.

What others put on the same bus is not counted.
-/

namespace VehicleGateway

/-- The frames that are new in the record of a bus, the first one first. -/
def Bus.added (found left : Bus) : List Frame :=
  ((left.record.take (left.record.length - found.record.length)).reverse).map (·.2)

@[simp] theorem Bus.added_self (b : Bus) : b.added b = [] := by
  simp [added]

/-- A frame that belongs to no update. -/
def Frame.Plain (f : Frame) : Prop :=
  ∀ ecu, f.isUpdate ecu = false

/-- The identifier of a data message does not name an update. -/
theorem Frame.plain_of_data {f : Frame} {index : Nat} (h : f.heading = .ok (.data index)) :
    f.Plain := by
  intro ecu
  simp [isUpdate, h]

theorem Frame.plain_of_command {f : Frame} {ecu : EcuNo} {code : UInt8}
    (h : f.heading = .ok (.command ecu code)) : f.Plain := by
  intro other
  simp [isUpdate, h]

/-! ## What is under way -/

/-- A message on its way is data, and so is what is transmitted of it. -/
def Forwarding.Plain (f : Forwarding) : Prop :=
  (∃ index, f.id.heading = .ok (.data index)) ∧
    ∀ flight, f.flight = some flight → flight.frame.Plain

def Round.Plain (r : Round) : Prop :=
  ∀ flight, r.flight = some flight → flight.frame.Plain

def Errand.Plain : Errand → Prop
  | .requesting flight => flight.frame.Plain
  | .polling round => round.Plain
  | .forwarding f => f.Plain
  | .routing _ | .ended _ => True

section

variable {σ : Type} {w w' : World σ}

/-- A transmission puts no other frame on the bus than its own. -/
theorem plain_of_land {flight : Flight} {sent : Sent} (hplain : flight.frame.Plain)
    (h : w.land? flight = some (w', sent)) : ∀ f ∈ w.bus.added w'.bus, f.Plain := by
  rcases World.land_cases h with ⟨-, -, -, rfl⟩ | ⟨-, -, rfl, -⟩
  · simpa [Bus.added, Bus.transmit] using hplain
  · simp

theorem Forwarding.Plain.next {f f' : Forwarding} {timeout : Nat} (h : f.Plain)
    (hnext : f.next w timeout = .goesOn w' f') :
    f'.Plain ∧ ∀ f ∈ w.bus.added w'.bus, f.Plain := by
  obtain ⟨⟨index, hid⟩, hflight⟩ := h
  cases Forwarding.next_cases hnext with
  | @lands flight _ sent hflying hland =>
    refine ⟨⟨⟨index, ?_⟩, ?_⟩, plain_of_land (hflight flight hflying) hland⟩
    · cases sent <;> exact hid
    · cases sent <;> simp [Forwarding.tally]
  | @visits ecu rest hflying hrest =>
    refine ⟨⟨⟨index, ?_⟩, ?_⟩, by simp⟩
    · rw [Gateway.visit_keeps]
      exact hid
    · intro flight htaken
      have hnone : Forwarding.flight { f with rest } = none := hflying
      obtain ⟨interface, hframe⟩ := Gateway.frame_of_visit hnone htaken
      rw [hframe]
      exact Frame.plain_of_data hid

/-- What is asked of an ECU is a command. -/
theorem plain_of_request {timeout : Nat} {ecu : EcuNo} {o : Opcode} {flight : Flight}
    (h : Supervisor.request w timeout ecu o = .ok flight) : flight.frame.Plain := by
  unfold Supervisor.request at h
  cases hrecord : w.registry.get ecu with
  | error failure => simp [hrecord] at h
  | ok record =>
    simp only [hrecord] at h
    cases hlaunch : w.launch timeout (Supervisor.requestFrame record ecu o) with
    | error fault => simp [hlaunch] at h
    | ok taken =>
      simp only [hlaunch, Except.ok.injEq] at h
      subst h
      rw [Session.frame_of_launch hlaunch]
      exact Frame.plain_of_command (Identifier.heading_command ecu o.code)

theorem Round.plain_ask {t : RoundTerms} (w : World σ) (r : Round) (ecu : EcuNo) :
    (r.ask t w ecu).Plain := by
  intro flight htaken
  unfold Round.ask at htaken
  split at htaken
  case h_1 asked hrequest =>
    obtain rfl := Option.some.inj htaken
    exact plain_of_request hrequest
  case h_2 => cases htaken

theorem Round.Plain.next {r r' : Round} {t : RoundTerms} (h : r.Plain)
    (hnext : r.next t w = .goesOn w' r') : r'.Plain ∧ ∀ f ∈ w.bus.added w'.bus, f.Plain := by
  cases Round.next_cases hnext with
  | lands hflying hland =>
    refine ⟨?_, plain_of_land (h _ hflying) hland⟩
    intro other hother
    cases hother
  | asks => exact ⟨Round.plain_ask w r _, by simp⟩
  | pauses | skips => exact ⟨fun flight htaken => h flight htaken, by simp⟩

end

namespace Gateway

variable {σ : Type} {g g' : Gateway σ}

/-- All that is under way, for whoever is not a session, belongs to no update. -/
structure Apart (g : Gateway σ) : Prop where
  forwarding : ∀ f, g.forwarding = some f → f.Plain
  errand : ∀ e, g.errand = some e → e.Plain
  heartbeat : ∀ h round, g.heartbeat = some h → h.round = some round → round.Plain

/-- A change of other things. -/
theorem Apart.of_same (h : g.Apart) (hforwarding : g'.forwarding = g.forwarding)
    (herrand : g'.errand = g.errand) (hheartbeat : g'.heartbeat = g.heartbeat) : g'.Apart := by
  constructor
  case forwarding => rw [hforwarding]; exact h.forwarding
  case errand => rw [herrand]; exact h.errand
  case heartbeat => rw [hheartbeat]; exact h.heartbeat

theorem submit_keeps (g : Gateway σ) (m : Message) :
    (g.submit m).1.toWorld = g.toWorld ∧ (g.submit m).1.forwarding = g.forwarding ∧
      (g.submit m).1.errand = g.errand ∧ (g.submit m).1.heartbeat = g.heartbeat := by
  unfold submit
  split <;> exact ⟨rfl, rfl, rfl, rfl⟩

/-- A message that is taken up stays where it is, or is data on its way. -/
theorem takeUp_keeps (g : Gateway σ) (m : Message) :
    ((g.takeUp m).1.bus = g.bus ∧ (g.takeUp m).1.registry = g.registry) ∧
      (g.takeUp m).1.forwarding = g.forwarding ∧ (g.takeUp m).1.errand = g.errand ∧
      (g.takeUp m).1.heartbeat = g.heartbeat ∧ ∀ f, (g.takeUp m).2 = .inr f → f.Plain := by
  unfold takeUp
  cases hpath : Router.path g.routes g.toWorld g.tray m with
  | forwarding f =>
    refine ⟨⟨rfl, rfl⟩, rfl, rfl, rfl, ?_⟩
    intro f' hf'
    obtain rfl := Sum.inr.inj hf'
    obtain ⟨index, route, hid, -, -, rfl⟩ := route_of_forwarding hpath
    refine ⟨⟨index, hid⟩, ?_⟩
    intro flight hflight
    cases hflight
  | settled w tray d =>
    have hworld : w.bus = g.bus ∧ w.registry = g.registry := by
      unfold Router.path at hpath
      split at hpath
      case h_1 =>
        cases hpath
        exact ⟨rfl, rfl⟩
      case h_2 =>
        split at hpath
        case h_1 =>
          cases hpath
          exact ⟨rfl, rfl⟩
        case h_2 =>
          split at hpath <;> cases hpath
          exact ⟨rfl, rfl⟩
      case h_3 =>
        split at hpath <;> (cases hpath; exact ⟨rfl, rfl⟩)
      case h_4 =>
        cases hpath
        exact ⟨rfl, rfl⟩
    refine ⟨hworld, rfl, rfl, rfl, ?_⟩
    intro f hf
    cases hf

theorem accept_bus [Storage σ] (g : Gateway σ) (m : Message) : (g.accept m).1.bus = g.bus := by
  show (Supervisor.accept g.supervision.autoPersist g.toWorld m).1.bus = g.bus
  unfold Supervisor.accept
  split
  case h_1 => rfl
  case h_2 =>
    dsimp only
    split
    case isTrue => rw [(World.persist_keeps _ _).1]
    case isFalse => rfl

/-! ## The parts -/

theorem Apart.receiver (h : g.Apart) (hstep : g.receiverStep? = some g') :
    g'.Apart ∧ ∀ f ∈ g.bus.added g'.bus, f.Plain := by
  cases receiverStep?_cases hstep with
  | notice | malformed => exact ⟨h.of_same rfl rfl rfl, by simp⟩
  | @submit arrivals rest f m =>
    obtain ⟨hworld, hforwarding, herrand, hheartbeat⟩ :=
      submit_keeps { g with arrivals := some rest } m
    exact ⟨h.of_same hforwarding herrand hheartbeat, by simp [hworld]⟩

theorem Apart.router (h : g.Apart) (hstep : g.routerStep? = some g') :
    g'.Apart ∧ ∀ f ∈ g.bus.added g'.bus, f.Plain := by
  have hkept {after : Gateway σ} (hplain : ∀ f, after.forwarding = some f → f.Plain)
      (herrand : after.errand = g.errand) (hheartbeat : after.heartbeat = g.heartbeat) :
      after.Apart := by
    refine ⟨hplain, ?_, ?_⟩
    · rw [herrand]
      exact h.errand
    · rw [hheartbeat]
      exact h.heartbeat
  cases routerStep?_cases hstep with
  | stop => exact ⟨hkept (by simp [stopRouter]) rfl rfl, by simp [stopRouter]⟩
  | @goOn f f' w hbusy hnext =>
    obtain ⟨hplain, hadded⟩ := (h.forwarding f hbusy).next hnext
    refine ⟨hkept ?_ rfl rfl, hadded⟩
    intro f₁ hf₁
    obtain rfl := Option.some.inj hf₁
    exact hplain
  | finish => exact ⟨hkept (by simp) rfl rfl, by simp [settle]⟩
  | @settle m queue _ d hidle htake hup =>
    obtain ⟨⟨hbus, -⟩, hforwarding, herrand, hheartbeat, -⟩ := takeUp_keeps { g with queue } m
    rw [hup] at hbus hforwarding herrand hheartbeat
    refine ⟨h.of_same hforwarding herrand hheartbeat, ?_⟩
    rw [hbus]
    simp
  | @setOut m queue left f hidle htake hup =>
    obtain ⟨⟨hbus, -⟩, -, herrand, hheartbeat, hplain⟩ := takeUp_keeps { g with queue } m
    rw [hup] at hbus herrand hheartbeat hplain
    refine ⟨hkept ?_ herrand hheartbeat, ?_⟩
    · intro f₁ hf₁
      obtain rfl := Option.some.inj hf₁
      exact hplain _ rfl
    · show ∀ f ∈ g.bus.added left.bus, f.Plain
      rw [hbus]
      simp

theorem Apart.supervisor [Storage σ] (h : g.Apart) (hstep : g.supervisorStep? = some g') :
    g'.Apart ∧ ∀ f ∈ g.bus.added g'.bus, f.Plain := by
  cases supervisorStep?_cases hstep with
  | apply htake => exact ⟨h.of_same rfl rfl rfl, by simp [accept_bus]⟩
  | stop =>
    refine ⟨⟨h.forwarding, h.errand, ?_⟩, by simp [stopSupervisor]⟩
    intro heartbeat round hnone
    cases hnone

theorem Apart.heartbeatStep (h : g.Apart) (hstep : g.heartbeatStep? = some g') :
    g'.Apart ∧ ∀ f ∈ g.bus.added g'.bus, f.Plain := by
  have hkept {w : World σ} {beat : Heartbeat} (hround : ∀ r, beat.round = some r → r.Plain) :
      Apart { g with toWorld := w, heartbeat := some beat } := by
    refine ⟨h.forwarding, h.errand, ?_⟩
    intro later round hlater
    obtain rfl := Option.some.inj hlater
    exact hround round
  cases heartbeatStep?_cases hstep with
  | @goOn beat round round' w hbeat hround hnext =>
    obtain ⟨hplain, hadded⟩ := (h.heartbeat beat round hbeat hround).next hnext
    refine ⟨hkept ?_, hadded⟩
    intro r hr
    obtain rfl := Option.some.inj hr
    exact hplain
  | finish => exact ⟨hkept (by simp), by simp⟩
  | begin =>
    refine ⟨hkept ?_, by simp⟩
    intro r hr flight hflight
    obtain rfl := Option.some.inj hr
    cases hflight

theorem Apart.errandStep (h : g.Apart) (hstep : g.errandStep? = some g') :
    g'.Apart ∧ ∀ f ∈ g.bus.added g'.bus, f.Plain := by
  have hkept {after : Gateway σ} (e : Errand) (he : e.Plain) (hbusy : after.errand = some e)
      (hforwarding : after.forwarding = g.forwarding) (hheartbeat : after.heartbeat = g.heartbeat) :
      after.Apart := by
    refine ⟨?_, ?_, ?_⟩
    · rw [hforwarding]
      exact h.forwarding
    · intro e₁ he₁
      obtain rfl := Option.some.inj (hbusy.symm.trans he₁)
      exact he
    · rw [hheartbeat]
      exact h.heartbeat
  cases errandStep?_cases hstep with
  | land herrand hland =>
    exact ⟨hkept (.ended _) trivial rfl rfl rfl, plain_of_land (h.errand _ herrand) hland⟩
  | @poll round round' w herrand hnext =>
    have hround : round.Plain := h.errand _ herrand
    obtain ⟨hplain, hadded⟩ := hround.next hnext
    exact ⟨hkept (.polling round') hplain rfl rfl rfl, hadded⟩
  | polled => exact ⟨hkept (.ended _) trivial rfl rfl rfl, by simp [endErrand]⟩
  | @settle m left d herrand hup =>
    obtain ⟨⟨hbus, -⟩, hforwarding, -, hheartbeat, -⟩ := takeUp_keeps g m
    rw [hup] at hbus hforwarding hheartbeat
    refine ⟨hkept (.ended _) trivial rfl hforwarding hheartbeat, ?_⟩
    show ∀ f ∈ g.bus.added left.bus, f.Plain
    rw [hbus]
    simp
  | @setOut m left f herrand hup =>
    obtain ⟨⟨hbus, -⟩, hforwarding, -, hheartbeat, hplain⟩ := takeUp_keeps g m
    rw [hup] at hbus hforwarding hheartbeat hplain
    refine ⟨hkept (.forwarding f) (hplain f rfl) rfl hforwarding hheartbeat, ?_⟩
    show ∀ f ∈ g.bus.added left.bus, f.Plain
    rw [hbus]
    simp
  | @goOn f f' w herrand hnext =>
    have hf : f.Plain := h.errand _ herrand
    obtain ⟨hplain, hadded⟩ := hf.next hnext
    exact ⟨hkept (.forwarding f') hplain rfl rfl rfl, hadded⟩
  | finish => exact ⟨hkept (.ended _) trivial rfl rfl rfl, by simp [endErrand, Gateway.settle]⟩

variable [Storage σ]

/-- A part that is not a session sends plain frames, and nothing else gets under way for it. -/
theorem Apart.step (h : g.Apart) {p : Part} (hp : ∀ n, p ≠ .session n)
    (hstep : g.step? p = some g') : g'.Apart ∧ ∀ f ∈ g.bus.added g'.bus, f.Plain := by
  cases p with
  | receiver => exact h.receiver hstep
  | router => exact h.router hstep
  | supervisor => exact h.supervisor hstep
  | heartbeat => exact h.heartbeatStep hstep
  | errand => exact h.errandStep hstep
  | session n => exact absurd rfl (hp n)
  | keyCall n =>
    cases keyCallStep?_cases hstep
    exact ⟨h.of_same rfl rfl rfl, by simp⟩

/-! ## Runs -/

variable {c : Config} {events : List (Happening σ)}

/-- Whatever happens, what is under way for others than sessions is plain. -/
theorem Apart.meet (h : g.Apart) (event : Happening σ)
    (hgoes : ∀ now bus keys, event ≠ .deed (.restart now bus keys)) : (g.meet c event).Apart := by
  cases event with
  | keys keys => exact h.of_same rfl rfl rfl
  | deed deed =>
    simp only [Gateway.meet]
    have hacts := acts_act c g deed
    generalize g.act c deed = g' at hacts ⊢
    cases hacts with
    | waits | refused | keyless => exact h
    | @move p _ hstep =>
      cases p with
      | session n =>
        cases sessionStep?_cases hstep
        exact h.of_same rfl rfl rfl
      | _ => exact (h.step (by simp) hstep).1
    | submit m =>
      obtain ⟨-, hforwarding, herrand, hheartbeat⟩ := submit_keeps g m
      exact h.of_same hforwarding herrand hheartbeat
    | request ecu o =>
      refine ⟨h.forwarding, ?_, h.heartbeat⟩
      intro e he
      obtain rfl := Option.some.inj he
      split
      case h_1 flight hrequest => exact plain_of_request hrequest
      case h_2 => trivial
    | poll =>
      refine ⟨h.forwarding, ?_, h.heartbeat⟩
      intro e he
      obtain rfl := Option.some.inj he
      intro flight hflight
      cases hflight
    | route m =>
      refine ⟨h.forwarding, ?_, h.heartbeat⟩
      intro e he
      obtain rfl := Option.some.inj he
      trivial
    | shutdown =>
      refine ⟨?_, h.errand, ?_⟩
      · intro f hf
        cases hf
      · intro heartbeat round hnone
        cases hnone
    | restart | misconfigured => exact absurd rfl (hgoes _ _ _)
    | start | inject | accept | callKeys | clock | others => exact h.of_same rfl rfl rfl

theorem apart_start {now : Nat} {bus : Bus} {storage : σ} {keys : Option Vault}
    (h : Gateway.start c now bus storage keys = .ok g) : g.Apart := by
  unfold Gateway.start at h
  split at h
  case h_1 => cases h
  case h_2 => cases h
  case h_3 =>
    obtain rfl := Except.ok.inj h
    constructor
    case forwarding =>
      intro f hf
      cases hf
    case errand =>
      intro e he
      cases he
    case heartbeat =>
      intro heartbeat round hbeat hround
      obtain rfl := Option.some.inj hbeat
      cases hround

theorem Apart.moment (h : g.Apart)
    (hgoes : ∀ now bus keys, .deed (.restart now bus keys) ∉ events) (k : Nat) :
    (g.moment c events k).Apart := by
  refine moment_induction h ?_ k
  intro g' event hmem hapart
  exact hapart.meet event (ne_restart_of_mem hgoes hmem)

/-- The frames that the parts of a gateway send at one happening. -/
def sentAt (c : Config) (g : Gateway σ) (events : List (Happening σ)) (k : Nat) : List Frame :=
  match events[k]? with
  | some (.deed (.move _)) => (g.moment c events k).bus.added (g.moment c events (k + 1)).bus
  | _ => []

/-- The frames that the parts of a gateway send from one moment to another. -/
def sent (c : Config) (g : Gateway σ) (events : List (Happening σ)) (i k : Nat) : List Frame :=
  (List.range' i (k - i)).flatMap (g.sentAt c events)

theorem sent_self (k : Nat) : g.sent c events k k = [] := by
  simp [sent]

theorem sent_succ {i k : Nat} (hik : i ≤ k) :
    g.sent c events i (k + 1) = g.sent c events i k ++ g.sentAt c events k := by
  have hlength : k + 1 - i = (k - i) + 1 := by omega
  have hlast : i + (k - i) = k := by omega
  rw [sent, hlength, List.range'_1_concat, List.flatMap_append, hlast, List.flatMap_singleton]
  rfl

/-- Unless a session has its turn, no frame of an update is sent. -/
theorem Apart.plain_sentAt {k : Nat} (h : (g.moment c events k).Apart)
    (hother : ∀ n, events[k]? ≠ some (.deed (.move (.session n)))) :
    ∀ f ∈ g.sentAt c events k, f.Plain := by
  unfold sentAt
  split
  case h_1 p hevent =>
    rw [moment_succ hevent]
    simp only [Gateway.meet, act]
    cases hstep : (g.moment c events k).step? p with
    | none => simp
    | some g' =>
      have hp (n : Nat) : p ≠ .session n := by
        rintro rfl
        exact hother n hevent
      exact (h.step hp hstep).2
  case h_2 => simp

/-- The step that a session takes at its turn, unless it has to wait. -/
def nextMove? (g : Gateway σ) (n : Nat) : Option (Move σ) := do
  let s ← g.sessions[n]?
  let (w, s') ← s.step? g.firmware g.toWorld
  some ⟨g.toWorld, s, w, s'⟩

/-- What is left, and what is sent, when a session has its turn. -/
theorem turn_of_session {k n : Nat} (hevent : events[k]? = some (.deed (.move (.session n)))) :
    ((g.moment c events k).nextMove? n = none ∧ g.sentAt c events k = [] ∧
        g.moment c events (k + 1) = g.moment c events k) ∨
      ∃ m, (g.moment c events k).nextMove? n = some m ∧ g.sentAt c events k = m.transmitted ∧
        (g.moment c events k).sessions[n]? = some m.session ∧
        m.session.step? (g.moment c events k).firmware m.before = some (m.after, m.next) ∧
        g.moment c events (k + 1) = { g.moment c events k with
          toWorld := m.after, sessions := (g.moment c events k).sessions.set n m.next } := by
  have hnext := moment_succ (c := c) (g := g) hevent
  simp only [Gateway.meet, act, step?, sessionStep?, Option.bind_eq_bind] at hnext
  have hsent : g.sentAt c events k =
      (g.moment c events k).bus.added (g.moment c events (k + 1)).bus := by
    simp only [sentAt, hevent]
  generalize g.moment c events k = found at hnext hsent ⊢
  cases hs : found.sessions[n]? with
  | none =>
    simp only [hs, Option.bind_none, Option.getD_none] at hnext
    refine .inl ⟨?_, ?_, hnext⟩
    · simp [nextMove?, hs]
    · rw [hsent, hnext, Bus.added_self]
  | some s =>
    simp only [hs, Option.bind_some] at hnext
    cases hstep : s.step? found.firmware found.toWorld with
    | none =>
      simp only [hstep, Option.bind_none, Option.getD_none] at hnext
      refine .inl ⟨?_, ?_, hnext⟩
      · simp [nextMove?, hs, hstep]
      · rw [hsent, hnext, Bus.added_self]
    | some left =>
      obtain ⟨w, s'⟩ := left
      simp only [hstep, Option.bind_some, Option.getD_some] at hnext
      refine .inr ⟨⟨found.toWorld, s, w, s'⟩, ?_, ?_, rfl, hstep, hnext⟩
      · simp [nextMove?, hs, hstep]
      · rw [hsent, hnext]
        rfl

end Gateway

/-- A session sends frames of its own ECU only, and only as long as it holds the ECU. -/
theorem Session.transmitted_cases {σ : Type} [Storage σ] {c : FirmwareConfig} {m : Move σ}
    (hs : m.session.Coherent) (h : m.session.step? c m.before = some (m.after, m.next)) :
    m.transmitted = [] ∨ m.session.holds = true ∧ ∃ code payload,
      m.transmitted = [m.session.frame code payload] := by
  obtain ⟨w, s, w', s'⟩ := m
  rw [← Move.frames_events]
  rcases (step?_tells hs h).2 with ⟨hevents, -⟩ | ⟨t, -, hevents⟩
  · rw [hevents]
    exact .inl rfl
  · dsimp only at hevents
    rw [hevents]
    rcases s.dialogue.frames_shows s.frame t with ⟨frame, payload, hphase, -, hshown⟩ | ⟨hshown, -⟩
    · refine .inr ⟨?_, frame.code, payload, hshown⟩
      -- A session that has let go of its ECU has ended its dialogue.
      unfold Coherent at hs
      unfold holds
      split
      case h_4 => rfl
      all_goals simp_all
    · exact .inl hshown

end VehicleGateway
