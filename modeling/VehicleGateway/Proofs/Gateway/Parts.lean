import VehicleGateway.Gateway.Step

/-!
# What the parts of a gateway can do

Each part of a gateway, and each message and each round on its way, has a few kinds of steps.  They
are listed here once, with what the part found and what it leaves, so that nothing that is proved of
all steps has to take the step functions apart again.
-/

namespace VehicleGateway

/-! ## Messages on their way, and rounds -/

namespace Forwarding

variable {σ : Type} {w w' : World σ} {f f' : Forwarding} {timeout : Nat}

/-- What a step of a message on its way can be. -/
inductive Goes (timeout : Nat) (w : World σ) (f : Forwarding) : World σ → Forwarding → Prop where
  /-- A transmission ends. -/
  | lands {flight : Flight} {w' : World σ} {sent : Sent} (hflight : f.flight = some flight)
      (hland : w.land? flight = some (w', sent)) : Goes timeout w f w' (f.tally sent)
  /-- A destination has its turn. -/
  | visits {ecu : EcuNo} {rest : List EcuNo} (hflight : f.flight = none)
      (hrest : f.rest = ecu :: rest) : Goes timeout w f w ({ f with rest }.visit w timeout ecu)

theorem next_cases (h : f.next w timeout = .goesOn w' f') : Goes timeout w f w' f' := by
  unfold next at h
  split at h
  case h_1 flight hflight =>
    split at h
    case h_1 => cases h
    case h_2 landed sent hland =>
      cases h
      exact .lands hflight hland
  case h_2 hflight =>
    split at h
    case h_1 => cases h
    case h_2 ecu rest hrest =>
      cases h
      exact .visits hflight hrest

end Forwarding

namespace Round

variable {σ : Type} {t : RoundTerms} {w w' : World σ} {r r' : Round} {ecu : EcuNo}

/-- The ECU whose request is handed to the bus at the next step of a round. -/
def asks? (t : RoundTerms) (w : World σ) (r : Round) : Option EcuNo :=
  match r.rest, r.flight, r.pausing with
  | ecu :: _, none, some later => if later ≤ w.now then some ecu else none
  | ecu :: _, none, none =>
    if wanted w.registry ecu ∧ ¬ (0 < r.polled ∧ 0 < t.pause) then some ecu else none
  | _, _, _ => none

/-- It is the turn of an ECU, and no request is under way. -/
structure Faces (r : Round) (ecu : EcuNo) : Prop where
  head : r.rest.head? = some ecu
  flight : r.flight = none

/-- What a step of a round can be. -/
inductive Goes (t : RoundTerms) (w : World σ) (r : Round) : World σ → Round → Prop where
  /-- A request ends. -/
  | lands {flight : Flight} {w' : World σ} {sent : Sent} (hflight : r.flight = some flight)
      (hland : w.land? flight = some (w', sent)) : Goes t w r w' r.advance
  | asks {ecu : EcuNo} (hasks : r.asks? t w = some ecu) : Goes t w r w (r.ask t w ecu)
  /-- The round pauses before it asks an ECU that it has found not to be under update. -/
  | pauses {ecu : EcuNo} (hfaces : r.Faces ecu) (hpausing : r.pausing = none)
      (hwanted : wanted w.registry ecu = true) (hpolled : 0 < r.polled) (hpause : 0 < t.pause) :
    Goes t w r w { r with pausing := some (w.now + t.pause) }
  /-- An ECU is passed over. -/
  | skips {ecu : EcuNo} (hfaces : r.Faces ecu) (hpausing : r.pausing = none)
      (hunwanted : wanted w.registry ecu = false) : Goes t w r w { r with rest := r.rest.tail }

theorem next_cases (h : r.next t w = .goesOn w' r') : Goes t w r w' r' := by
  unfold next at h
  split at h
  case h_1 => cases h
  case h_2 ecu rest hrest =>
    have hhead : r.rest.head? = some ecu := by rw [hrest]; rfl
    split at h
    case h_1 flight hflight =>
      split at h
      case h_1 => cases h
      case h_2 landed sent hland =>
        cases h
        exact .lands hflight hland
    case h_2 later hflight hpausing =>
      split at h
      case isFalse => cases h
      case isTrue hover =>
        cases h
        exact .asks (by simp [asks?, hrest, hflight, hpausing, hover])
    case h_3 hflight hpausing =>
      cases h
      unfold visit
      split
      case isTrue hunwanted => exact .skips ⟨hhead, hflight⟩ hpausing (by simpa using hunwanted)
      case isFalse hwanted =>
        have hwanted : wanted w.registry ecu = true := by simpa using hwanted
        split
        case isTrue hpause =>
          exact .pauses ⟨hhead, hflight⟩ hpausing hwanted hpause.1 hpause.2
        case isFalse hpause =>
          exact .asks (by simp only [asks?, hrest, hflight, hpausing, hwanted, hpause]; rfl)

end Round

/-! ## Parts -/

namespace Gateway

variable {σ : Type} {g g' : Gateway σ}

/-- What a step of the receiver can be. -/
inductive ReceiverStep (g : Gateway σ) : Gateway σ → Prop where
  /-- A notice of lost frames. -/
  | notice {arrivals rest : Arrivals} (harrivals : g.arrivals = some arrivals)
      (hnext : arrivals.next? = some (none, rest)) :
    ReceiverStep g { g with arrivals := some rest }
  /-- A frame without a message. -/
  | malformed {arrivals rest : Arrivals} {f : Frame} (harrivals : g.arrivals = some arrivals)
      (hnext : arrivals.next? = some (some f, rest)) :
    ReceiverStep g { g with arrivals := some rest, stats := g.stats.drop .malformed }
  | submit {arrivals rest : Arrivals} {f : Frame} {m : Message}
      (harrivals : g.arrivals = some arrivals) (hnext : arrivals.next? = some (some f, rest))
      (hframe : Message.ofFrame f = .ok m) :
    ReceiverStep g ({ g with arrivals := some rest }.submit m).1

theorem receiverStep?_cases (h : g.receiverStep? = some g') : ReceiverStep g g' := by
  simp only [receiverStep?, Option.bind_eq_bind, Option.bind_eq_some_iff] at h
  obtain ⟨arrivals, harrivals, ⟨frame, rest⟩, hnext, hleft⟩ := h
  cases frame with
  | none =>
    obtain rfl := Option.some.inj hleft
    exact .notice harrivals hnext
  | some f =>
    obtain rfl := Option.some.inj hleft
    unfold receive
    split
    case h_1 => exact .malformed harrivals hnext
    case h_2 m hframe => exact .submit harrivals hnext hframe

/-- What a step of the router can be. -/
inductive RouterStep (g : Gateway σ) : Gateway σ → Prop where
  | stop : RouterStep g g.stopRouter
  /-- The message in hand goes on. -/
  | goOn {f f' : Forwarding} {w : World σ} (hbusy : g.forwarding = some f)
      (hnext : f.next g.toWorld g.sendTimeout = .goesOn w f') :
    RouterStep g { g with toWorld := w, forwarding := some f' }
  /-- The fate of the message in hand is known. -/
  | finish {f : Forwarding} {d : Delivery} (hbusy : g.forwarding = some f)
      (hnext : f.next g.toWorld g.sendTimeout = .ends d) :
    RouterStep g { g.settle d with forwarding := none }
  /-- A message is taken up, and its fate is known at once. -/
  | settle {m : Message} {queue : Mailbox Message} {g' : Gateway σ} {d : Delivery}
      (hidle : g.forwarding = none) (htake : g.queue.take? = some (m, queue))
      (hup : { g with queue }.takeUp m = (g', .inl d)) : RouterStep g g'
  /-- A message is taken up, and goes on its way. -/
  | setOut {m : Message} {queue : Mailbox Message} {g' : Gateway σ} {f : Forwarding}
      (hidle : g.forwarding = none) (htake : g.queue.take? = some (m, queue))
      (hup : { g with queue }.takeUp m = (g', .inr f)) :
    RouterStep g { g' with forwarding := some f }

theorem routerStep?_cases (h : g.routerStep? = some g') : RouterStep g g' := by
  unfold routerStep? at h
  split at h
  case isTrue =>
    obtain rfl := Option.some.inj h
    exact .stop
  case isFalse =>
    unfold carryOn? at h
    split at h
    case h_1 f hbusy =>
      split at h
      case h_1 => cases h
      case h_2 w f' hnext =>
        obtain rfl := Option.some.inj h
        exact .goOn hbusy hnext
      case h_3 d hnext =>
        obtain rfl := Option.some.inj h
        exact .finish hbusy hnext
    case h_2 hidle =>
      simp only [Option.bind_eq_bind, Option.bind_eq_some_iff] at h
      obtain ⟨⟨m, queue⟩, htake, hnext⟩ := h
      split at hnext
      case h_1 g'' d hup =>
        obtain rfl := Option.some.inj hnext
        exact .settle hidle htake hup
      case h_2 g'' f hup =>
        obtain rfl := Option.some.inj hnext
        exact .setOut hidle htake hup

/-- What a step of the supervisor can be. -/
inductive SupervisorStep [Storage σ] (g : Gateway σ) : Gateway σ → Prop where
  | apply {m : Message} {tray : Mailbox Message} (htake : g.tray.take? = some (m, tray)) :
    SupervisorStep g ({ g with tray }.accept m).1
  | stop : SupervisorStep g g.stopSupervisor

theorem supervisorStep?_cases [Storage σ] (h : g.supervisorStep? = some g') :
    SupervisorStep g g' := by
  unfold supervisorStep? at h
  split at h
  case isFalse => cases h
  case isTrue =>
    split at h
    case h_1 m tray htake =>
      obtain rfl := Option.some.inj h
      exact .apply htake
    case h_2 =>
      split at h
      case isTrue =>
        obtain rfl := Option.some.inj h
        exact .stop
      case isFalse => cases h

/-- What a step of the heartbeat can be. -/
inductive HeartbeatStep (g : Gateway σ) : Gateway σ → Prop where
  | goOn {beat : Heartbeat} {round round' : Round} {w : World σ} (hbeat : g.heartbeat = some beat)
      (hround : beat.round = some round)
      (hnext : round.next g.roundTerms g.toWorld = .goesOn w round') :
    HeartbeatStep g { g with
      toWorld := w, heartbeat := some { beat with round := some round' } }
  | finish {beat : Heartbeat} (hbeat : g.heartbeat = some beat) :
    HeartbeatStep g { g with heartbeat := some { beat with round := none } }
  | begin {beat : Nat} :
    HeartbeatStep g { g with
      heartbeat := some { beat, round := some (Round.ofRegistry g.registry) } }

theorem heartbeatStep?_cases (h : g.heartbeatStep? = some g') : HeartbeatStep g g' := by
  simp only [heartbeatStep?, Option.bind_eq_bind, Option.bind_eq_some_iff] at h
  obtain ⟨beat, hbeat, ⟨w, beat'⟩, hmove, hleft⟩ := h
  obtain rfl := Option.some.inj hleft
  unfold Heartbeat.step? at hmove
  split at hmove
  case h_1 round hround =>
    split at hmove
    case h_1 => cases hmove
    case h_2 w' round' hnext =>
      obtain ⟨rfl, rfl⟩ := Prod.mk.inj (Option.some.inj hmove)
      exact .goOn hbeat hround hnext
    case h_3 =>
      obtain ⟨rfl, rfl⟩ := Prod.mk.inj (Option.some.inj hmove)
      exact .finish hbeat
  case h_2 =>
    split at hmove
    case isTrue =>
      obtain ⟨rfl, rfl⟩ := Prod.mk.inj (Option.some.inj hmove)
      exact .begin
    case isFalse => cases hmove

/-- What a step of an errand can be. -/
inductive ErrandStep (g : Gateway σ) : Gateway σ → Prop where
  /-- A command was sent, or was not. -/
  | land {flight : Flight} {w : World σ} {sent : Sent}
      (herrand : g.errand = some (.requesting flight)) (hland : g.land? flight = some (w, sent)) :
    ErrandStep g
      ({ g with toWorld := w }.endErrand (.requested (sent.mapError BusFault.failure)))
  | poll {round round' : Round} {w : World σ} (herrand : g.errand = some (.polling round))
      (hnext : round.next g.roundTerms g.toWorld = .goesOn w round') :
    ErrandStep g { g with toWorld := w, errand := some (.polling round') }
  | polled {round : Round} {n : Nat} (herrand : g.errand = some (.polling round)) :
    ErrandStep g (g.endErrand (.polled n))
  | settle {m : Message} {g' : Gateway σ} {d : Delivery} (herrand : g.errand = some (.routing m))
      (hup : g.takeUp m = (g', .inl d)) : ErrandStep g (g'.endErrand (.delivered d))
  | setOut {m : Message} {g' : Gateway σ} {f : Forwarding} (herrand : g.errand = some (.routing m))
      (hup : g.takeUp m = (g', .inr f)) : ErrandStep g { g' with errand := some (.forwarding f) }
  | goOn {f f' : Forwarding} {w : World σ} (herrand : g.errand = some (.forwarding f))
      (hnext : f.next g.toWorld g.sendTimeout = .goesOn w f') :
    ErrandStep g { g with toWorld := w, errand := some (.forwarding f') }
  | finish {f : Forwarding} {d : Delivery} (herrand : g.errand = some (.forwarding f)) :
    ErrandStep g ((g.settle d).endErrand (.delivered d))

theorem errandStep?_cases (h : g.errandStep? = some g') : ErrandStep g g' := by
  unfold errandStep? at h
  split at h
  case h_1 => cases h
  case h_2 => cases h
  case h_3 flight herrand =>
    obtain ⟨⟨w, sent⟩, hland, hleft⟩ := Option.map_eq_some_iff.mp h
    subst hleft
    exact .land herrand hland
  case h_4 round herrand =>
    split at h
    case h_1 => cases h
    case h_2 w round' hnext =>
      obtain rfl := Option.some.inj h
      exact .poll herrand hnext
    case h_3 =>
      obtain rfl := Option.some.inj h
      exact .polled herrand
  case h_5 m herrand =>
    split at h
    case h_1 g'' d hup =>
      obtain rfl := Option.some.inj h
      exact .settle herrand hup
    case h_2 g'' f hup =>
      obtain rfl := Option.some.inj h
      exact .setOut herrand hup
  case h_6 f herrand =>
    split at h
    case h_1 => cases h
    case h_2 w f' hnext =>
      obtain rfl := Option.some.inj h
      exact .goOn herrand hnext
    case h_3 =>
      obtain rfl := Option.some.inj h
      exact .finish herrand

/-- What a step of a session can be. -/
inductive SessionStep [Storage σ] (g : Gateway σ) (n : Nat) : Gateway σ → Prop where
  | turn {s s' : Session} {w : World σ} (hs : g.sessions[n]? = some s)
      (hturn : s.step? g.firmware g.toWorld = some (w, s')) :
    SessionStep g n { g with toWorld := w, sessions := g.sessions.set n s' }

theorem sessionStep?_cases [Storage σ] {n : Nat} (h : g.sessionStep? n = some g') :
    SessionStep g n g' := by
  simp only [sessionStep?, Option.bind_eq_bind, Option.bind_eq_some_iff] at h
  obtain ⟨s, hs, ⟨w, s'⟩, hturn, hleft⟩ := h
  obtain rfl := Option.some.inj hleft
  exact .turn hs hturn

/-- What a step of a key call can be. -/
inductive KeyCallStep (g : Gateway σ) (n : Nat) : Gateway σ → Prop where
  | turn {vault vault' : Vault} (hkeys : g.keys = some vault)
      (hturn : vault.step? g.now n = some vault') : KeyCallStep g n { g with keys := some vault' }

theorem keyCallStep?_cases {n : Nat} (h : g.keyCallStep? n = some g') : KeyCallStep g n g' := by
  simp only [keyCallStep?, Option.bind_eq_bind, Option.bind_eq_some_iff] at h
  obtain ⟨vault, hkeys, vault', hturn, hleft⟩ := h
  obtain rfl := Option.some.inj hleft
  exact .turn hkeys hturn

end Gateway
end VehicleGateway
