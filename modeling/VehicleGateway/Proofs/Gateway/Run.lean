import VehicleGateway.Gateway.Start
import VehicleGateway.Proofs.Gateway.Parts
import VehicleGateway.Proofs.Update.Trace

/-!
# Runs of a gateway

What can happen to a gateway, in any order: its parts move, frames and messages come in, updates and
other errands are started, time passes, others use the bus and the storage, it is shut down, and it
is started again on the storage that it has left.

* `Deed` names these, `Gateway.run` does them one after the other, and `Acts` lists what a deed can
  make of a gateway.
* A `Lease` is what a session has of its ECU.  `Quiet` says of a change that it touches no lease and
  that the same ECUs are under update after it.
* `act_cases` says what a deed can be: quiet, the start of an update, the release of an ECU, or a
  new start.
-/

namespace VehicleGateway

/-- Something that happens to a gateway. -/
inductive Deed (σ : Type) where
  /-- A part takes its next step, unless it has to wait. -/
  | move (p : Part)
  | inject (f : Frame)
  | submit (m : Message)
  | startUpdate (ecu : EcuNo) (image : String) (secure : Bool)
  | request (ecu : EcuNo) (o : Opcode)
  | poll
  | route (m : Message)
  | accept (m : Message)
  | callKeys (request : KeyRequest)
  /-- The clock shows another time. -/
  | clock (now : Nat)
  /-- Others have used the bus and the storage. -/
  | others (bus : Bus) (storage : σ)
  | shutdown
  /-- The gateway is started again, on the storage as it is.  Nothing else is left of it. -/
  | restart (now : Nat) (bus : Bus) (keys : Option Vault)

namespace Gateway

variable {σ : Type} [Storage σ]

/-- A gateway after something has happened.  What is refused changes nothing. -/
def act (c : Config) (g : Gateway σ) : Deed σ → Gateway σ
  | .move p => (g.step? p).getD g
  | .inject f => g.inject f
  | .submit m => (g.submit m).1
  | .startUpdate ecu image secure =>
    match g.startUpdate ecu image secure with
    | .ok g' => g'
    | .error _ => g
  | .request ecu o => g.request ecu o
  | .poll => g.poll
  | .route m => g.route m
  | .accept m => (g.accept m).1
  | .callKeys request => g.callKeys request
  | .clock now => { g with now }
  | .others bus storage => { g with bus, storage }
  | .shutdown => g.shutdown.1
  | .restart now bus keys =>
    match Gateway.start c now bus g.storage keys with
    | .ok g' => g'
    | .error _ => g

/-- What a deed can make of a gateway. -/
inductive Acts (c : Config) (g : Gateway σ) : Deed σ → Gateway σ → Prop where
  | waits {p : Part} (hstep : g.step? p = none) : Acts c g (.move p) g
  | move {p : Part} {g' : Gateway σ} (hstep : g.step? p = some g') : Acts c g (.move p) g'
  | inject (f : Frame) : Acts c g (.inject f) (g.inject f)
  | submit (m : Message) : Acts c g (.submit m) (g.submit m).1
  | start {ecu : EcuNo} {image : String} {secure : Bool} {w : World σ} {s : Session}
      (hstart : g.toWorld.startUpdate g.firmware ecu image secure = .ok (w, s)) :
    Acts c g (.startUpdate ecu image secure)
      { g with toWorld := w, sessions := g.sessions ++ [s] }
  | refused {ecu : EcuNo} {image : String} {secure : Bool} {failure : Failure}
      (hstart : g.toWorld.startUpdate g.firmware ecu image secure = .error failure) :
    Acts c g (.startUpdate ecu image secure) g
  | request (ecu : EcuNo) (o : Opcode) : Acts c g (.request ecu o) (g.request ecu o)
  | poll : Acts c g .poll g.poll
  | route (m : Message) : Acts c g (.route m) (g.route m)
  | accept (m : Message) : Acts c g (.accept m) (g.accept m).1
  | callKeys {request : KeyRequest} {vault : Vault} (hkeys : g.keys = some vault) :
    Acts c g (.callKeys request) { g with
      keys := some (vault.addCall request)
      keyCalls := g.keyCalls ++ [vault.service.calls.length] }
  | keyless {request : KeyRequest} (hkeys : g.keys = none) : Acts c g (.callKeys request) g
  | clock (now : Nat) : Acts c g (.clock now) { g with now }
  | others (bus : Bus) (storage : σ) : Acts c g (.others bus storage) { g with bus, storage }
  | shutdown : Acts c g .shutdown g.shutdown.1
  | restart {now : Nat} {bus : Bus} {keys : Option Vault} {g' : Gateway σ}
      (hstart : Gateway.start c now bus g.storage keys = .ok g') :
    Acts c g (.restart now bus keys) g'
  | misconfigured {now : Nat} {bus : Bus} {keys : Option Vault} {failure : Failure}
      (hstart : Gateway.start c now bus g.storage keys = .error failure) :
    Acts c g (.restart now bus keys) g

/-- A deed makes nothing else of a gateway. -/
theorem acts_act (c : Config) (g : Gateway σ) (deed : Deed σ) : Acts c g deed (g.act c deed) := by
  cases deed with
  | move p =>
    cases hstep : g.step? p with
    | none =>
      simp only [act, hstep, Option.getD_none]
      exact .waits hstep
    | some g' =>
      simp only [act, hstep, Option.getD_some]
      exact .move hstep
  | startUpdate ecu image secure =>
    simp only [act, startUpdate]
    cases hstart : g.toWorld.startUpdate g.firmware ecu image secure with
    | error failure => exact .refused hstart
    | ok started => exact .start hstart
  | callKeys request =>
    simp only [act, callKeys]
    split
    case h_1 hkeys => exact .keyless hkeys
    case h_2 vault hkeys => exact .callKeys hkeys
  | restart now bus keys =>
    simp only [act]
    split
    case h_1 g' hstart => exact .restart hstart
    case h_2 failure hstart => exact .misconfigured hstart
  | inject f => exact .inject f
  | submit m => exact .submit m
  | request ecu o => exact .request ecu o
  | poll => exact .poll
  | route m => exact .route m
  | accept m => exact .accept m
  | clock now => exact .clock now
  | others bus storage => exact .others bus storage
  | shutdown => exact .shutdown

/-- A gateway after all that has happened. -/
def run (c : Config) (g : Gateway σ) (deeds : List (Deed σ)) : Gateway σ :=
  deeds.foldl (act c) g

end Gateway

/-- What a session has of its ECU. -/
structure Lease where
  ecu : EcuNo
  inbox : Nat
  prior : Status
  /-- Whether the session has not released the ECU yet. -/
  held : Bool
  deriving DecidableEq

/-- Whether a session has not released its ECU yet. -/
def Session.holds (s : Session) : Bool :=
  match s.doing with
  | .released | .stored | .closed => false
  | _ => true

/-- What a session has of its ECU. -/
def Session.lease (s : Session) : Lease where
  ecu := s.ecu
  inbox := s.inbox
  prior := s.prior
  held := s.holds

namespace Gateway

variable {σ : Type}

/-- The leases of all sessions in the order of their start. -/
def leases (g : Gateway σ) : List Lease :=
  g.sessions.map Session.lease

/-- A change that touches no lease, after which the same ECUs are under update. -/
structure Quiet (g g' : Gateway σ) : Prop where
  updating : ∀ ecu, g'.registry.status? ecu = some .updating ↔
    g.registry.status? ecu = some .updating
  inUse : g'.inboxes.inUse = g.inboxes.inUse
  leases : g'.leases = g.leases

theorem Quiet.refl (g : Gateway σ) : g.Quiet g :=
  ⟨fun _ => Iff.rfl, rfl, rfl⟩

/-- A change of other things is quiet. -/
theorem quiet_of_same {g g' : Gateway σ} (hregistry : g'.registry = g.registry)
    (hinUse : g'.inboxes.inUse = g.inboxes.inUse) (hleases : g'.leases = g.leases) :
    g.Quiet g' :=
  ⟨fun ecu => by rw [hregistry], hinUse, hleases⟩

theorem quiet_of_eq {g g' : Gateway σ} (hregistry : g'.registry = g.registry)
    (hinboxes : g'.inboxes = g.inboxes) (hsessions : g'.sessions = g.sessions) : g.Quiet g' :=
  quiet_of_same hregistry (by rw [hinboxes]) (by rw [leases, leases, hsessions])

end Gateway

/-! ## Answers of the ECUs -/

/-- An answer neither begins nor ends an update. -/
theorem EcuRecord.updating_iff_of_afterResponse {r r' : EcuRecord} {o : Opcode} {payload : Bytes}
    (h : r.afterResponse o payload = .ok r') : r'.status = .updating ↔ r.status = .updating := by
  -- A status that is reported replaces another one only outside of updates.
  have hafter (reported : Status) :
      r.status.after reported = .updating ↔ r.status = .updating := by
    unfold Status.after
    split
    case isTrue => exact Iff.rfl
    case isFalse hneither =>
      exact ⟨fun h => absurd (.inr h) hneither, fun h => absurd (.inl h) hneither⟩
  cases o with
  | reportAll =>
    obtain ⟨report, -, rfl⟩ := exists_of_map_ok h
    exact hafter _
  | reportIdentity =>
    simp only [afterResponse, withIdentity] at h
    split at h
    case h_1 =>
      obtain ⟨protocol, -, h⟩ := exists_of_bind_ok h
      obtain rfl := Except.ok.inj h
      exact Iff.rfl
    case h_2 => cases h
  | reportVersion =>
    simp only [afterResponse, withVersion] at h
    split at h
    case h_1 =>
      obtain rfl := Except.ok.inj h
      exact Iff.rfl
    case h_2 => cases h
  | reportStatus =>
    obtain ⟨status, -, rfl⟩ := exists_of_map_ok h
    exact hafter _
  | reset =>
    obtain rfl := Except.ok.inj h
    exact hafter _
  | sleep =>
    obtain rfl := Except.ok.inj h
    exact hafter _

/-- What is read in an answer is what the command in question makes of the record of who answered. -/
theorem Supervisor.exists_of_reading {registry : Registry} {m : Message} {ecu : EcuNo}
    {before record : EcuRecord}
    (h : Supervisor.reading registry m = .ok (ecu, before, record)) :
    registry.get? ecu = some before ∧
      ∃ o, Supervisor.question m = .ok (ecu, o) ∧ before.afterResponse o m.payload = .ok record := by
  unfold Supervisor.reading at h
  obtain ⟨⟨asked, o⟩, hquestion, h⟩ := exists_of_bind_ok h
  obtain ⟨found, hfound, h⟩ := exists_of_bind_ok h
  split at h
  case h_1 hafter =>
    cases h
    exact ⟨Registry.get?_of_get hfound, o, hquestion, hafter⟩
  case h_2 => cases h

/-- After an answer the same ECUs are under update, and the inboxes are as they were. -/
theorem Supervisor.accept_updating {σ : Type} [Storage σ] (persists : Bool) (w : World σ)
    (m : Message) :
    (∀ ecu, (Supervisor.accept persists w m).1.registry.status? ecu = some .updating ↔
      w.registry.status? ecu = some .updating) ∧
      (Supervisor.accept persists w m).1.inboxes = w.inboxes := by
  unfold Supervisor.accept
  cases hreading : Supervisor.reading w.registry m with
  | error failure => exact ⟨fun _ => Iff.rfl, rfl⟩
  | ok read =>
    obtain ⟨ecu, before, record⟩ := read
    obtain ⟨hbefore, o, -, hafter⟩ := Supervisor.exists_of_reading hreading
    dsimp only
    have hreplaced (other : EcuNo) :
        (w.registry.replace ecu record).status? other = some .updating ↔
          w.registry.status? other = some .updating := by
      unfold Registry.status? Registry.replace
      rw [Registry.get?_modify]
      split
      case isTrue hsame =>
        subst hsame
        simpa [hbefore] using EcuRecord.updating_iff_of_afterResponse hafter
      case isFalse => exact Iff.rfl
    split
    case isTrue =>
      obtain ⟨-, hinboxes, hregistry⟩ :=
        World.persist_keeps { w with registry := w.registry.replace ecu record } ecu
      rw [hregistry, hinboxes]
      exact ⟨hreplaced, rfl⟩
    case isFalse => exact ⟨hreplaced, rfl⟩

/-! ## The parts -/

namespace Gateway

variable {σ : Type} {g g' : Gateway σ}

theorem quiet_submit (g : Gateway σ) (m : Message) : g.Quiet (g.submit m).1 := by
  unfold submit
  split <;> exact quiet_of_eq rfl rfl rfl

theorem quiet_receiver (h : g.receiverStep? = some g') : g.Quiet g' := by
  cases receiverStep?_cases h with
  | notice | malformed => exact quiet_of_eq rfl rfl rfl
  | @submit arrivals rest f m =>
    have hsubmit := quiet_submit { g with arrivals := some rest } m
    exact ⟨hsubmit.updating, hsubmit.inUse, hsubmit.leases⟩

/-- Taking up a message puts it into an inbox at most. -/
theorem quiet_takeUp (g : Gateway σ) (m : Message) : g.Quiet (g.takeUp m).1 := by
  have hpost (ecu : EcuNo) : (g.inboxes.post ecu m).inUse = g.inboxes.inUse := by
    unfold Inboxes.post
    split <;> rfl
  unfold takeUp
  cases hpath : Router.path g.routes g.toWorld g.tray m with
  | forwarding f => exact quiet_of_eq rfl rfl rfl
  | settled w tray d =>
    dsimp only
    unfold Router.path at hpath
    -- A message is dropped, put into the tray of the supervisor, or put into an inbox.
    have hw : w.registry = g.registry ∧ w.inboxes.inUse = g.inboxes.inUse := by
      split at hpath
      · cases hpath
        exact ⟨rfl, rfl⟩
      · split at hpath
        · cases hpath
          exact ⟨rfl, rfl⟩
        · split at hpath <;> cases hpath
          exact ⟨rfl, rfl⟩
      · split at hpath <;> (cases hpath; exact ⟨rfl, rfl⟩)
      · cases hpath
        exact ⟨rfl, hpost _⟩
    exact quiet_of_same hw.1 hw.2 rfl

theorem quiet_of_forwarding {f f' : Forwarding} {w : World σ}
    (h : f.next g.toWorld g.sendTimeout = .goesOn w f') :
    w.registry = g.registry ∧ w.inboxes = g.inboxes := by
  cases Forwarding.next_cases h with
  | lands hflight hland => exact World.land_keeps hland
  | visits => exact ⟨rfl, rfl⟩

theorem quiet_of_round {t : RoundTerms} {r r' : Round} {w : World σ}
    (h : r.next t g.toWorld = .goesOn w r') :
    w.registry = g.registry ∧ w.inboxes = g.inboxes := by
  cases Round.next_cases h with
  | lands hflight hland => exact World.land_keeps hland
  | asks | pauses | skips => exact ⟨rfl, rfl⟩

theorem quiet_router (h : g.routerStep? = some g') : g.Quiet g' := by
  cases routerStep?_cases h with
  | stop => exact quiet_of_eq rfl rfl rfl
  | goOn hbusy hnext =>
    obtain ⟨hregistry, hinboxes⟩ := quiet_of_forwarding hnext
    exact quiet_of_eq hregistry hinboxes rfl
  | finish => exact quiet_of_eq rfl rfl rfl
  | @settle m queue _ d hidle htake hup =>
    have htaken := quiet_takeUp { g with queue } m
    rw [hup] at htaken
    exact ⟨htaken.updating, htaken.inUse, htaken.leases⟩
  | @setOut m queue _ f hidle htake hup =>
    have htaken := quiet_takeUp { g with queue } m
    rw [hup] at htaken
    exact ⟨htaken.updating, htaken.inUse, htaken.leases⟩

theorem quiet_accept [Storage σ] (g : Gateway σ) (m : Message) : g.Quiet (g.accept m).1 := by
  obtain ⟨hupdating, hinboxes⟩ :=
    Supervisor.accept_updating g.supervision.autoPersist g.toWorld m
  exact ⟨hupdating, congrArg Inboxes.inUse hinboxes, rfl⟩

theorem quiet_supervisor [Storage σ] (h : g.supervisorStep? = some g') : g.Quiet g' := by
  cases supervisorStep?_cases h with
  | @apply m tray htake =>
    have haccept := quiet_accept { g with tray } m
    exact ⟨haccept.updating, haccept.inUse, haccept.leases⟩
  | stop => exact quiet_of_eq rfl rfl rfl

theorem quiet_heartbeat (h : g.heartbeatStep? = some g') : g.Quiet g' := by
  cases heartbeatStep?_cases h with
  | goOn hbeat hround hnext =>
    obtain ⟨hregistry, hinboxes⟩ := quiet_of_round hnext
    exact quiet_of_eq hregistry hinboxes rfl
  | finish | begin => exact quiet_of_eq rfl rfl rfl

theorem quiet_errand (h : g.errandStep? = some g') : g.Quiet g' := by
  cases errandStep?_cases h with
  | land herrand hland =>
    obtain ⟨hregistry, hinboxes⟩ := World.land_keeps hland
    exact quiet_of_eq hregistry hinboxes rfl
  | poll herrand hnext =>
    obtain ⟨hregistry, hinboxes⟩ := quiet_of_round hnext
    exact quiet_of_eq hregistry hinboxes rfl
  | @settle m _ d herrand hup =>
    have htaken := quiet_takeUp g m
    rw [hup] at htaken
    exact ⟨htaken.updating, htaken.inUse, htaken.leases⟩
  | @setOut m _ f herrand hup =>
    have htaken := quiet_takeUp g m
    rw [hup] at htaken
    exact ⟨htaken.updating, htaken.inUse, htaken.leases⟩
  | goOn herrand hnext =>
    obtain ⟨hregistry, hinboxes⟩ := quiet_of_forwarding hnext
    exact quiet_of_eq hregistry hinboxes rfl
  | polled | finish => exact quiet_of_eq rfl rfl rfl

theorem quiet_keyCall {n : Nat} (h : g.keyCallStep? n = some g') : g.Quiet g' := by
  cases keyCallStep?_cases h
  exact quiet_of_eq rfl rfl rfl

end Gateway

/-! ## The sessions -/

namespace Session

variable {σ : Type} [Storage σ]

/-- A session that turns to something does not let go of its ECU. -/
theorem holds_turnTo (c : FirmwareConfig) (w : World σ) (s : Session) (wish : Wish) :
    (s.turnTo c w wish).2.holds = true := by
  cases wish with
  | verdict image tag => simp only [turnTo, call]; split <;> rfl
  | cipher data => simp only [turnTo, call]; split <;> rfl
  | send code payload => simp only [turnTo]; split <;> rfl
  | _ => rfl

/-- A step of a session releases its ECU, or leaves its lease, all records and all claims alone. -/
theorem step?_lease {c : FirmwareConfig} {s s' : Session} {w w' : World σ}
    (h : s.step? c w = some (w', s')) :
    (∃ result, s.holds = true ∧ (w', s') = s.release w result) ∨
      w'.registry = w.registry ∧ w'.inboxes.inUse = w.inboxes.inUse ∧ s'.lease = s.lease := by
  have hkeeps := step?_keeps h
  -- All of a lease but who holds it was fixed at the start.
  have hlease (hholds : s'.holds = s.holds) : s'.lease = s.lease := by
    have hecu : s'.ecu = s.ecu := by rw [hkeeps]
    have hinbox : s'.inbox = s.inbox := by rw [hkeeps]
    have hprior : s'.prior = s.prior := by rw [hkeeps]
    rw [lease, lease, hecu, hinbox, hprior, hholds]
  cases step?_cases h with
  | turn wish hdoing hwish =>
    have hworld := (turnTo_keeps c w s wish).1
    have hholds : s.holds = true := by simp [holds, hdoing]
    refine .inr ⟨by rw [hworld], by rw [hworld], hlease ?_⟩
    rw [holds_turnTo, hholds]
  | release result hdoing hended => exact .inl ⟨result, by simp [holds, hdoing], rfl⟩
  | land hdoing hland =>
    obtain ⟨hregistry, hinboxes⟩ := World.land_keeps hland
    exact .inr ⟨hregistry, congrArg Inboxes.inUse hinboxes, hlease (by simp [holds, tell, hdoing])⟩
  | outcome hdoing => exact .inr ⟨rfl, rfl, hlease (by simp [holds, tell, hdoing])⟩
  | carry => exact .inr ⟨rfl, rfl, rfl⟩
  | take hdoing htake =>
    refine .inr ⟨rfl, Inboxes.inUse_of_take? htake, hlease ?_⟩
    split
    case isTrue => simp [holds, tell, hdoing]
    case isFalse => rfl
  | miss hdoing => exact .inr ⟨rfl, rfl, hlease (by simp [holds, tell, hdoing])⟩
  | persist hdoing =>
    obtain ⟨-, hinboxes, hregistry⟩ := w.persist_keeps s.ecu
    exact .inr ⟨hregistry, congrArg Inboxes.inUse hinboxes, by simp [lease, holds, hdoing]⟩
  | close hdoing => exact .inr ⟨rfl, rfl, by simp [lease, holds, hdoing]⟩

end Session

namespace Gateway

variable {σ : Type} [Storage σ] {g g' : Gateway σ}

/-- What a deed can be: quiet, the start of an update, the release of an ECU, or a new start. -/
theorem act_cases (c : Config) (g : Gateway σ) (deed : Deed σ) :
    g.Quiet (g.act c deed) ∨
      (∃ ecu image secure, deed = .startUpdate ecu image secure ∧
        g.startUpdate ecu image secure = .ok (g.act c deed)) ∨
      (∃ n s result, g.sessions[n]? = some s ∧ s.holds = true ∧
        g.act c deed = { g with
          toWorld := (s.release g.toWorld result).1
          sessions := g.sessions.set n (s.release g.toWorld result).2 }) ∨
      ∃ now bus keys, deed = .restart now bus keys := by
  have hacts := acts_act c g deed
  generalize g.act c deed = g' at hacts ⊢
  cases hacts with
  | waits | refused | keyless => exact .inl (Quiet.refl g)
  | @move p _ hstep =>
    cases p with
    | receiver => exact .inl (quiet_receiver hstep)
    | router => exact .inl (quiet_router hstep)
    | supervisor => exact .inl (quiet_supervisor hstep)
    | heartbeat => exact .inl (quiet_heartbeat hstep)
    | errand => exact .inl (quiet_errand hstep)
    | keyCall n => exact .inl (quiet_keyCall hstep)
    | session n =>
      obtain @⟨s, s', w, hs, hsession⟩ := sessionStep?_cases hstep
      rcases Session.step?_lease hsession with
        ⟨result, hholds, hrelease⟩ | ⟨hregistry, hinUse, hlease⟩
      · obtain ⟨rfl, rfl⟩ := Prod.mk.inj hrelease
        exact .inr (.inr (.inl ⟨n, s, result, hs, hholds, rfl⟩))
      · refine .inl (quiet_of_same hregistry hinUse ?_)
        obtain ⟨hn, hsame⟩ := List.getElem?_eq_some_iff.mp hs
        have hset : g.sessions.set n s = g.sessions := by rw [← hsame, List.set_getElem_self]
        simp only [leases, List.map_set, hlease]
        rw [← List.map_set, hset]
  | @start ecu image secure w s hstart =>
    refine .inr (.inl ⟨ecu, image, secure, rfl, ?_⟩)
    rw [startUpdate, hstart]
    rfl
  | restart | misconfigured => exact .inr (.inr (.inr ⟨_, _, _, rfl⟩))
  | submit m => exact .inl (quiet_submit g m)
  | accept m => exact .inl (quiet_accept g m)
  | inject | request | poll | route | callKeys | clock | others | shutdown =>
    exact .inl (quiet_of_eq rfl rfl rfl)

end Gateway
end VehicleGateway
