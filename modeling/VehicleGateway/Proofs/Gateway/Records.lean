import VehicleGateway.Proofs.Gateway.Senders

/-!
# What can happen to the records

A record changes when an answer is applied to it, and when an update of its ECU begins or ends.
Nothing else touches it.

* `applies?` is the message that is applied when something happens.
* `Rewrites` lists what can happen to the records, and `rewrites_meet` says that there is nothing
  else.  What is proved of all records has four cases, then.
* `size_moment` is the first such result: there are as many records at every moment.

The interfaces of the bus stay what they are meanwhile, unless others make another bus of it.
-/

namespace VehicleGateway

/-- A change of one record keeps what holds of all records if the new one has it. -/
theorem Registry.forall_modify {r : Registry} {ecu : EcuNo} {f : EcuRecord → EcuRecord}
    {P : EcuRecord → Prop} (h : ∀ record ∈ r.records, P record)
    (hf : ∀ record, r.get? ecu = some record → P (f record)) :
    ∀ record ∈ (r.modify ecu f).records, P record := by
  intro record hrecord
  obtain ⟨i, hi⟩ := List.getElem?_of_mem hrecord
  rw [Registry.modify, List.getElem?_modify] at hi
  obtain ⟨old, hold, rfl⟩ := Option.map_eq_some_iff.mp hi
  split
  case isTrue hsame => exact hf old (by rw [Registry.get?, hsame, hold])
  case isFalse => exact h old (List.mem_of_getElem? hold)

namespace Gateway

variable {σ : Type}

/-! ## Transmissions -/

/-- A transmission leaves the interfaces of the bus. -/
theorem interfaces_of_land {w w' : World σ} {flight : Flight} {sent : Sent}
    (h : w.land? flight = some (w', sent)) : w'.bus.interfaces = w.bus.interfaces := by
  rcases World.land_cases h with ⟨-, -, -, rfl⟩ | ⟨-, -, rfl, -⟩
  · rfl
  · rfl

theorem interfaces_of_forwarding {w w' : World σ} {f f' : Forwarding} {timeout : Nat}
    (h : f.next w timeout = .goesOn w' f') : w'.bus.interfaces = w.bus.interfaces := by
  cases Forwarding.next_cases h with
  | lands hflight hland => exact interfaces_of_land hland
  | visits => rfl

theorem interfaces_of_round {w w' : World σ} {r r' : Round} {t : RoundTerms}
    (h : r.next t w = .goesOn w' r') : w'.bus.interfaces = w.bus.interfaces := by
  cases Round.next_cases h with
  | lands hflight hland => exact interfaces_of_land hland
  | asks | pauses | skips => rfl

variable [Storage σ]

theorem interfaces_of_session {c : FirmwareConfig} {w w' : World σ} {s s' : Session}
    (h : s.step? c w = some (w', s')) : w'.bus.interfaces = w.bus.interfaces := by
  cases Session.step?_cases h with
  | turn wish => rw [(Session.turnTo_keeps c w s wish).1]
  | land hdoing hland => exact interfaces_of_land hland
  | persist => rw [(w.persist_keeps s.ecu).1]
  | _ => rfl

variable {c : Config} {g g' : Gateway σ} {events : List (Happening σ)} {interfaces : UInt8}

/-! ## Steps -/

omit [Storage σ] in
theorem world_receiver (h : g.receiverStep? = some g') :
    g'.toWorld = g.toWorld := by
  cases receiverStep?_cases h with
  | notice | malformed => rfl
  | @submit arrivals rest f m => exact (submit_keeps { g with arrivals := some rest } m).1

/-- The message that is applied to a record when something happens. -/
def applies? (g : Gateway σ) : Happening σ → Option Message
  | .deed (.accept m) => some m
  | .deed (.move .supervisor) => if g.supervising then g.tray.take?.map (·.1) else none
  | _ => none

/-- What something that happens can do to the records. -/
inductive Rewrites (g : Gateway σ) (event : Happening σ) : Registry → Prop where
  | leaves (hnone : g.applies? event = none) : Rewrites g event g.registry
  | answers {m : Message} (happlies : g.applies? event = some m) :
    Rewrites g event (g.accept m).1.registry
  /-- An update begins. -/
  | begins {ecu : EcuNo} (hnone : g.applies? event = none) :
    Rewrites g event (g.registry.setStatus ecu .updating)
  /-- The update of a session ends. -/
  | ends {s : Session} {result : Except UpdateFault Unit} (hnone : g.applies? event = none)
      (hs : s ∈ g.sessions) :
    Rewrites g event
      (g.registry.modify s.ecu fun r => r.afterUpdate s.dialogue.progress s.prior result)

/-- A part does nothing else to the records, and leaves the interfaces of the bus. -/
theorem rewrites_of_step {p : Part} (h : g.step? p = some g') :
    g.Rewrites (.deed (.move p)) g'.registry ∧ g'.bus.interfaces = g.bus.interfaces := by
  have hleaves {left : Gateway σ} (hnone : g.applies? (.deed (.move p)) = none)
      (hregistry : left.registry = g.registry) (hbus : left.bus.interfaces = g.bus.interfaces) :
      g.Rewrites (.deed (.move p)) left.registry ∧ left.bus.interfaces = g.bus.interfaces :=
    ⟨hregistry ▸ .leaves hnone, hbus⟩
  cases p with
  | receiver =>
    have hworld := world_receiver h
    exact hleaves rfl (by rw [hworld]) (by rw [hworld])
  | router =>
    cases routerStep?_cases h with
    | stop | finish => exact hleaves rfl rfl rfl
    | goOn hbusy hnext =>
      exact hleaves rfl (quiet_of_forwarding hnext).1 (interfaces_of_forwarding hnext)
    | @settle m queue _ d hidle htake hup =>
      obtain ⟨⟨hbus, hregistry⟩, -⟩ := takeUp_keeps { g with queue } m
      rw [hup] at hbus hregistry
      exact hleaves rfl hregistry (congrArg Bus.interfaces hbus)
    | @setOut m queue _ f hidle htake hup =>
      obtain ⟨⟨hbus, hregistry⟩, -⟩ := takeUp_keeps { g with queue } m
      rw [hup] at hbus hregistry
      exact hleaves rfl hregistry (congrArg Bus.interfaces hbus)
  | supervisor =>
    have hrunning : g.supervising = true := by
      by_contra hnot
      simp [step?, supervisorStep?, hnot] at h
    simp only [step?, supervisorStep?, hrunning, if_true] at h
    split at h
    case h_1 m tray htake =>
      obtain rfl := Option.some.inj h
      refine ⟨.answers (m := m) ?_, congrArg Bus.interfaces (accept_bus { g with tray } m)⟩
      simp [applies?, hrunning, htake]
    case h_2 htake =>
      have hnone : g.applies? (.deed (.move .supervisor)) = none := by
        simp [applies?, htake]
      split at h
      case isTrue =>
        obtain rfl := Option.some.inj h
        exact hleaves hnone rfl rfl
      case isFalse => cases h
  | heartbeat =>
    cases heartbeatStep?_cases h with
    | goOn hbeat hround hnext =>
      exact hleaves rfl (quiet_of_round hnext).1 (interfaces_of_round hnext)
    | finish | begin => exact hleaves rfl rfl rfl
  | errand =>
    cases errandStep?_cases h with
    | land herrand hland => exact hleaves rfl (World.land_keeps hland).1 (interfaces_of_land hland)
    | poll herrand hnext => exact hleaves rfl (quiet_of_round hnext).1 (interfaces_of_round hnext)
    | polled | finish => exact hleaves rfl rfl rfl
    | @settle m _ d herrand hup =>
      obtain ⟨⟨hbus, hregistry⟩, -⟩ := takeUp_keeps g m
      rw [hup] at hbus hregistry
      exact hleaves rfl hregistry (congrArg Bus.interfaces hbus)
    | @setOut m _ f herrand hup =>
      obtain ⟨⟨hbus, hregistry⟩, -⟩ := takeUp_keeps g m
      rw [hup] at hbus hregistry
      exact hleaves rfl hregistry (congrArg Bus.interfaces hbus)
    | goOn herrand hnext =>
      exact hleaves rfl (quiet_of_forwarding hnext).1 (interfaces_of_forwarding hnext)
  | session n =>
    obtain ⟨hs, hturn⟩ := sessionStep?_cases h
    rcases Session.step?_inboxes hturn with ⟨result, -, -, hrelease⟩ | ⟨hregistry, -⟩
    · obtain ⟨rfl, rfl⟩ := Prod.mk.inj hrelease
      exact ⟨.ends rfl (List.mem_of_getElem? hs), rfl⟩
    · exact hleaves rfl hregistry (interfaces_of_session hturn)
  | keyCall n =>
    cases keyCallStep?_cases h
    exact hleaves rfl rfl rfl

theorem rewrites_meet (c : Config) (g : Gateway σ) (event : Happening σ)
    (hgoes : ∀ now bus keys, event ≠ .deed (.restart now bus keys)) :
    g.Rewrites event (g.meet c event).registry := by
  cases event with
  | keys keys => exact .leaves rfl
  | deed deed =>
    simp only [Gateway.meet]
    have hacts := acts_act c g deed
    generalize g.act c deed = g' at hacts ⊢
    cases hacts with
    | @waits p hstep =>
      refine .leaves ?_
      cases p with
      | supervisor =>
        -- A supervisor that waits has nothing to apply, or does not run.
        simp only [step?, supervisorStep?] at hstep
        simp only [applies?]
        split at hstep
        case isFalse hstopped => rw [if_neg hstopped]
        case isTrue hrunning =>
          split at hstep
          case h_1 => cases hstep
          case h_2 htake => rw [if_pos hrunning, htake, Option.map_none]
      | _ => rfl
    | move hstep => exact (rewrites_of_step hstep).1
    | submit m =>
      have hworld := (submit_keeps g m).1
      rw [hworld]
      exact .leaves rfl
    | start hstart =>
      obtain ⟨record, -, -, rfl, -⟩ := World.startUpdate_parts hstart
      exact .begins rfl
    | accept m => exact .answers rfl
    | restart | misconfigured => exact absurd rfl (hgoes _ _ _)
    | inject | refused | request | poll | route | callKeys | keyless | clock | others | shutdown =>
      exact .leaves rfl

/-- The bus has the same interfaces whatever happens, unless others make another bus of it. -/
theorem interfaces_meet {event : Happening σ}
    (hgoes : ∀ now bus keys, event ≠ .deed (.restart now bus keys))
    (hothers : ∀ bus storage, event = .deed (.others bus storage) → bus.interfaces = interfaces)
    (h : g.bus.interfaces = interfaces) : (g.meet c event).bus.interfaces = interfaces := by
  cases event with
  | keys keys => exact h
  | deed deed =>
    simp only [Gateway.meet]
    have hacts := acts_act c g deed
    generalize g.act c deed = g' at hacts ⊢
    cases hacts with
    | move hstep => exact (rewrites_of_step hstep).2.trans h
    | submit m => exact (congrArg (fun w : World σ => w.bus.interfaces) (submit_keeps g m).1).trans h
    | start hstart =>
      obtain ⟨record, -, -, rfl, -⟩ := World.startUpdate_parts hstart
      exact h
    | accept m => exact (congrArg Bus.interfaces (accept_bus g m)).trans h
    | others bus storage => exact hothers bus storage rfl
    | restart | misconfigured => exact absurd rfl (hgoes _ _ _)
    | waits | inject | refused | request | poll | route | callKeys | keyless | clock | shutdown =>
      exact h

/-! ## The number of records -/

theorem size_accept (g : Gateway σ) (m : Message) :
    (g.accept m).1.registry.size = g.registry.size := by
  show (Supervisor.accept g.supervision.autoPersist g.toWorld m).1.registry.size = _
  unfold Supervisor.accept
  split
  case h_1 => rfl
  case h_2 ecu before record hreading =>
    dsimp only
    split
    case isTrue =>
      rw [(World.persist_keeps _ _).2.2]
      exact Registry.size_modify _ _ _
    case isFalse => exact Registry.size_modify _ _ _

theorem size_meet (event : Happening σ)
    (hgoes : ∀ now bus keys, event ≠ .deed (.restart now bus keys)) :
    (g.meet c event).registry.size = g.registry.size := by
  have hrewrites := rewrites_meet c g event hgoes
  generalize (g.meet c event).registry = left at hrewrites
  cases hrewrites with
  | leaves => rfl
  | answers => exact size_accept g _
  | begins | ends => exact Registry.size_modify _ _ _

theorem size_moment (hgoes : ∀ now bus keys, .deed (.restart now bus keys) ∉ events) (k : Nat) :
    (g.moment c events k).registry.size = g.registry.size := by
  refine moment_induction (P := fun g' => g'.registry.size = g.registry.size) rfl ?_ k
  intro g' event hmem hsame
  exact (size_meet event (ne_restart_of_mem hgoes hmem)).trans hsame

/-- An ECU that has a record at one moment has one at every moment. -/
theorem exists_record (hgoes : ∀ now bus keys, .deed (.restart now bus keys) ∉ events)
    {i : Nat} (j : Nat) {ecu : EcuNo} {record : EcuRecord}
    (h : (g.moment c events i).registry.get? ecu = some record) :
    ∃ record', (g.moment c events j).registry.get? ecu = some record' := by
  have hlt : ecu.toNat < (g.moment c events i).registry.size :=
    (List.getElem?_eq_some_iff.mp h).1
  rw [size_moment hgoes, ← size_moment hgoes j] at hlt
  exact ⟨_, List.getElem?_eq_getElem hlt⟩

end Gateway
end VehicleGateway
