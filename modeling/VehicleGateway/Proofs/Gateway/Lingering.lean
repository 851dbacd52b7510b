import VehicleGateway.Proofs.Gateway.Aftermath
import VehicleGateway.Proofs.Gateway.Outcomes
import VehicleGateway.Proofs.Storage.Lawful

/-!
# Updates that outlive their gateway

Nothing ends the session of an update when its gateway is shut down: it has its turns as before, and
sooner or later it stores the record of its ECU, if it does not send a frame before.  So a gateway
is silent after a shutdown exactly if all of its sessions were over.

* `Blank` storages hold nothing and take every record, so that it shows when one is stored.
* `Speaks` says that something may befall a gateway after which it breaks the silence.
  `speaks_of_released`, `speaks_of_ended`, `speaks_of_ready` and `speaks_of_listening` go back from
  the end of a session to what it may be doing: each takes one step, or rests on those before.
* `silent_iff_over` puts this together with `VehicleGateway.Proofs.Gateway.Aftermath`.
-/

namespace VehicleGateway

/-- A storage that holds nothing and takes every record. -/
structure Blank {σ : Type} [Storage σ] (blank : σ) : Prop where
  record : ∀ ecu, Storage.readRecord blank ecu = .ok none
  taken : ∀ ecu data, ∃ s, Storage.writeRecord blank ecu data = .ok s
  image : ∀ image offset wanted, ∃ fault, Storage.readImage blank image offset wanted = .error fault
  header : ∀ image, ∀ found, Storage.readHeader blank image = .ok found → found = none

/-- To store a record makes a difference to a blank storage. -/
theorem Blank.storage_persist_ne {σ : Type} [Storage σ] [LawfulStorage σ] {w : World σ}
    (h : Blank w.storage) {ecu : EcuNo} {record : EcuRecord}
    (hrecord : w.registry.get? ecu = some record) : (w.persist ecu).storage ≠ w.storage := by
  obtain ⟨stored, hstored⟩ := h.taken ecu record.encode
  have hleft : (w.persist ecu).storage = stored := by
    rw [World.persist_eq hrecord, hstored]
  intro hsame
  have hread := LawfulStorage.readRecord_of_written hstored
  rw [← hleft, hsame, h.record] at hread
  cases hread

/-- A dialogue that is told of a fault has ended. -/
theorem Dialogue.ended_of_failed (d : Dialogue) (fault : UpdateFault) :
    ∃ result, (d.hear (.failed fault)).phase = .ended result := by
  cases hphase : d.phase with
  | ended result => exact ⟨result, by simp [hear, hphase]⟩
  | _ => exact ⟨.error fault, by simp [hear, hphase, fail, close]⟩

/-- Silence ends a dialogue that waits for an answer, and no other starts to wait for one. -/
theorem Dialogue.not_awaiting_of_silence (d : Dialogue) (frame : UpdateFrame) :
    (d.hear .silence).phase ≠ .awaiting frame := by
  cases hphase : d.phase <;> simp [hear, hphase, fail, close]

/-- A vault in which a call has failed. -/
def Vault.failed (n : Nat) : Vault where
  service := {
    timeout := 0
    calls := List.replicate (n + 1) { request := .identify, stage := .ended (.error .closed) } }
  device := { element := { identity := Vector.replicate 15 0, entropy := fun _ => Block.zero } }

theorem Vault.outcome?_failed (n : Nat) : (failed n).outcome? n = some (.error .closed) := by
  simp [failed, outcome?, KeyService.call?, KeyCall.outcome?]

namespace Gateway

variable {σ : Type} [Storage σ] {c : Config} {g : Gateway σ} {n : Nat} {s : Session}

/-- What befalls a gateway may make it break the silence. -/
def Speaks (c : Config) (g : Gateway σ) : Prop :=
  ∃ events, (∀ event ∈ events, Happening.befalls event = true) ∧ ∃ k, ¬ SilentAt c g events k

/-- It breaks the silence if it does so after something has befallen it. -/
theorem Speaks.of_meet (event : Happening σ) (hbefalls : event.befalls = true)
    (h : Speaks c (g.meet c event)) : Speaks c g := by
  obtain ⟨events, hevents, k, hloud⟩ := h
  -- The moments of the later gateway are those of the earlier one, one later.
  refine ⟨event :: events, ?_, k + 1, hloud⟩
  simpa [hbefalls] using hevents

/-- A session has its turn and takes a step. -/
theorem meet_session (c : Config) {w : World σ} {s' : Session} (hs : g.sessions[n]? = some s)
    (hstep : s.step? g.firmware g.toWorld = some (w, s')) :
    g.meet c (.deed (.move (.session n))) =
      { g with toWorld := w, sessions := g.sessions.set n s' } := by
  simp [meet, act, step?, sessionStep?, hs, hstep]

/-- A step of a session that sends a frame or writes to the storage. -/
theorem speaks_of_loud {w : World σ} {s' : Session} (hs : g.sessions[n]? = some s)
    (hstep : s.step? g.firmware g.toWorld = some (w, s'))
    (hloud : g.bus.added w.bus ≠ [] ∨ w.storage ≠ g.storage) : Speaks c g := by
  refine ⟨[.deed (.move (.session n))], by simp [Happening.befalls], 0, ?_⟩
  have hmoved : g.moment c [.deed (.move (.session n))] 1 =
      { g with toWorld := w, sessions := g.sessions.set n s' } := meet_session c hs hstep
  rintro ⟨hsent, hstored⟩
  rcases hloud with hloud | hloud
  · apply hloud
    simpa [sentAt, hmoved, moment_zero] using hsent
  · apply hloud
    simpa [hmoved, moment_zero] using hstored

/-- A step of a session, after which others follow. -/
theorem speaks_of_step {w : World σ} {s' : Session} (hs : g.sessions[n]? = some s)
    (hstep : s.step? g.firmware g.toWorld = some (w, s'))
    (h : Speaks c { g with toWorld := w, sessions := g.sessions.set n s' }) : Speaks c g := by
  apply Speaks.of_meet (.deed (.move (.session n))) rfl
  rw [meet_session c hs hstep]
  exact h

omit [Storage σ] in
theorem getElem?_set_self_of_some {s' : Session} (hs : g.sessions[n]? = some s) :
    (g.sessions.set n s')[n]? = some s' :=
  List.getElem?_set_self (List.getElem?_eq_some_iff.mp hs).1

/-! ## From the end of a session back to its beginning -/

section

variable [LawfulStorage σ] {blank : σ} (hblank : Blank blank)

include hblank

/-- The record of a session that has released its ECU is still to be stored. -/
theorem speaks_of_released {record : EcuRecord} (hs : g.sessions[n]? = some s)
    (hrecord : g.registry.get? s.ecu = some record) (hdoing : s.doing = .released) :
    Speaks c g := by
  apply Speaks.of_meet (.deed (.others g.bus blank)) rfl
  have hstep : s.step? g.firmware { g.toWorld with storage := blank } =
      some (World.persist { g.toWorld with storage := blank } s.ecu,
        { s with doing := .stored }) := by
    simp [Session.step?, hdoing]
  exact speaks_of_loud (g := { g with storage := blank }) hs hstep
    (.inr (hblank.storage_persist_ne hrecord))

theorem speaks_of_ended {record : EcuRecord} {result : Except UpdateFault Unit}
    (hs : g.sessions[n]? = some s) (hrecord : g.registry.get? s.ecu = some record)
    (hdoing : s.doing = .ready) (hended : s.dialogue.phase = .ended result) : Speaks c g := by
  have hstep : s.step? g.firmware g.toWorld = some (s.release g.toWorld result) := by
    simp [Session.step?, hdoing, Dialogue.wish?, Dialogue.result?, hended]
  have hleft : (s.release g.toWorld result).1.registry.get? s.ecu =
      some (record.afterUpdate s.dialogue.progress s.prior result) := by
    simp [Session.release, Registry.get?_modify, hrecord]
  exact speaks_of_step hs hstep
    (speaks_of_released hblank (getElem?_set_self_of_some hs) hleft rfl)

/-- A session that is told of a fault ends. -/
theorem speaks_of_failed {record : EcuRecord} {fault : UpdateFault}
    (hs : g.sessions[n]? = some s) (hrecord : g.registry.get? s.ecu = some record)
    (hstep : s.step? g.firmware g.toWorld = some (g.toWorld, s.tell (.failed fault))) :
    Speaks c g := by
  obtain ⟨result, hended⟩ := s.dialogue.ended_of_failed fault
  exact speaks_of_step hs hstep
    (speaks_of_ended hblank (getElem?_set_self_of_some hs) hrecord rfl hended)

/-- The storage has nothing for the session. -/
theorem speaks_without_storage {record : EcuRecord} {fault : UpdateFault}
    (hs : g.sessions[n]? = some s) (hrecord : g.registry.get? s.ecu = some record)
    (hstep : s.step? g.firmware { g.toWorld with storage := blank } =
      some ({ g.toWorld with storage := blank }, s.tell (.failed fault))) : Speaks c g := by
  apply Speaks.of_meet (.deed (.others g.bus blank)) rfl
  exact speaks_of_failed hblank (g := { g with storage := blank }) hs hrecord hstep

/-- The bus is disconnected when a frame is to be sent. -/
theorem speaks_of_sending {record : EcuRecord} {frame : UpdateFrame} {payload : Bytes}
    (hs : g.sessions[n]? = some s) (hrecord : g.registry.get? s.ecu = some record)
    (hdoing : s.doing = .ready) (hsending : s.dialogue.phase = .sending frame payload) :
    Speaks c g := by
  apply Speaks.of_meet (.deed (.others { g.bus with connected := false } g.storage)) rfl
  have hstep : s.step? g.firmware { g.toWorld with bus := { g.bus with connected := false } } =
      some ({ g.toWorld with bus := { g.bus with connected := false } },
        s.tell (.failed (.bus .connectionClosed))) := by
    simp [Session.step?, hdoing, hsending, Dialogue.wish?, Session.turnTo, World.launch,
      Bus.launch, Bus.refusal, Session.ofSent]
  exact speaks_of_failed hblank (g := { g with bus := { g.bus with connected := false } }) hs
    hrecord hstep

/-- There is no key service any more when one is to be called. -/
theorem speaks_of_calling_none {record : EcuRecord} {command : Command} {want : Want}
    (hs : g.sessions[n]? = some s) (hrecord : g.registry.get? s.ecu = some record)
    (hstep : s.step? g.firmware { g.toWorld with keys := none } =
      some (Session.call { g.toWorld with keys := none } s command want)) : Speaks c g := by
  apply Speaks.of_meet (.keys none) rfl
  exact speaks_of_failed hblank (g := { g with keys := none }) hs hrecord hstep

/-- A session that has not looked for the header finds no storage, or none in the storage. -/
theorem speaks_of_unopened {record : EcuRecord} (hs : g.sessions[n]? = some s)
    (hrecord : g.registry.get? s.ecu = some record) (hdoing : s.doing = .ready)
    (hat : s.dialogue.phase = .unopened) : Speaks c g := by
  cases hheader : Storage.readHeader blank s.image with
  | error fault =>
    have hstep : s.step? g.firmware { g.toWorld with storage := blank } =
        some ({ g.toWorld with storage := blank }, s.tell (.failed (.storage fault))) := by
      simp [Session.step?, hdoing, Dialogue.wish?, hat, Session.turnTo, hheader, Session.ofStorage]
    exact speaks_without_storage hblank hs hrecord hstep
  | ok found =>
    obtain rfl := hblank.header _ _ hheader
    apply Speaks.of_meet (.deed (.others g.bus blank)) rfl
    have hstep : s.step? g.firmware { g.toWorld with storage := blank } =
        some ({ g.toWorld with storage := blank }, s.tell (.header none)) := by
      simp [Session.step?, hdoing, Dialogue.wish?, hat, Session.turnTo, hheader, Session.ofStorage]
    -- Without a header the first frame is next.
    have hsending : (s.tell (.header none)).dialogue.phase = .sending .reset [Firmware.reset] := by
      simp [Session.tell, Dialogue.hear, hat, Dialogue.sendReset, Dialogue.sendByte]
    exact speaks_of_step (g := { g with storage := blank }) hs hstep
      (speaks_of_sending hblank (getElem?_set_self_of_some hs) hrecord rfl hsending)

/-- Whatever a session needs, unless it is an answer, it can be refused. -/
theorem speaks_of_ready {record : EcuRecord} (hs : g.sessions[n]? = some s)
    (hrecord : g.registry.get? s.ecu = some record) (hdoing : s.doing = .ready)
    (hphase : ∀ frame, s.dialogue.phase ≠ .awaiting frame) : Speaks c g := by
  have himage (offset wanted : Nat) (hwish : s.dialogue.wish? = some (.image offset wanted)) :
      Speaks c g := by
    obtain ⟨fault, hfault⟩ := hblank.image s.image offset wanted
    have hstep : s.step? g.firmware { g.toWorld with storage := blank } =
        some ({ g.toWorld with storage := blank }, s.tell (.failed (.storage fault))) := by
      simp [Session.step?, hdoing, hwish, Session.turnTo, hfault, Session.ofStorage]
    exact speaks_without_storage hblank hs hrecord hstep
  cases hat : s.dialogue.phase with
  | ended result => exact speaks_of_ended hblank hs hrecord hdoing hat
  | awaiting frame => exact absurd hat (hphase frame)
  | sending frame payload => exact speaks_of_sending hblank hs hrecord hdoing hat
  | measuring header image =>
    exact himage image.length Dialogue.readSize (by simp [Dialogue.wish?, hat])
  | reading =>
    exact himage s.dialogue.progress.bytes Firmware.chunkSize (by simp [Dialogue.wish?, hat])
  | checking header image =>
    have hstep : s.step? g.firmware { g.toWorld with keys := none } =
        some (Session.call { g.toWorld with keys := none } s
          (.checkMac g.firmware.updateKey image header.tag) .verdict) := by
      simp [Session.step?, hdoing, Dialogue.wish?, hat, Session.turnTo]
    exact speaks_of_calling_none hblank hs hrecord hstep
  | encrypting used chunk =>
    have hstep : s.step? g.firmware { g.toWorld with keys := none } =
        some (Session.call { g.toWorld with keys := none } s
          (.encryptChain g.firmware.updateKey Block.zero (chunk ++ s.dialogue.challenge))
          .data) := by
      simp [Session.step?, hdoing, Dialogue.wish?, hat, Session.turnTo]
    exact speaks_of_calling_none hblank hs hrecord hstep
  | unopened => exact speaks_of_unopened hblank hs hrecord hdoing hat

omit [LawfulStorage σ] hblank in
/-- A session that needs an answer begins to wait for it. -/
theorem speaks_of_awaiting {frame : UpdateFrame} (hs : g.sessions[n]? = some s)
    (hdoing : s.doing = .ready) (hawaiting : s.dialogue.phase = .awaiting frame)
    (h : ∀ (g' : Gateway σ) (s' : Session), g'.sessions[n]? = some s' → g'.toWorld = g.toWorld →
      s' = { s with doing := s'.doing } → ∀ deadline, s'.doing = .listening deadline →
      Speaks c g') : Speaks c g := by
  have hstep : s.step? g.firmware g.toWorld = some (g.toWorld,
      { s with doing := .listening (g.now + g.firmware.ackTimeout) }) := by
    simp [Session.step?, hdoing, Dialogue.wish?, hawaiting, Session.turnTo]
  exact speaks_of_step hs hstep (h _ _ (getElem?_set_self_of_some hs) rfl rfl _ rfl)

/-- A session that waits for an answer gets one message after the other, and at last no more. -/
theorem speaks_of_listening {record : EcuRecord} {deadline : Nat} (hs : g.sessions[n]? = some s)
    (hrecord : g.registry.get? s.ecu = some record) (hdoing : s.doing = .listening deadline) :
    Speaks c g := by
  induction hlength : (g.inboxes.items s.inbox).length using Nat.strongRecOn
    generalizing g s deadline with
  | ind length ih =>
  apply Speaks.of_meet (.deed (.clock deadline)) rfl
  have hs' {s' : Session} : (g.sessions.set n s')[n]? = some s' := getElem?_set_self_of_some hs
  cases htake : g.inboxes.take? s.inbox with
  | none =>
    by_cases hfinished : g.inboxes.finished s.inbox = true
    · have hstep : s.step? g.firmware { g.toWorld with now := deadline } =
          some ({ g.toWorld with now := deadline }, s.tell (.failed .inboxClosed)) := by
        simp [Session.step?, hdoing, Session.listen, htake, hfinished]
      exact speaks_of_failed hblank (g := { g with now := deadline }) hs hrecord hstep
    · have hstep : s.step? g.firmware { g.toWorld with now := deadline } =
          some ({ g.toWorld with now := deadline }, s.tell .silence) := by
        simp [Session.step?, hdoing, Session.listen, htake, hfinished]
      exact speaks_of_step (g := { g with now := deadline }) hs hstep
        (speaks_of_ready hblank hs' hrecord rfl s.dialogue.not_awaiting_of_silence)
  | some taken =>
    obtain ⟨m, inboxes⟩ := taken
    have hitems := Inboxes.items_of_take? htake
    have hfewer : (inboxes.items s.inbox).length < length := by
      rw [← hlength, hitems]
      exact Nat.lt_succ_self _
    have hstep : s.step? g.firmware { g.toWorld with now := deadline } =
        some ({ g.toWorld with now := deadline, inboxes },
          if Session.isAnswer m then s.tell (.reply m.payload) else s) := by
      simp [Session.step?, hdoing, Session.listen, htake]
    refine speaks_of_step (g := { g with now := deadline }) hs hstep ?_
    split
    case isFalse => exact ih _ hfewer hs' hrecord hdoing rfl
    case isTrue =>
      by_cases hawaiting : ∃ frame, (s.tell (.reply m.payload)).dialogue.phase = .awaiting frame
      case neg =>
        exact speaks_of_ready hblank hs' hrecord rfl fun frame h => hawaiting ⟨frame, h⟩
      case pos =>
        -- It waits for the next answer, with the messages that are left.
        obtain ⟨frame, hawaiting⟩ := hawaiting
        refine speaks_of_awaiting hs' rfl hawaiting ?_
        intro g' s' hs' hworld hkept until' hdoing'
        have hinbox : s'.inbox = s.inbox := by rw [hkept]; rfl
        have hecu : s'.ecu = s.ecu := by rw [hkept]; rfl
        have hleft : (g'.inboxes.items s'.inbox).length < length := by
          rw [hworld, hinbox]
          exact hfewer
        exact ih _ hleft hs' (by rw [hworld, hecu]; exact hrecord) hdoing' rfl

/-- A frame that is under way is transmitted, or its session is told that it is not. -/
theorem speaks_of_flying {record : EcuRecord} {flight : Flight} (hs : g.sessions[n]? = some s)
    (hrecord : g.registry.get? s.ecu = some record) (hdoing : s.doing = .flying flight) :
    Speaks c g := by
  apply Speaks.of_meet (.deed (.clock (max flight.arrival flight.limit))) rfl
  by_cases hintime : flight.arrival ≤ flight.limit
  · have hstep : s.step? g.firmware
        { g.toWorld with now := max flight.arrival flight.limit } =
          some ({ g.toWorld with
            now := max flight.arrival flight.limit
            bus := g.bus.transmit (max flight.arrival flight.limit) flight.frame },
            s.tell .sent) := by
      simp [Session.step?, hdoing, World.land?, Bus.land, hintime, Session.ofSent]
    exact speaks_of_loud (g := { g with now := max flight.arrival flight.limit }) hs hstep
      (.inl (by simp [Bus.added, Bus.transmit]))
  · have hstep : s.step? g.firmware
        { g.toWorld with now := max flight.arrival flight.limit } =
          some ({ g.toWorld with now := max flight.arrival flight.limit },
            s.tell (.failed (.bus (.timeout flight.frame.interface)))) := by
      have hover : flight.limit ≤ max flight.arrival flight.limit := Nat.le_max_right _ _
      simp only [Session.step?, hdoing, World.land?, Bus.land, if_neg hintime, if_pos hover]
      rfl
    exact speaks_of_failed hblank (g := { g with now := max flight.arrival flight.limit }) hs
      hrecord hstep

/-- A call fails. -/
theorem speaks_of_calling {record : EcuRecord} {call : Nat} (hs : g.sessions[n]? = some s)
    (hrecord : g.registry.get? s.ecu = some record) (hdoing : s.doing = .calling call) :
    Speaks c g := by
  apply Speaks.of_meet (.keys (some (Vault.failed call))) rfl
  have hstep : s.step? g.firmware { g.toWorld with keys := some (Vault.failed call) } =
      some ({ g.toWorld with keys := some (Vault.failed call) },
        s.tell (.failed (.key .closed))) := by
    simp [Session.step?, hdoing, Vault.outcome?_failed, Session.ofKeys]
  exact speaks_of_failed hblank (g := { g with keys := some (Vault.failed call) }) hs hrecord hstep

/-- A session that is not over breaks the silence, whatever it is doing. -/
theorem speaks_of_open {record : EcuRecord} (hs : g.sessions[n]? = some s)
    (hrecord : g.registry.get? s.ecu = some record) (hopen : s.over = false) : Speaks c g := by
  cases hdoing : s.doing with
  | flying flight => exact speaks_of_flying hblank hs hrecord hdoing
  | calling call => exact speaks_of_calling hblank hs hrecord hdoing
  | listening deadline => exact speaks_of_listening hblank hs hrecord hdoing
  | released => exact speaks_of_released hblank hs hrecord hdoing
  | stored | closed => simp [Session.over, hdoing] at hopen
  | ready =>
    by_cases hawaiting : ∃ frame, s.dialogue.phase = .awaiting frame
    case neg => exact speaks_of_ready hblank hs hrecord hdoing fun frame h => hawaiting ⟨frame, h⟩
    case pos =>
      obtain ⟨frame, hawaiting⟩ := hawaiting
      refine speaks_of_awaiting hs hdoing hawaiting ?_
      intro g' s' hs' hworld hkept deadline hdoing'
      have hecu : s'.ecu = s.ecu := by rw [hkept]
      exact speaks_of_listening hblank hs' (by rw [hworld, hecu]; exact hrecord) hdoing'

end

/-! ## Silence after a shutdown -/

variable {events : List (Happening σ)} {g₀ : Gateway σ}

/-- The ECU of a session has a record. -/
theorem exists_record_of_session {now : Nat} {bus : Bus} {storage : σ} {keys : Option Vault}
    (hstart : Gateway.start c now bus storage keys = .ok g)
    (hgoes : ∀ now bus keys, .deed (.restart now bus keys) ∉ events) (k : Nat) :
    ∀ s ∈ (g.moment c events k).sessions,
      ∃ record, (g.moment c events k).registry.get? s.ecu = some record := by
  induction k with
  | zero =>
    intro s hs
    rw [moment_zero, (start_eq hstart).2] at hs
    cases hs
  | succ k ih =>
    have hstays {ecu : EcuNo} {record : EcuRecord}
        (h : (g.moment c events k).registry.get? ecu = some record) :
        ∃ record, (g.moment c events (k + 1)).registry.get? ecu = some record :=
      exists_record hgoes (k + 1) h
    have hold (s : Session) (hs : s ∈ (g.moment c events k).sessions) :
        ∃ record, (g.moment c events (k + 1)).registry.get? s.ecu = some record := by
      obtain ⟨record, hrecord⟩ := ih s hs
      exact hstays hrecord
    rcases moment_cases (c := c) (g := g) hgoes k with ⟨event, -, hdealing⟩ | ⟨-, hsame⟩
    case inr =>
      rw [hsame] at hold ⊢
      exact hold
    case inl =>
      intro s hs
      generalize hleft : g.moment c events (k + 1) = left at hdealing hold hstays hs ⊢
      cases hdealing with
      | aside hsame | post _ hsame =>
        rw [hsame.sessions] at hs
        exact hold s hs
      | start hstarted =>
        rcases List.mem_append.mp hs with hs | hs
        · exact hold s hs
        · obtain rfl := List.mem_singleton.mp hs
          obtain ⟨record, hrecord, -, -, hnew⟩ := World.startUpdate_parts hstarted
          rw [hnew]
          exact hstays hrecord
      | @session _ found _ _ hfound hstep =>
        rcases List.mem_or_eq_of_mem_set hs with hs | rfl
        · exact hold s hs
        · rw [Session.step?_keeps hstep]
          exact hold found (List.mem_of_getElem? hfound)

/-- After a shutdown nothing is sent or stored but by the steps of sessions that were not over then,
and for a caller who had begun to wait before.  If there was no such caller, then the gateway is
silent whatever befalls it exactly if all its sessions were over. -/
theorem silent_iff_over [LawfulStorage σ] {blank : σ} (hblank : Blank blank) {now : Nat} {bus : Bus}
    {storage : σ} {keys : Option Vault} (hstart : Gateway.start c now bus storage keys = .ok g₀)
    (hgoes : ∀ now bus keys, .deed (.restart now bus keys) ∉ events) (k : Nat)
    (hg : g = g₀.moment c events k) :
    (∀ later : List (Happening σ), (∀ event ∈ later, event.befalls = true) → ∀ i,
      SilentAt c g.shutdown.1 later i ∨
        (∃ n s, later[i]? = some (.deed (.move (.session n))) ∧ g.sessions[n]? = some s ∧
          s.over = false) ∨
          later[i]? = some (.deed (.move .errand)) ∧ g.idle = false) ∧
      (g.idle = true →
        ((∀ later : List (Happening σ), (∀ event ∈ later, event.befalls = true) →
            ∀ i, SilentAt c g.shutdown.1 later i) ↔
          ∀ s ∈ g.sessions, s.over = true)) := by
  refine ⟨fun later hbefalls i => silentAt_or_unfinished hbefalls i, fun hidle => ⟨?_, ?_⟩⟩
  · intro hsilent s hs
    obtain ⟨record, hrecord⟩ : ∃ record, g.registry.get? s.ecu = some record := by
      subst hg
      exact exists_record_of_session hstart hgoes k s hs
    obtain ⟨n, hn⟩ := List.mem_iff_getElem?.mp hs
    by_contra hopen
    obtain ⟨later, hbefalls, i, hloud⟩ :=
      speaks_of_open hblank (c := c) (g := g.shutdown.1) hn hrecord (by simpa using hopen)
    exact hloud (hsilent later hbefalls i)
  · intro hover later hbefalls i
    rcases silentAt_or_unfinished hbefalls i with hsilent | ⟨n, s, -, hs, hopen⟩ | ⟨-, hbusy⟩
    · exact hsilent
    · rw [hover s (List.mem_of_getElem? hs)] at hopen
      cases hopen
    · rw [hidle] at hbusy
      cases hbusy

theorem blank_memory : Blank ({} : Memory) where
  record _ := rfl
  taken _ _ := ⟨_, rfl⟩
  image _ _ _ := ⟨_, rfl⟩
  header _ _ h := (Except.ok.inj h).symm

/-- Whether all sessions are over after an update that had all its answers. -/
def smallOver : Option (List Bool × Bool) :=
  match Gateway.start singleConfig 0 { interfaces := 4 } smallMemory none with
  | .ok g =>
    let left := g.moment singleConfig smallEvents 35
    some (left.sessions.map Session.over, left.idle)
  | .error _ => none

/-- A gateway whose only update has ended is silent after its shutdown. -/
theorem small_update_silent :
    ∃ g, Gateway.start singleConfig 0 { interfaces := 4 } smallMemory none = .ok g ∧
      (g.moment singleConfig smallEvents 35).sessions.length = 1 ∧
      ∀ later : List (Happening Memory), (∀ event ∈ later, event.befalls = true) → ∀ i,
        SilentAt singleConfig (g.moment singleConfig smallEvents 35).shutdown.1 later i := by
  have hshown : smallOver = some ([true], true) := by decide +kernel
  unfold smallOver at hshown
  split at hshown
  case h_2 => cases hshown
  case h_1 g hstart =>
    obtain ⟨hsessions, hidle⟩ := Prod.mk.inj (Option.some.inj hshown)
    have hgoes : ∀ now bus keys, .deed (.restart now bus keys) ∉ smallEvents := by
      simp [smallEvents, answered]
    refine ⟨g, hstart, by simpa using congrArg List.length hsessions, ?_⟩
    refine ((silent_iff_over blank_memory hstart hgoes 35 rfl).2 hidle).mpr ?_
    intro s hs
    have hover : s.over ∈ [true] := by
      rw [← hsessions]
      exact List.mem_map_of_mem hs
    exact List.mem_singleton.mp hover

/-- The turns of a session to which no answer comes. -/
def lateTurns : List (Happening Memory) :=
  List.replicate 4 (.deed (.move (.session 0))) ++ [.deed (.clock 1000000)] ++
    List.replicate 3 (.deed (.move (.session 0)))

/-- What is sent at one and stored by another of these turns, when the gateway was shut down as soon
as the update was started. -/
def lateShown : Option (List Frame × Bool) :=
  match Gateway.start singleConfig 0 { interfaces := 4 } smallMemory none with
  | .ok g =>
    let left := (g.moment singleConfig [.deed (.startUpdate 0 "image" false)] 1).shutdown.1
    some (left.sentAt singleConfig lateTurns 2,
      (left.moment singleConfig lateTurns 8).storage.records.get? 0 ≠
        (left.moment singleConfig lateTurns 7).storage.records.get? 0)
  | .error _ => none

/-- An update is started and the gateway shut down: after that a frame is sent and the record of the
ECU is stored. -/
theorem shutdown_leaves_update :
    ∃ g, Gateway.start singleConfig 0 { interfaces := 4 } smallMemory none = .ok g ∧
      (∀ event ∈ lateTurns, event.befalls = true) ∧
      ((g.moment singleConfig [.deed (.startUpdate 0 "image" false)] 1).shutdown.1).sentAt
        singleConfig lateTurns 2 ≠ [] ∧
      lateTurns[7]? = some (.deed (.move (.session 0))) ∧
      (((g.moment singleConfig [.deed (.startUpdate 0 "image" false)] 1).shutdown.1).moment
          singleConfig lateTurns 8).storage ≠
        (((g.moment singleConfig [.deed (.startUpdate 0 "image" false)] 1).shutdown.1).moment
          singleConfig lateTurns 7).storage := by
  have hshown : lateShown =
      some ([⟨0, (Identifier.firmware 0 Firmware.control).raw, [Firmware.reset]⟩], true) := by
    decide +kernel
  unfold lateShown at hshown
  split at hshown
  case h_2 => cases hshown
  case h_1 g hstart =>
    obtain ⟨hsent, hstored⟩ := Prod.mk.inj (Option.some.inj hshown)
    refine ⟨g, hstart, by simp [lateTurns, Happening.befalls], ?_, rfl, ?_⟩
    · rw [hsent]
      exact List.cons_ne_nil _ _
    · intro hsame
      exact of_decide_eq_true hstored (by rw [hsame])

end Gateway
end VehicleGateway
