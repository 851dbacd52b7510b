import VehicleGateway.Proofs.Config.Accepted
import VehicleGateway.Proofs.Gateway.Records
import VehicleGateway.Proofs.Supervisor.Response

/-!
# The interfaces of the ECUs

On the mock channel a configuration that passes its check puts every ECU on an interface that
exists.  After the start it is the answers of the ECUs alone that move them, and nobody checks where
to.

* `interface_afterResponse` says which answers name an interface: the full report and the identity
  report.  A message `Strays` if it is taken for one of them and names an interface that does not
  exist.
* `within_meet_iff` says that all ECUs stay on interfaces that exist, whatever happens, unless a
  message strays.
* `interfaces_exist_iff` says so of a run, and that no frame is refused for its interface as long as
  none has strayed.
-/

namespace VehicleGateway

/-! ## Records -/

namespace Registry

/-- All ECUs are on interfaces below a number. -/
def Within (interfaces : UInt8) (r : Registry) : Prop :=
  ∀ record ∈ r.records, record.interface < interfaces

variable {interfaces : UInt8} {r : Registry} {ecu : EcuNo}

theorem Within.get? {record : EcuRecord} (h : r.Within interfaces)
    (hget : r.get? ecu = some record) : record.interface < interfaces :=
  h record (List.mem_of_getElem? hget)

/-- A change of one record keeps to the interfaces if the new record does. -/
theorem Within.modify {f : EcuRecord → EcuRecord} (h : r.Within interfaces)
    (hf : ∀ record, r.get? ecu = some record → (f record).interface < interfaces) :
    (r.modify ecu f).Within interfaces :=
  forall_modify h hf

end Registry

/-! ## Answers -/

namespace EcuRecord

/-- A full report names the interface in its second byte. -/
theorem interface_of_ofReport {payload : Bytes} {record : EcuRecord}
    (h : ofReport payload = .ok record) : payload[1]? = some record.interface := by
  unfold ofReport at h
  split at h
  case h_2 => cases h
  case h_1 =>
    obtain ⟨order, -, h⟩ := exists_of_bind_ok h
    obtain ⟨protocol, -, h⟩ := exists_of_bind_ok h
    obtain ⟨status, -, h⟩ := exists_of_bind_ok h
    obtain rfl := Except.ok.inj h
    rfl

/-- So does an identity report. -/
theorem interface_of_withIdentity {before after : EcuRecord} {payload : Bytes}
    (h : before.withIdentity payload = .ok after) : payload[1]? = some after.interface := by
  unfold withIdentity at h
  split at h
  case h_2 => cases h
  case h_1 =>
    obtain ⟨protocol, -, h⟩ := exists_of_bind_ok h
    obtain rfl := Except.ok.inj h
    rfl

/-- The commands whose answers name an interface. -/
def namesInterface (o : Opcode) : Bool :=
  o = .reportAll || o = .reportIdentity

/-- The interface of an ECU after an answer of it. -/
theorem interface_afterResponse {before after : EcuRecord} {o : Opcode} {payload : Bytes}
    (h : before.afterResponse o payload = .ok after) :
    if namesInterface o then payload[1]? = some after.interface
    else after.interface = before.interface := by
  cases o with
  | reportAll =>
    obtain ⟨report, hreport, rfl⟩ := exists_of_map_ok h
    have hnamed := interface_of_ofReport hreport
    exact hnamed
  | reportIdentity => exact interface_of_withIdentity h
  | reportVersion =>
    simp only [afterResponse, withVersion] at h
    split at h
    case h_1 =>
      obtain rfl := Except.ok.inj h
      rfl
    case h_2 => cases h
  | reportStatus =>
    obtain ⟨status, -, rfl⟩ := exists_of_map_ok h
    rfl
  | reset | sleep =>
    obtain rfl := Except.ok.inj h
    rfl

end EcuRecord

namespace Supervisor

/-- A message that is taken for a report of its ECU and names an interface that does not exist. -/
structure Strays (interfaces : UInt8) (r : Registry) (m : Message) : Prop where
  read : ∃ ecu o before after, question m = .ok (ecu, o) ∧
    (o = .reportAll ∨ o = .reportIdentity) ∧ reading r m = .ok (ecu, before, after)
  named : ∃ interface, m.payload[1]? = some interface ∧ interfaces ≤ interface

variable {σ : Type} [Storage σ] {persists : Bool} {w : World σ} {m : Message} {interfaces : UInt8}

/-- An answer keeps all ECUs on interfaces that exist exactly if it does not stray. -/
theorem within_accept_iff (h : w.registry.Within interfaces) :
    (accept persists w m).1.registry.Within interfaces ↔ ¬ Strays interfaces w.registry m := by
  cases hreading : reading w.registry m with
  | error failure =>
    rw [accept_of_refused hreading]
    refine iff_of_true h ?_
    rintro ⟨⟨ecu, o, before, after, -, -, hread⟩, -⟩
    cases hreading.symm.trans hread
  | ok read =>
    obtain ⟨ecu, before, after⟩ := read
    obtain ⟨hbefore, o, hquestion, hafter⟩ := exists_of_reading hreading
    have hinterface := EcuRecord.interface_afterResponse hafter
    rw [accept_of_read hreading]
    constructor
    · rintro hwithin ⟨⟨ecu', o', before', after', hquestion', hnames, hread⟩, interface, hpayload,
        houtside⟩
      obtain ⟨rfl, rfl⟩ := Prod.mk.inj (Except.ok.inj (hquestion.symm.trans hquestion'))
      rw [if_pos (by simpa [EcuRecord.namesInterface] using hnames), hpayload,
        Option.some.injEq] at hinterface
      have hnow : (w.registry.replace ecu after).get? ecu = some after := by
        simp [Registry.replace, Registry.get?_modify, hbefore]
      have hinside : after.interface < interfaces := hwithin.get? hnow
      rw [← hinterface] at hinside
      exact UInt8.not_le.mpr hinside houtside
    · intro hstays
      refine h.modify fun old hold => ?_
      obtain rfl := Option.some.inj (hbefore.symm.trans hold)
      split at hinterface
      case isTrue hnames =>
        refine UInt8.not_le.mp fun houtside => hstays ⟨⟨ecu, o, before, after, hquestion, ?_,
          hreading⟩, _, hinterface, houtside⟩
        simpa [EcuRecord.namesInterface] using hnames
      case isFalse =>
        rw [hinterface]
        exact h.get? hbefore

end Supervisor

namespace Gateway

variable {σ : Type} [Storage σ] {c : Config} {g : Gateway σ} {events : List (Happening σ)}
  {interfaces : UInt8}

/-! ## Runs -/

/-- Whatever happens, all ECUs stay on interfaces that exist unless a message strays. -/
theorem within_meet_iff {event : Happening σ}
    (hgoes : ∀ now bus keys, event ≠ .deed (.restart now bus keys))
    (h : g.registry.Within interfaces) :
    (g.meet c event).registry.Within interfaces ↔
      ∀ m, g.applies? event = some m → ¬ Supervisor.Strays interfaces g.registry m := by
  have hrewrites := rewrites_meet c g event hgoes
  generalize (g.meet c event).registry = left at hrewrites
  cases hrewrites with
  | leaves hnone => exact iff_of_true h (by simp [hnone])
  | @answers m happlies =>
    simp only [happlies, Option.some.injEq, forall_eq']
    exact Supervisor.within_accept_iff h
  | begins hnone | ends hnone =>
    -- An update leaves the interface of its ECU.
    refine iff_of_true (h.modify fun record hrecord => ?_) (by simp [hnone])
    have hinside : record.interface < interfaces := h.get? hrecord
    exact hinside

/-- Sessions are on interfaces that exist, as they take them over from the records. -/
theorem sessions_within (hgoes : ∀ now bus keys, .deed (.restart now bus keys) ∉ events)
    (hnone : g.sessions = []) {k : Nat}
    (h : ∀ j ≤ k, (g.moment c events j).registry.Within interfaces) :
    ∀ s ∈ (g.moment c events k).sessions, s.interface < interfaces := by
  induction k with
  | zero => simp [moment_zero, hnone]
  | succ k ih =>
    have hbefore := ih fun j hj => h j (Nat.le_succ_of_le hj)
    rcases moment_cases (c := c) (g := g) hgoes k with ⟨event, -, hdealing⟩ | ⟨-, hsame⟩
    case inr =>
      rw [hsame]
      exact hbefore
    generalize g.moment c events (k + 1) = g' at hdealing
    cases hdealing with
    | aside hsame | post _ hsame =>
      rw [hsame.sessions]
      exact hbefore
    | start hstart =>
      obtain ⟨record, hrecord, -, -, rfl⟩ := World.startUpdate_parts hstart
      refine List.forall_mem_append.mpr ⟨hbefore, ?_⟩
      simpa using (h k (Nat.le_succ k)).get? hrecord
    | @session n s s' w hs hstep =>
      intro other hother
      rcases List.mem_or_eq_of_mem_set hother with hold | rfl
      · exact hbefore other hold
      · have hkeeps : other.interface = s.interface := by rw [Session.step?_keeps hstep]
        rw [hkeeps]
        exact hbefore s (List.mem_of_getElem? hs)

/-- The frames that a gateway can hand to the bus now. -/
inductive CanSend (g : Gateway σ) : Frame → Prop where
  /-- A command, asked for by a caller or by the heartbeat. -/
  | command {ecu : EcuNo} {record : EcuRecord} (o : Opcode)
      (hrecord : g.registry.get? ecu = some record) :
    CanSend g (Supervisor.requestFrame record ecu o)
  /-- A data message for one of its destinations. -/
  | forward {ecu : EcuNo} {record : EcuRecord} (f : Forwarding)
      (hrecord : g.registry.get? ecu = some record) : CanSend g (f.frame record.interface)
  /-- A frame of an update. -/
  | session {s : Session} (code : UInt8) (payload : Bytes) (hs : s ∈ g.sessions) :
    CanSend g (s.frame code payload)

omit [Storage σ] in
theorem CanSend.interface_lt {f : Frame} (h : g.CanSend f) (hrecords : g.registry.Within interfaces)
    (hsessions : ∀ s ∈ g.sessions, s.interface < interfaces) : f.interface < interfaces := by
  cases h with
  | command o hrecord => exact hrecords.get? hrecord
  | forward f hrecord => exact hrecords.get? hrecord
  | session code payload hs => exact hsessions _ hs

omit [Storage σ] in
/-- A frame for an interface that exists is not refused for it. -/
theorem launch_ne_unknownInterface {w : World σ} {f : Frame} (h : f.interface < w.bus.interfaces)
    (wait : Nat) (i : UInt8) : w.launch wait f ≠ .error (.unknownInterface i) := by
  have hinside : ¬ w.bus.interfaces ≤ f.interface := UInt8.not_le.mpr h
  unfold World.launch Bus.launch Bus.refusal
  rw [if_neg hinside]
  split
  case h_1 fault hrefusal =>
    split at hrefusal
    case isTrue =>
      obtain rfl := Option.some.inj hrefusal
      simp
    case isFalse =>
      split at hrefusal
      case isTrue =>
        obtain rfl := Option.some.inj hrefusal
        simp
      case isFalse => cases hrefusal
  case h_2 => simp

section

variable {latency now : Nat} {bus : Bus} {storage : σ} {keys : Option Vault}

theorem check_of_start (h : Gateway.start c now bus storage keys = .ok g) :
    c.check = .ok () ∧ g.bus = bus := by
  unfold Gateway.start at h
  split at h
  case h_1 | h_2 => cases h
  case h_3 hchecked _ =>
    obtain rfl := Except.ok.inj h
    exact ⟨hchecked, rfl⟩

/-- Without stored records a gateway starts with those of a configuration that was checked. -/
theorem within_start (hmock : c.transport = .mock interfaces latency)
    (hempty : ∀ ecu data, Storage.readRecord storage ecu ≠ .ok (some data))
    (hstart : Gateway.start c now bus storage keys = .ok g) : g.registry.Within interfaces := by
  rw [(start_eq hstart).1, restore_of_empty c.registry hempty]
  intro record hrecord
  obtain ⟨e, he, rfl⟩ := List.mem_map.mp hrecord
  exact Config.interface_lt_of_check hmock (check_of_start hstart).1 e he

/-- All ECUs are on interfaces that exist exactly as long as no message strays; and as long as they
are, no frame is refused for its interface. -/
theorem interfaces_exist_iff (hmock : c.transport = .mock interfaces latency)
    (hbus : bus.interfaces = interfaces)
    (hempty : ∀ ecu data, Storage.readRecord storage ecu ≠ .ok (some data))
    (hstart : Gateway.start c now bus storage keys = .ok g)
    (hgoes : ∀ now bus keys, .deed (.restart now bus keys) ∉ events)
    (hothers : ∀ bus storage, .deed (.others bus storage) ∈ events → bus.interfaces = interfaces)
    (k : Nat) :
    ((∀ j ≤ k, ∀ record ∈ (g.moment c events j).registry.records, record.interface < interfaces) ↔
        ∀ j < k, ∀ event m, events[j]? = some event →
          (g.moment c events j).applies? event = some m →
            ¬ Supervisor.Strays interfaces (g.moment c events j).registry m) ∧
      ((∀ j ≤ k, ∀ record ∈ (g.moment c events j).registry.records,
          record.interface < interfaces) →
        ∀ f, (g.moment c events k).CanSend f → ∀ wait i,
          (g.moment c events k).launch wait f ≠ .error (.unknownInterface i)) := by
  refine ⟨⟨?_, ?_⟩, ?_⟩
  · intro hwithin j hj event m hevent happlies
    have hnext := hwithin (j + 1) hj
    rw [moment_succ hevent] at hnext
    exact (within_meet_iff (ne_restart_of_mem hgoes (List.mem_of_getElem? hevent))
      (hwithin j (Nat.le_of_lt hj))).mp hnext m happlies
  · intro hstays j
    induction j with
    | zero => exact fun _ => within_start hmock hempty hstart
    | succ j ih =>
      intro hj
      have hbefore : (g.moment c events j).registry.Within interfaces := ih (Nat.le_of_lt hj)
      cases hevent : events[j]? with
      | none =>
        rw [moment_of_none hevent]
        exact hbefore
      | some event =>
        rw [moment_succ hevent]
        exact (within_meet_iff (ne_restart_of_mem hgoes (List.mem_of_getElem? hevent)) hbefore).mpr
          fun m happlies => hstays j hj event m hevent happlies
  · intro hwithin f hsends wait i
    have hstill : (g.moment c events k).bus.interfaces = interfaces := by
      refine moment_induction (P := fun g' => g'.bus.interfaces = interfaces) ?_ ?_ k
      · rw [(check_of_start hstart).2, hbus]
      · intro g' event hmem hbefore
        refine interfaces_meet (ne_restart_of_mem hgoes hmem) ?_ hbefore
        rintro bus' storage' rfl
        exact hothers bus' storage' hmem
    refine launch_ne_unknownInterface ?_ wait i
    rw [hstill]
    exact hsends.interface_lt (hwithin k (Nat.le_refl k))
      (sessions_within hgoes (start_eq hstart).2 hwithin)

end

/-! ## A report of an interface that exists, and one of an interface that does not -/

/-- A full report of an ECU comes in, is queued for the supervisor and applied. -/
def reportedOn (interface : UInt8) : List (Happening Memory) :=
  [.deed (.inject ⟨0, (Identifier.command 0 Opcode.reportAll.code).raw,
      EcuRecord.report { protocol := .can, interface }⟩),
    .deed (.move .receiver), .deed (.move .router), .deed (.move .supervisor)]

/-- What is shown of a gateway with one ECU that was started without records. -/
def singleShown {α : Type} (show? : Gateway Memory → α) : Option α :=
  match Gateway.start singleConfig 0 { interfaces := 4 } ({} : Memory) none with
  | .ok g => some (show? g)
  | .error _ => none

theorem exists_of_singleShown {α : Type} {show? : Gateway Memory → α} {a : α}
    (h : singleShown show? = some a) :
    ∃ g, Gateway.start singleConfig 0 { interfaces := 4 } ({} : Memory) none = .ok g ∧
      show? g = a := by
  unfold singleShown at h
  split at h
  case h_1 g hstart => exact ⟨g, hstart, Option.some.inj h⟩
  case h_2 => cases h

/-- The ECU reports that it is on the last interface, and nothing is refused for it. -/
theorem last_interface_exists :
    ∃ g, Gateway.start singleConfig 0 { interfaces := 4 } ({} : Memory) none = .ok g ∧
      (g.moment singleConfig (reportedOn 3) 4).registry =
        ⟨[{ protocol := .can, interface := 3 }]⟩ ∧
      ∀ f, (g.moment singleConfig (reportedOn 3) 4).CanSend f → ∀ wait i,
        (g.moment singleConfig (reportedOn 3) 4).launch wait f ≠ .error (.unknownInterface i) := by
  have hshown : singleShown (fun g => ((List.range 5).all fun j =>
      (g.moment singleConfig (reportedOn 3) j).registry.records.all fun record =>
        record.interface < 4, (g.moment singleConfig (reportedOn 3) 4).registry)) =
      some (true, ⟨[{ protocol := .can, interface := 3 }]⟩) := by decide +kernel
  obtain ⟨g, hstart, hall⟩ := exists_of_singleShown hshown
  obtain ⟨hwithin, hregistry⟩ := Prod.mk.inj hall
  refine ⟨g, hstart, hregistry, ?_⟩
  have hmock : singleConfig.transport = .mock 4 0 := rfl
  refine (interfaces_exist_iff hmock rfl readRecord_empty hstart (by simp [reportedOn])
    (by simp [reportedOn]) 4).2 ?_
  simpa [Nat.lt_succ_iff] using hwithin

/-- The ECU reports that it is on an interface that does not exist.  The report is taken over, and
nothing can be sent to the ECU any more. -/
theorem stray_report_taken :
    ∃ g, Gateway.start singleConfig 0 { interfaces := 4 } ({} : Memory) none = .ok g ∧
      (g.moment singleConfig (reportedOn 200) 4).registry =
        ⟨[{ protocol := .can, interface := 200 }]⟩ ∧
      ∀ wait o, Supervisor.request (g.moment singleConfig (reportedOn 200) 4).toWorld wait 0 o =
        .error (BusFault.unknownInterface 200).failure := by
  have hshown : singleShown (fun g => ((g.moment singleConfig (reportedOn 200) 4).registry,
      (g.moment singleConfig (reportedOn 200) 4).bus.connected,
      (g.moment singleConfig (reportedOn 200) 4).bus.interfaces)) =
      some (⟨[{ protocol := .can, interface := 200 }]⟩, true, 4) := by decide +kernel
  obtain ⟨g, hstart, hall⟩ := exists_of_singleShown hshown
  obtain ⟨hregistry, hbus⟩ := Prod.mk.inj hall
  obtain ⟨hconnected, hinterfaces⟩ := Prod.mk.inj hbus
  refine ⟨g, hstart, hregistry, fun wait o => ?_⟩
  simp [Supervisor.request, hregistry, Registry.get, Registry.get?, World.launch, Bus.launch,
    Bus.refusal, hconnected, hinterfaces, Supervisor.requestFrame]

end Gateway
end VehicleGateway
