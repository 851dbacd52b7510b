import VehicleGateway.Proofs.Gateway.Interfaces
import VehicleGateway.Proofs.Registry.Restoring

/-!
# Who is unresponsive

The gateway has no rule by which it would find an ECU unresponsive.  The status comes from the
outside only: an ECU may report it of itself, and is believed.

* `unresponsive_afterResponse_iff` says which answers make a record unresponsive: a report of that
  status, unless the ECU is under update.
* `reachable_meet_iff` says that nobody becomes unresponsive, whatever happens, unless such a report
  is applied.  A session gives its ECU the status back that it had before, and so it is part of the
  invariant (`Reachable`) that no session remembers that status.
* `never_unresponsive_iff` says so of a run.
-/

namespace VehicleGateway

/-! ## Records -/

/-- A code that means a status is the code of that status. -/
theorem Status.code_of_ofCode {c : UInt8} {s : Status} (h : ofCode c = .ok s) : s.code = c := by
  unfold ofCode at h
  repeat' split at h
  all_goals cases h
  all_goals
    symm
    assumption

theorem Status.eq_unresponsive_iff {c : UInt8} {s : Status} (h : ofCode c = .ok s) :
    s = .unresponsive ↔ c = Status.unresponsive.code := by
  have hcode := code_of_ofCode h
  constructor
  · rintro rfl
    exact hcode.symm
  · rintro rfl
    rw [ofCode_code] at h
    exact (Except.ok.inj h).symm

theorem Status.after_eq_unresponsive_iff {old reported : Status} (hold : old ≠ .unresponsive) :
    old.after reported = .unresponsive ↔ old ≠ .updating ∧ reported = .unresponsive := by
  unfold after
  split
  case isTrue heither =>
    refine iff_of_false hold ?_
    rintro ⟨hnot, rfl⟩
    rcases heither with hupdating | hupdating
    · exact hnot hupdating
    · cases hupdating
  case isFalse hneither =>
    exact ⟨fun h => ⟨fun hupdating => hneither (.inl hupdating), h⟩, fun h => h.2⟩

namespace EcuRecord

/-- The byte in which an answer names the status of its ECU. -/
def saidStatus (payload : Bytes) : Opcode → Option UInt8
  | .reportAll => payload[2]?
  | .reportStatus => payload[0]?
  | _ => none

/-- A full report names the status in its third byte. -/
theorem status_of_ofReport {payload : Bytes} {record : EcuRecord}
    (h : ofReport payload = .ok record) :
    ∃ c, payload[2]? = some c ∧ Status.ofCode c = .ok record.status := by
  unfold ofReport at h
  split at h
  case h_2 => cases h
  case h_1 =>
    obtain ⟨order, -, h⟩ := exists_of_bind_ok h
    obtain ⟨protocol, -, h⟩ := exists_of_bind_ok h
    obtain ⟨status, hstatus, h⟩ := exists_of_bind_ok h
    obtain rfl := Except.ok.inj h
    exact ⟨_, rfl, hstatus⟩

/-- A status report does so in its first byte. -/
theorem status_of_reportedStatus {payload : Bytes} {status : Status}
    (h : reportedStatus payload = .ok status) :
    ∃ c, payload[0]? = some c ∧ Status.ofCode c = .ok status := by
  unfold reportedStatus at h
  split at h
  case h_1 c rest => exact ⟨c, rfl, h⟩
  case h_2 => cases h

/-- An answer makes a record unresponsive exactly if it says so, outside of updates. -/
theorem unresponsive_afterResponse_iff {before after : EcuRecord} {o : Opcode} {payload : Bytes}
    (hbefore : before.status ≠ .unresponsive) (h : before.afterResponse o payload = .ok after) :
    after.status = .unresponsive ↔
      before.status ≠ .updating ∧ saidStatus payload o = some Status.unresponsive.code := by
  cases o with
  | reportAll =>
    obtain ⟨report, hreport, rfl⟩ := exists_of_map_ok h
    obtain ⟨c, hc, hstatus⟩ := status_of_ofReport hreport
    simp only [Status.after_eq_unresponsive_iff hbefore, Status.eq_unresponsive_iff hstatus,
      saidStatus, hc, Option.some.injEq]
  | reportStatus =>
    obtain ⟨status, hreported, rfl⟩ := exists_of_map_ok h
    obtain ⟨c, hc, hstatus⟩ := status_of_reportedStatus hreported
    simp only [Status.after_eq_unresponsive_iff hbefore, Status.eq_unresponsive_iff hstatus,
      saidStatus, hc, Option.some.injEq]
  | reset | sleep =>
    obtain rfl := Except.ok.inj h
    simp [Status.after_eq_unresponsive_iff hbefore, saidStatus]
  | reportIdentity =>
    simp only [afterResponse, withIdentity] at h
    split at h
    case h_1 =>
      obtain ⟨protocol, -, h⟩ := exists_of_bind_ok h
      obtain rfl := Except.ok.inj h
      simp [hbefore, saidStatus]
    case h_2 => cases h
  | reportVersion =>
    simp only [afterResponse, withVersion] at h
    split at h
    case h_1 =>
      obtain rfl := Except.ok.inj h
      simp [hbefore, saidStatus]
    case h_2 => cases h

end EcuRecord

/-- An update makes a record unresponsive only if that was its status before. -/
theorem Progress.status_ne_unresponsive {prior : Status} (hprior : prior ≠ .unresponsive)
    (p : Progress) (result : Except UpdateFault Unit) : p.status prior result ≠ .unresponsive := by
  unfold Progress.status
  split
  · simp
  · split
    · simp
    · split
      · simp
      · exact hprior

namespace Registry

/-- No ECU has the status `unresponsive`. -/
def NoneUnresponsive (r : Registry) : Prop :=
  ∀ record ∈ r.records, record.status ≠ .unresponsive

/-- Restoring keeps what holds of all records, configured and stored, and of those marked. -/
theorem forall_restoreEach {P : EcuRecord → Prop}
    {read : EcuNo → Except StorageFault (Option Bytes)} {ecus : List EcuNo} {r : Registry}
    {found : Restored} (h : ∀ record ∈ r.records, P record)
    (hstored : ∀ ecu data record, read ecu = .ok (some data) → EcuRecord.decode data = .ok record →
      P record)
    (hmarked : ∀ record, P record → P { record with status := .corrupted }) :
    ∀ record ∈ (restoreEach read ecus r found).1.records, P record := by
  induction ecus generalizing r found with
  | nil => exact h
  | cons ecu ecus ih =>
    unfold restoreEach
    split
    case h_1 => exact h
    case h_2 stored hread =>
      simp only [takeOver_eq]
      refine ih (forall_modify h fun record hrecord => ?_)
      have hkept : P record := h record (List.mem_of_getElem? hrecord)
      cases stored with
      | none => exact hkept
      | some data =>
        cases hdecode : EcuRecord.decode data with
        | ok decoded =>
          rw [EcuRecord.restored_of_decode record hdecode]
          exact hstored ecu data decoded hread hdecode
        | error fault =>
          rw [EcuRecord.restored_of_fault record hdecode]
          exact hmarked record hkept

end Registry

/-! ## Answers -/

namespace Supervisor

/-- A message that is taken for a report that its ECU is unresponsive, outside of an update. -/
def SaysUnresponsive (r : Registry) (m : Message) : Prop :=
  ∃ ecu o before after, question m = .ok (ecu, o) ∧ reading r m = .ok (ecu, before, after) ∧
    before.status ≠ .updating ∧
      EcuRecord.saidStatus m.payload o = some Status.unresponsive.code

variable {σ : Type} [Storage σ] {persists : Bool} {w : World σ} {m : Message}

/-- An answer makes an ECU unresponsive exactly if it says so. -/
theorem noneUnresponsive_accept_iff (h : w.registry.NoneUnresponsive) :
    (accept persists w m).1.registry.NoneUnresponsive ↔ ¬ SaysUnresponsive w.registry m := by
  cases hreading : reading w.registry m with
  | error failure =>
    rw [accept_of_refused hreading]
    refine iff_of_true h ?_
    rintro ⟨ecu, o, before, after, -, hread, -⟩
    cases hreading.symm.trans hread
  | ok read =>
    obtain ⟨ecu, before, after⟩ := read
    obtain ⟨hbefore, o, hquestion, hafter⟩ := exists_of_reading hreading
    have hbecomes := EcuRecord.unresponsive_afterResponse_iff
      (h before (List.mem_of_getElem? hbefore)) hafter
    rw [accept_of_read hreading]
    constructor
    · rintro hnone ⟨ecu', o', before', after', hquestion', hread, hsaid⟩
      obtain ⟨rfl, rfl⟩ := Prod.mk.inj (Except.ok.inj (hquestion.symm.trans hquestion'))
      cases hreading.symm.trans hread
      have hnow : (w.registry.replace ecu after).get? ecu = some after := by
        simp [Registry.replace, Registry.get?_modify, hbefore]
      exact hnone after (List.mem_of_getElem? hnow) (hbecomes.mpr hsaid)
    · intro hsilent
      refine Registry.forall_modify h fun _ _ hunresponsive => hsilent ?_
      exact ⟨ecu, o, before, after, hquestion, hreading, hbecomes.mp hunresponsive⟩

end Supervisor

namespace Gateway

variable {σ : Type} [Storage σ] {c : Config} {g : Gateway σ} {events : List (Happening σ)}

/-! ## Runs -/

/-- No ECU is unresponsive, and no session will say so of one. -/
structure Reachable (g : Gateway σ) : Prop where
  records : g.registry.NoneUnresponsive
  sessions : ∀ s ∈ g.sessions, s.prior ≠ .unresponsive

/-- As long as no ECU is unresponsive, no session finds one so at its start. -/
theorem prior_meet_ne_unresponsive {event : Happening σ} (h : g.Reachable)
    (hgoes : ∀ now bus keys, event ≠ .deed (.restart now bus keys)) :
    ∀ s ∈ (g.meet c event).sessions, s.prior ≠ .unresponsive := by
  have hdealing := meet_dealing c g event hgoes
  generalize g.meet c event = g' at hdealing
  cases hdealing with
  | aside hsame | post _ hsame =>
    rw [hsame.sessions]
    exact h.sessions
  | start hstart =>
    obtain ⟨record, hrecord, -, -, rfl⟩ := World.startUpdate_parts hstart
    refine List.forall_mem_append.mpr ⟨h.sessions, ?_⟩
    simpa using h.records record (List.mem_of_getElem? hrecord)
  | @session n s s' w hs hstep =>
    intro other hother
    rcases List.mem_or_eq_of_mem_set hother with hold | rfl
    · exact h.sessions other hold
    · have hkeeps : other.prior = s.prior := by rw [Session.step?_keeps hstep]
      rw [hkeeps]
      exact h.sessions s (List.mem_of_getElem? hs)

/-- Whatever happens, nobody becomes unresponsive unless a report of it is applied. -/
theorem reachable_meet_iff {event : Happening σ} (h : g.Reachable)
    (hgoes : ∀ now bus keys, event ≠ .deed (.restart now bus keys)) :
    (g.meet c event).Reachable ↔
      ∀ m, g.applies? event = some m → ¬ Supervisor.SaysUnresponsive g.registry m := by
  have hsessions := prior_meet_ne_unresponsive (c := c) h hgoes
  have hsplit : (g.meet c event).Reachable ↔ (g.meet c event).registry.NoneUnresponsive :=
    ⟨Reachable.records, fun hrecords => ⟨hrecords, hsessions⟩⟩
  rw [hsplit]
  have hrewrites := rewrites_meet c g event hgoes
  generalize (g.meet c event).registry = left at hrewrites
  cases hrewrites with
  | leaves hnone => exact iff_of_true h.records (by simp [hnone])
  | @answers m happlies =>
    simp only [happlies, Option.some.injEq, forall_eq']
    exact Supervisor.noneUnresponsive_accept_iff h.records
  | begins hnone =>
    exact iff_of_true (Registry.forall_modify h.records fun _ _ => by simp) (by simp [hnone])
  | @ends s result hnone hs =>
    refine iff_of_true (Registry.forall_modify h.records fun record _ => ?_) (by simp [hnone])
    exact s.dialogue.progress.status_ne_unresponsive (h.sessions s hs) result

section

variable {now : Nat} {bus : Bus} {storage : σ} {keys : Option Vault}

/-- A gateway starts so if no stored record says otherwise: a configuration says nothing of it. -/
theorem reachable_start
    (hstored : ∀ ecu data record, Storage.readRecord storage ecu = .ok (some data) →
      EcuRecord.decode data = .ok record → record.status ≠ .unresponsive)
    (hstart : Gateway.start c now bus storage keys = .ok g) : g.Reachable := by
  obtain ⟨hregistry, hnone⟩ := start_eq hstart
  refine ⟨?_, by simp [hnone]⟩
  rw [hregistry]
  refine Registry.forall_restoreEach ?_ hstored (by simp)
  intro record hrecord
  obtain ⟨configured, -, rfl⟩ := List.mem_map.mp hrecord
  simp [EcuConfig.record]

/-- In a run that starts without unresponsive ECUs nobody ever becomes one exactly as long as no
report that an ECU is unresponsive is applied to an ECU that is not under update. -/
theorem never_unresponsive_iff
    (hstored : ∀ ecu data record, Storage.readRecord storage ecu = .ok (some data) →
      EcuRecord.decode data = .ok record → record.status ≠ .unresponsive)
    (hstart : Gateway.start c now bus storage keys = .ok g)
    (hgoes : ∀ now bus keys, .deed (.restart now bus keys) ∉ events) (k : Nat) :
    (∀ j ≤ k, ∀ record ∈ (g.moment c events j).registry.records, record.status ≠ .unresponsive) ↔
      ∀ j < k, ∀ event m, events[j]? = some event →
        (g.moment c events j).applies? event = some m →
          ¬ Supervisor.SaysUnresponsive (g.moment c events j).registry m := by
  have hfirst := reachable_start hstored hstart
  constructor
  · intro hnone
    -- As nobody is unresponsive at any of these moments, no session remembers that anybody was.
    have hreachable (j : Nat) (hj : j ≤ k) : (g.moment c events j).Reachable := by
      induction j with
      | zero => exact hfirst
      | succ j ih =>
        refine ⟨hnone (j + 1) hj, ?_⟩
        have hbefore := ih (Nat.le_of_lt hj)
        cases hevent : events[j]? with
        | none =>
          rw [moment_of_none hevent]
          exact hbefore.sessions
        | some event =>
          rw [moment_succ hevent]
          exact prior_meet_ne_unresponsive hbefore
            (ne_restart_of_mem hgoes (List.mem_of_getElem? hevent))
    intro j hj event m hevent happlies
    have hnext := hreachable (j + 1) hj
    rw [moment_succ hevent] at hnext
    exact (reachable_meet_iff (hreachable j (Nat.le_of_lt hj))
      (ne_restart_of_mem hgoes (List.mem_of_getElem? hevent))).mp hnext m happlies
  · intro hsilent j hj
    suffices hreachable : (g.moment c events j).Reachable from hreachable.records
    induction j with
    | zero => exact hfirst
    | succ j ih =>
      have hbefore := ih (Nat.le_of_lt hj)
      cases hevent : events[j]? with
      | none =>
        rw [moment_of_none hevent]
        exact hbefore
      | some event =>
        rw [moment_succ hevent]
        exact (reachable_meet_iff hbefore
          (ne_restart_of_mem hgoes (List.mem_of_getElem? hevent))).mpr
          fun m happlies => hsilent j hj event m hevent happlies

end

/-! ## Reports of an ECU that it is unresponsive -/

/-- The only ECU reports that it is unresponsive, and the report is queued and applied. -/
def givesUp : List (Happening Memory) :=
  [.deed (.inject ⟨0, (Identifier.command 0 Opcode.reportStatus.code).raw,
      [Status.unresponsive.code]⟩),
    .deed (.move .receiver), .deed (.move .router), .deed (.move .supervisor)]

/-- The report is believed. -/
theorem unresponsive_report_believed :
    ∃ g, Gateway.start singleConfig 0 { interfaces := 4 } ({} : Memory) none = .ok g ∧
      (g.moment singleConfig givesUp 4).registry =
        ⟨[{ protocol := .can, interface := 0, status := .unresponsive }]⟩ := by
  have hshown : singleShown (fun g => (g.moment singleConfig givesUp 4).registry) =
      some ⟨[{ protocol := .can, interface := 0, status := .unresponsive }]⟩ := by decide +kernel
  exact exists_of_singleShown hshown

/-- An ECU under update is not believed: it is under update after the report, and none that was
applied made an ECU unresponsive. -/
theorem report_under_update_ignored :
    ∃ g, Gateway.start singleConfig 0 { interfaces := 4 } ({} : Memory) none = .ok g ∧
      (g.moment singleConfig (.deed (.startUpdate 0 "image" false) :: givesUp) 5).registry =
        ⟨[{ protocol := .can, interface := 0, status := .updating }]⟩ ∧
      ∀ j < 5, ∀ event m,
        (Happening.deed (.startUpdate 0 "image" false) :: givesUp)[j]? = some event →
        (g.moment singleConfig (.deed (.startUpdate 0 "image" false) :: givesUp) j).applies? event =
          some m →
        ¬ Supervisor.SaysUnresponsive
          (g.moment singleConfig (.deed (.startUpdate 0 "image" false) :: givesUp) j).registry
          m := by
  have hshown : singleShown (fun g => ((List.range 6).all fun j =>
      (g.moment singleConfig (.deed (.startUpdate 0 "image" false) :: givesUp) j).registry.records
        |>.all fun record => record.status ≠ .unresponsive,
      (g.moment singleConfig (.deed (.startUpdate 0 "image" false) :: givesUp) 5).registry)) =
      some (true, ⟨[{ protocol := .can, interface := 0, status := .updating }]⟩) := by
    decide +kernel
  obtain ⟨g, hstart, hall⟩ := exists_of_singleShown hshown
  obtain ⟨hnone, hregistry⟩ := Prod.mk.inj hall
  refine ⟨g, hstart, hregistry, ?_⟩
  refine (never_unresponsive_iff ?_ hstart (by simp [givesUp]) 5).mp ?_
  · intro ecu data record hread
    exact absurd hread (readRecord_empty ecu data)
  · simpa [Nat.lt_succ_iff] using hnone

end Gateway
end VehicleGateway
