import VehicleGateway.Proofs.Ecu.Stored
import VehicleGateway.Proofs.Gateway.Run
import VehicleGateway.Proofs.Message.Heading
import VehicleGateway.Proofs.Storage.Lawful

/-!
# What an answer changes

A message from an ECU is judged as a whole.  Either it is refused, and then it is as if it had not
come; or the record of its ECU is replaced by the one that the message and the old record determine,
and stored if it has changed and records are to be stored.

* `heading_of_reading` and `reading_of_command` say whose record a message is read for, and when.
* `accept_of_refused` and `accept_of_read` say what is left of the world in either case.
* `Applied` collects what an answer may do: to the other ECUs, to updates, by a full report and to
  the storage.
-/

namespace VehicleGateway

/-- Replacing the record of an ECU changes that position only. -/
theorem Registry.getElem?_replace (r : Registry) (ecu : EcuNo) (record : EcuRecord) {i : Nat}
    (h : i ≠ ecu.toNat) : (r.replace ecu record).records[i]? = r.records[i]? := by
  simp [replace, modify, Ne.symm h]

namespace Supervisor

variable {σ : Type}

/-- The ECU and the command in question are those that the identifier names. -/
theorem heading_of_question {m : Message} {ecu : EcuNo} {o : Opcode}
    (h : question m = .ok (ecu, o)) :
    ∃ code, m.id.heading = .ok (.command ecu code) ∧ Opcode.ofCode code = .ok o := by
  unfold question at h
  split at h
  case h_1 asked code hheading =>
    split at h
    case h_1 found hcode =>
      obtain ⟨rfl, rfl⟩ := Prod.mk.inj (Except.ok.inj h)
      exact ⟨code, hheading, hcode⟩
    case h_2 => cases h
  case h_2 => cases h

/-- What is read in a message comes from the ECU that it names. -/
theorem heading_of_reading {registry : Registry} {m : Message} {ecu : EcuNo}
    {before record : EcuRecord} (h : reading registry m = .ok (ecu, before, record)) :
    ∃ code, m.id.heading = .ok (.command ecu code) := by
  obtain ⟨-, o, hquestion, -⟩ := exists_of_reading h
  obtain ⟨code, hheading, -⟩ := heading_of_question hquestion
  exact ⟨code, hheading⟩

/-- A response that makes sense for the record of its ECU is read. -/
theorem reading_of_command {registry : Registry} {m : Message} {ecu : EcuNo} {o : Opcode}
    {before record : EcuRecord} (hheading : m.id.heading = .ok (.command ecu o.code))
    (hbefore : registry.get? ecu = some before)
    (hafter : before.afterResponse o m.payload = .ok record) :
    reading registry m = .ok (ecu, before, record) := by
  simp [reading, question, hheading, Opcode.ofCode_code, Registry.get, hbefore, hafter, bind,
    Except.bind]

/-- A full report replaces all of a record but, during an update or by one, the status. -/
theorem reading_of_report {registry : Registry} {m : Message} {ecu : EcuNo} {old r : EcuRecord}
    {rest : Bytes} (hheading : m.id.heading = .ok (.command ecu Opcode.reportAll.code))
    (hpayload : m.payload = r.report ++ rest) (hold : registry.get? ecu = some old) :
    reading registry m = .ok (ecu, old, { r with status := old.status.after r.status }) := by
  apply reading_of_command hheading hold
  simp [EcuRecord.afterResponse, hpayload, EcuRecord.ofReport_report, Except.map]

variable [Storage σ] {persists : Bool} {w : World σ} {m : Message}

theorem accept_of_refused {failure : Failure} (h : reading w.registry m = .error failure) :
    accept persists w m = (w, .error failure) := by
  unfold accept
  rw [h]

/-- A message that is read replaces the record, and is stored if that makes a difference. -/
theorem accept_of_read {ecu : EcuNo} {before record : EcuRecord}
    (h : reading w.registry m = .ok (ecu, before, record)) :
    accept persists w m =
      ({ w with
          registry := w.registry.replace ecu record
          storage :=
            if record ≠ before ∧ persists then
              match Storage.writeRecord w.storage ecu record.encode with
              | .ok stored => stored
              | .error _ => w.storage
            else w.storage }, .ok record) := by
  obtain ⟨hbefore, -⟩ := exists_of_reading h
  have hrecord : (w.registry.replace ecu record).get? ecu = some record := by
    simp [Registry.replace, Registry.get?_modify, hbefore]
  unfold accept
  rw [h]
  dsimp only
  split
  case isTrue =>
    have hpersist := World.persist_eq (w := { w with registry := w.registry.replace ecu record })
      hrecord
    exact congrArg (·, Except.ok record) hpersist
  case isFalse => rfl

/-- What an answer makes of a world `w` when it is applied and records are stored if `persists`:
what is left is `left`, and `answer` is what is said of it. -/
structure Applied (persists : Bool) (w : World σ) (m : Message) (left : World σ)
    (answer : Except Failure EcuRecord) : Prop where
  /-- Nothing but records and the storage is touched. -/
  parts : left = { w with registry := left.registry, storage := left.storage }
  /-- Every record stays but that of the ECU which the message names. -/
  others : ∀ i, (∀ ecu code, m.id.heading = .ok (.command ecu code) → i ≠ ecu.toNat) →
    left.registry.records[i]? = w.registry.records[i]?
  size : left.registry.size = w.registry.size
  /-- What is refused has no effect at all. -/
  refused : ∀ failure, answer = .error failure → left = w
  /-- The record that is answered is the one that the ECU has now. -/
  answered : ∀ record, answer = .ok record →
    ∃ ecu code, m.id.heading = .ok (.command ecu code) ∧ left.registry.get? ecu = some record
  updating : ∀ ecu, left.registry.status? ecu = some .updating ↔
    w.registry.status? ecu = some .updating
  /-- A full report, with anything after it, is taken over but for the status during an update. -/
  report : ∀ (ecu : EcuNo) (old r : EcuRecord) (rest : Bytes),
    m.id.heading = .ok (.command ecu Opcode.reportAll.code) → m.payload = r.report ++ rest →
    w.registry.get? ecu = some old →
    ∃ record, answer = .ok record ∧ left.registry.get? ecu = some record ∧
      record = { r with
        status := if old.status = .updating ∨ r.status = .updating then old.status else r.status }
  /-- A record that has changed is stored, unless the storage refuses it. -/
  stored : ∀ ecu code before record, m.id.heading = .ok (.command ecu code) →
    w.registry.get? ecu = some before → answer = .ok record → record ≠ before → persists = true →
    match Storage.writeRecord w.storage ecu record.encode with
    | .ok _ => Storage.readRecord left.storage ecu = .ok (some record.encode) ∧
        ∀ other, other ≠ ecu →
          Storage.readRecord left.storage other = Storage.readRecord w.storage other
    | .error _ => left.storage = w.storage
  /-- Otherwise the storage is not written. -/
  unwritten : ∀ ecu code before record, m.id.heading = .ok (.command ecu code) →
    w.registry.get? ecu = some before → answer = .ok record → record = before ∨ persists = false →
    left.storage = w.storage

theorem accept_applied [LawfulStorage σ] (persists : Bool) (w : World σ) (m : Message) :
    Applied persists w m (accept persists w m).1 (accept persists w m).2 := by
  have hupdating := (accept_updating persists w m).1
  cases hreading : reading w.registry m with
  | error failure =>
    rw [accept_of_refused hreading] at hupdating ⊢
    refine ⟨rfl, fun _ _ => rfl, rfl, fun _ _ => rfl, fun _ h => (by cases h), hupdating, ?_,
      fun _ _ _ _ _ _ h => (by cases h), fun _ _ _ _ _ _ h => (by cases h)⟩
    -- A full report of an ECU with a record is never refused.
    intro ecu old r rest hheading hpayload hold
    cases hreading.symm.trans (reading_of_report hheading hpayload hold)
  | ok read =>
    obtain ⟨ecu, before, record⟩ := read
    obtain ⟨code, hheading⟩ := heading_of_reading hreading
    obtain ⟨hbefore, -⟩ := exists_of_reading hreading
    have hrecord : (w.registry.replace ecu record).get? ecu = some record := by
      simp [Registry.replace, Registry.get?_modify, hbefore]
    -- The identifier names one ECU only, and that has one record.
    have hnamed {other : EcuNo} {code' : UInt8} (h : m.id.heading = .ok (.command other code')) :
        other = ecu := by
      cases hheading.symm.trans h
      rfl
    rw [accept_of_read hreading] at hupdating ⊢
    refine ⟨rfl, ?_, Registry.size_modify _ _ _, fun _ h => (by cases h), ?_, hupdating, ?_, ?_, ?_⟩
    · intro i hi
      exact w.registry.getElem?_replace ecu record (hi ecu code hheading)
    · rintro _ ⟨⟩
      exact ⟨ecu, code, hheading, hrecord⟩
    · intro other old r rest hcommand hpayload hold
      cases hreading.symm.trans (reading_of_report hcommand hpayload hold)
      exact ⟨_, rfl, hrecord, rfl⟩
    · rintro other code' before' _ hcommand hbefore' ⟨⟩ hchanged hpersists
      obtain rfl := hnamed hcommand
      obtain rfl := Option.some.inj (hbefore.symm.trans hbefore')
      rw [if_pos ⟨hchanged, hpersists⟩]
      cases hwritten : Storage.writeRecord w.storage other record.encode with
      | error fault => rfl
      | ok stored =>
        exact ⟨LawfulStorage.readRecord_of_written hwritten,
          fun _ hne => LawfulStorage.readRecord_of_written_other hne hwritten⟩
    · rintro other code' before' _ hcommand hbefore' ⟨⟩ hsame
      obtain rfl := hnamed hcommand
      obtain rfl := Option.some.inj (hbefore.symm.trans hbefore')
      rw [if_neg]
      rintro ⟨hchanged, hpersists⟩
      rcases hsame with hsame | hsame
      · exact hchanged hsame
      · simp [hsame] at hpersists

/-- Two ECUs, of which the second is under update. -/
def pairWorld : World Memory where
  registry := ⟨[{ protocol := .can, interface := 0 },
    { protocol := .lin, interface := 1, status := .updating }]⟩
  bus := { interfaces := 2 }
  storage := {}

/-- What the second of them says of itself. -/
def awake : EcuRecord where
  protocol := .ethernet
  interface := 3
  order := .little
  secure := true
  version := 0x01020304

/-- It says so with a byte too many. -/
def longReport : Message where
  id := .command 1 Opcode.reportAll.code
  payload := awake.report ++ [9]
  fits := by decide

/-- An ECU under update reports that it is not: all but that is taken over and stored. -/
theorem long_report_applied :
    (accept true pairWorld longReport).1.registry.get? 1 = some { awake with status := .updating } ∧
      Storage.readRecord (accept true pairWorld longReport).1.storage 1 =
        .ok (some { awake with status := .updating }.encode) := by
  have happlied := accept_applied true pairWorld longReport
  have hheading := Identifier.heading_command 1 Opcode.reportAll.code
  obtain ⟨record, hanswer, hrecord, rfl⟩ := happlied.report 1 _ awake [9] hheading rfl rfl
  have hstored := happlied.stored 1 _ _ _ hheading rfl hanswer (by decide) rfl
  exact ⟨hrecord, hstored.1⟩

end Supervisor
end VehicleGateway
