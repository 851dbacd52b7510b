import VehicleGateway.Proofs.Ecu.Stored
import VehicleGateway.Proofs.Storage.Lawful
import VehicleGateway.Registry.Restore

/-!
# What restoring leaves

Restoring is a loop over the ECUs.  What was read for an ECU changes its record alone
(`takeOver_eq`), and so every record is, after the loop, what was read for it makes of it
(`get?_takeAll`).  The loop goes to its end exactly if every record could be read; if not, the ECUs
before the first one that could not be read have been taken over.
-/

namespace VehicleGateway

namespace EcuRecord

variable {data : Bytes} {record : EcuRecord} {fault : RecordFault}

/-- The record of an ECU once what was read for it was taken over. -/
def restored (r : EcuRecord) : Option Bytes → EcuRecord
  | none => r
  | some data =>
    match decode data with
    | .ok record => record
    | .error _ => { r with status := .corrupted }

theorem restored_of_decode (r : EcuRecord) (h : decode data = .ok record) :
    r.restored (some data) = record := by
  simp only [restored, h]

theorem restored_of_fault (r : EcuRecord) (h : decode data = .error fault) :
    r.restored (some data) = { r with status := .corrupted } := by
  simp only [restored, h]

/-- To take the same over twice changes nothing more. -/
@[simp] theorem restored_restored (r : EcuRecord) (stored : Option Bytes) :
    (r.restored stored).restored stored = r.restored stored := by
  cases stored with
  | none => rfl
  | some data =>
    cases hdecode : decode data with
    | ok record => simp only [restored_of_decode _ hdecode]
    | error fault => simp only [restored_of_fault _ hdecode]

/-- Whether bytes are the stored form of a record. -/
def decodes (data : Bytes) : Bool :=
  (decode data).isOk

theorem decodes_of_decode (h : decode data = .ok record) : decodes data = true := by
  rw [decodes, h]
  rfl

theorem decodes_of_fault (h : decode data = .error fault) : decodes data = false := by
  rw [decodes, h]
  rfl

end EcuRecord

/-- Counts an ECU by what was read for it. -/
def Restored.count (found : Restored) : Option Bytes → Restored
  | none => { found with missing := found.missing + 1 }
  | some data =>
    if EcuRecord.decodes data then { found with loaded := found.loaded + 1 }
    else { found with corrupted := found.corrupted + 1 }

namespace Registry

variable {r : Registry} {ecu : EcuNo}

/-! ## Numbers and records -/

theorem mem_numbers : ecu ∈ r.numbers ↔ ecu.toNat < r.size := by
  simp only [numbers, List.mem_map, List.mem_range]
  constructor
  · rintro ⟨i, hi, rfl⟩
    exact Nat.lt_of_le_of_lt (Nat.mod_le i _) hi
  · exact fun h => ⟨ecu.toNat, h, UInt8.ofNat_toNat⟩

theorem length_numbers : r.numbers.length = r.size := by
  simp [numbers]

/-- Up to 256 records each has a number of its own. -/
theorem nodup_numbers (hsize : r.size ≤ 256) : r.numbers.Nodup := by
  refine List.pairwise_map.mpr (List.nodup_range.imp_of_mem fun {i j} hi hj hne h => hne ?_)
  have hmod : i % 256 = j % 256 := by simpa using congrArg UInt8.toNat h
  rw [List.mem_range] at hi hj
  omega

theorem get?_eq_none_iff : r.get? ecu = none ↔ ecu ∉ r.numbers := by
  rw [mem_numbers, get?, List.getElem?_eq_none_iff, Nat.not_lt, size]

theorem exists_get?_iff : (∃ record, r.get? ecu = some record) ↔ ecu ∈ r.numbers := by
  rw [mem_numbers, ← Option.isSome_iff_exists]
  simp [get?, size]

/-- Up to 256 records are known by their numbers. -/
theorem ext_get? {r s : Registry} (hsize : r.size ≤ 256) (hsame : s.size = r.size)
    (h : ∀ ecu, s.get? ecu = r.get? ecu) : s = r := by
  obtain ⟨records⟩ := r
  obtain ⟨records'⟩ := s
  congr 1
  refine List.ext_getElem? fun i => ?_
  by_cases hi : i < 256
  · simpa [get?, Nat.mod_eq_of_lt hi] using h (.ofNat i)
  · simp only [size] at hsize hsame
    rw [List.getElem?_eq_none (by omega), List.getElem?_eq_none (by omega)]

/-- A change that does not change the record of the ECU changes nothing. -/
theorem modify_eq_self {f : EcuRecord → EcuRecord}
    (h : ∀ record, r.get? ecu = some record → f record = record) : r.modify ecu f = r := by
  obtain ⟨records⟩ := r
  simp only [modify, get?] at h ⊢
  congr 1
  refine List.ext_getElem? fun i => ?_
  rw [List.getElem?_modify]
  split
  case isTrue hi =>
    subst hi
    cases hrecord : records[ecu.toNat]? with
    | none => rfl
    | some record => exact congrArg some (h record hrecord)
  case isFalse => exact id_map _

/-! ## The loop -/

theorem takeOver_eq (r : Registry) (found : Restored) (ecu : EcuNo) (stored : Option Bytes) :
    r.takeOver found ecu stored = (r.modify ecu (·.restored stored), found.count stored) := by
  cases stored with
  | none =>
    have hkept : r.modify ecu (·.restored none) = r := modify_eq_self fun _ _ => rfl
    rw [hkept]
    rfl
  | some data =>
    cases hdecode : EcuRecord.decode data with
    | ok record =>
      simp only [takeOver, Restored.count, hdecode, EcuRecord.restored_of_decode _ hdecode,
        EcuRecord.decodes_of_decode hdecode]
      rfl
    | error fault =>
      simp only [takeOver, Restored.count, hdecode, EcuRecord.restored_of_fault _ hdecode,
        EcuRecord.decodes_of_fault hdecode]
      rfl

/-- What was read for some ECUs, taken over. -/
def takeAll (stored : EcuNo → Option Bytes) (ecus : List EcuNo) (r : Registry) : Registry :=
  ecus.foldl (fun r ecu => r.modify ecu (·.restored (stored ecu))) r

/-- What was read for some ECUs, counted. -/
def countAll (stored : EcuNo → Option Bytes) (ecus : List EcuNo) (found : Restored) : Restored :=
  ecus.foldl (fun found ecu => found.count (stored ecu)) found

variable {read : EcuNo → Except StorageFault (Option Bytes)} {stored : EcuNo → Option Bytes}
  {ecus : List EcuNo}

/-- The loop up to any ECU before which all could be read. -/
theorem restoreEach_append {rest : List EcuNo} {found : Restored}
    (h : ∀ ecu ∈ ecus, read ecu = .ok (stored ecu)) :
    restoreEach read (ecus ++ rest) r found =
      restoreEach read rest (r.takeAll stored ecus) (countAll stored ecus found) := by
  induction ecus generalizing r found with
  | nil => rfl
  | cons ecu ecus ih =>
    obtain ⟨hread, hall⟩ := List.forall_mem_cons.mp h
    rw [List.cons_append, restoreEach, hread]
    simp only [takeOver_eq]
    exact ih hall

/-- Either all ECUs can be read, or there is a first one that cannot. -/
theorem read_cases (read : EcuNo → Except StorageFault (Option Bytes)) (ecus : List EcuNo) :
    (∃ stored : EcuNo → Option Bytes, ∀ ecu ∈ ecus, read ecu = .ok (stored ecu)) ∨
      ∃ before ecu rest fault, ∃ stored : EcuNo → Option Bytes, ecus = before ++ ecu :: rest ∧
        (∀ e ∈ before, read e = .ok (stored e)) ∧ read ecu = .error fault := by
  -- What is read for an ECU, as far as it can be read.
  let stored (ecu : EcuNo) : Option Bytes := (read ecu).toOption.join
  have hstored {ecu : EcuNo} {data : Option Bytes} (h : read ecu = .ok data) :
      read ecu = .ok (stored ecu) := by
    simp [stored, h, Except.toOption]
  induction ecus with
  | nil => exact .inl ⟨stored, by simp⟩
  | cons ecu ecus ih =>
    cases hread : read ecu with
    | error fault => exact .inr ⟨[], ecu, ecus, fault, stored, rfl, by simp, hread⟩
    | ok data =>
      rcases ih with ⟨stored', hall⟩ | ⟨before, failing, rest, fault, stored', rfl, hall, hfailing⟩
      · refine .inl ⟨stored, List.forall_mem_cons.mpr ⟨hstored hread, fun e he => ?_⟩⟩
        exact hstored (hall e he)
      · refine .inr ⟨ecu :: before, failing, rest, fault, stored, rfl, ?_, hfailing⟩
        exact List.forall_mem_cons.mpr ⟨hstored hread, fun e he => hstored (hall e he)⟩

/-! ## What the loop leaves -/

@[simp] theorem size_takeAll : (r.takeAll stored ecus).size = r.size := by
  induction ecus generalizing r with
  | nil => rfl
  | cons ecu ecus ih => exact ih.trans (size_modify r ecu _)

theorem get?_takeAll : (r.takeAll stored ecus).get? ecu =
    if ecu ∈ ecus then (r.get? ecu).map (·.restored (stored ecu)) else r.get? ecu := by
  induction ecus generalizing r with
  | nil => rfl
  | cons first ecus ih =>
    show ((r.modify first _).takeAll stored ecus).get? ecu = _
    rw [ih, get?_modify]
    by_cases hfirst : first = ecu
    · -- An ECU that comes again is given the same once more.
      subst hfirst
      simp [Function.comp_def]
    · simp [hfirst, Ne.symm hfirst]

/-- What was taken over changed nothing exactly if it changed none of the records. -/
theorem takeAll_eq_self_iff : r.takeAll stored ecus = r ↔
    ∀ ecu ∈ ecus, ∀ record, r.get? ecu = some record → record.restored (stored ecu) = record := by
  constructor
  · intro h ecu hecu record hrecord
    have hget : (r.takeAll stored ecus).get? ecu = some record := by rw [h, hrecord]
    rw [get?_takeAll, if_pos hecu, hrecord] at hget
    exact Option.some.inj hget
  · intro h
    induction ecus with
    | nil => rfl
    | cons ecu ecus ih =>
      obtain ⟨hfirst, hrest⟩ := List.forall_mem_cons.mp h
      show (r.modify ecu _).takeAll stored ecus = r
      rw [modify_eq_self hfirst]
      exact ih hrest

theorem countAll_eq (found : Restored) : countAll stored ecus found =
    { loaded := found.loaded + ecus.countP fun ecu => (stored ecu).any EcuRecord.decodes
      missing := found.missing + ecus.countP fun ecu => (stored ecu).isNone
      corrupted := found.corrupted + ecus.countP fun ecu =>
        (stored ecu).any fun data => !EcuRecord.decodes data } := by
  induction ecus generalizing found with
  | nil => rfl
  | cons ecu ecus ih =>
    show countAll stored ecus (found.count (stored ecu)) = _
    rw [ih]
    cases hstored : stored ecu with
    | none => simp [Restored.count, hstored, Nat.add_assoc, Nat.add_comm 1]
    | some data =>
      cases hdecodes : EcuRecord.decodes data with
      | true => simp [Restored.count, hstored, hdecodes, Nat.add_assoc, Nat.add_comm 1]
      | false => simp [Restored.count, hstored, hdecodes, Nat.add_assoc, Nat.add_comm 1]

/-! ## The outcomes -/

variable {σ : Type} [Storage σ] {store : σ}

theorem restore_of_read (h : ∀ ecu ∈ r.numbers, Storage.readRecord store ecu = .ok (stored ecu)) :
    r.restore store = (r.takeAll stored r.numbers, .ok (countAll stored r.numbers {})) := by
  have hloop : restoreEach (Storage.readRecord store) (r.numbers ++ []) r {} = _ :=
    restoreEach_append h
  rw [List.append_nil] at hloop
  exact hloop

/-- Restoring succeeds if every record could be read. -/
theorem exists_of_restore_ok {left : Registry} {found : Restored}
    (h : r.restore store = (left, .ok found)) : ∃ stored : EcuNo → Option Bytes,
      (∀ ecu ∈ r.numbers, Storage.readRecord store ecu = .ok (stored ecu)) ∧
        left = r.takeAll stored r.numbers ∧ found = countAll stored r.numbers {} := by
  rcases read_cases (Storage.readRecord store) r.numbers with
    ⟨stored, hall⟩ | ⟨before, ecu, rest, fault, stored, hnumbers, hall, hecu⟩
  · rw [restore_of_read hall, Prod.mk.injEq, Except.ok.injEq] at h
    exact ⟨stored, hall, h.1.symm, h.2.symm⟩
  · rw [restore, hnumbers, restoreEach_append hall, restoreEach, hecu] at h
    cases h

/-- Restoring fails at the first record that cannot be read. -/
theorem exists_of_restore_error {left : Registry} {fault : StorageFault}
    (h : r.restore store = (left, .error fault)) :
    ∃ before ecu rest, ∃ stored : EcuNo → Option Bytes, r.numbers = before ++ ecu :: rest ∧
      (∀ e ∈ before, Storage.readRecord store e = .ok (stored e)) ∧
        Storage.readRecord store ecu = .error fault ∧ left = r.takeAll stored before := by
  rcases read_cases (Storage.readRecord store) r.numbers with
    ⟨stored, hall⟩ | ⟨before, ecu, rest, fault', stored, hnumbers, hall, hecu⟩
  · rw [restore_of_read hall] at h
    cases h
  · rw [restore, hnumbers, restoreEach_append hall, restoreEach, hecu, Prod.mk.injEq,
      Except.error.injEq] at h
    obtain ⟨hleft, rfl⟩ := h
    exact ⟨before, ecu, rest, stored, hnumbers, hall, hecu, hleft.symm⟩

end Registry
end VehicleGateway
