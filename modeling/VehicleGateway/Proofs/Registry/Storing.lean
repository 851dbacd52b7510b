import VehicleGateway.Proofs.Registry.Restoring

/-!
# Registries are restored as they were stored

The records are stored one after the other under the numbers from zero on.  As long as there are at
most 256 of them no number comes twice, and each record can be read under its own.
-/

namespace VehicleGateway

/-- There are `n` ECUs of a sort. -/
def HowMany (n : Nat) (sort : EcuNo → Prop) : Prop :=
  ∃ group : List EcuNo, group.Nodup ∧ group.length = n ∧ ∀ ecu, ecu ∈ group ↔ sort ecu

namespace Registry

variable {σ : Type} [Storage σ]

/-! ## Storing -/

/-- Every record stands under its own number, and other numbers are left alone. -/
theorem storeEach_keeps [LawfulStorage σ] {records : List EcuRecord} {i : Nat} {store kept : σ}
    (hroom : i + records.length ≤ 256) (h : storeEach i records store = (kept, .ok ())) :
    (∀ (j : Nat) (record : EcuRecord), records[j]? = some record →
        Storage.readRecord kept (.ofNat (i + j)) = .ok (some record.encode)) ∧
      ∀ ecu : EcuNo, ecu.toNat < i → Storage.readRecord kept ecu = Storage.readRecord store ecu := by
  induction records generalizing i store with
  | nil =>
    cases h
    exact ⟨nofun, fun _ _ => rfl⟩
  | cons record records ih =>
    rw [List.length_cons] at hroom
    rw [storeEach] at h
    split at h
    case h_1 => cases h
    case h_2 store' hwrite =>
      obtain ⟨hstored, hbefore⟩ := ih (by omega) h
      have hnumber : (UInt8.ofNat i).toNat = i := by
        rw [UInt8.toNat_ofNat']
        exact Nat.mod_eq_of_lt (by omega)
      refine ⟨fun j other hother => ?_, fun ecu hecu => ?_⟩
      · cases j with
        | zero =>
          -- What is stored later stands under higher numbers.
          cases hother
          rw [Nat.add_zero, hbefore _ (by omega)]
          exact LawfulStorage.readRecord_of_written hwrite
        | succ j =>
          rw [Nat.add_comm j, ← Nat.add_assoc]
          exact hstored j other hother
      · have hne : ecu ≠ .ofNat i := by
          rintro rfl
          omega
        rw [hbefore ecu (by omega)]
        exact LawfulStorage.readRecord_of_written_other hne hwrite

/-- Once all records are stored, each of them can be read. -/
theorem readRecord_of_storeAll [LawfulStorage σ] {r : Registry} {store kept : σ} {n : Nat}
    (hsize : r.size ≤ 256) (h : r.storeAll store = (kept, .ok n)) {ecu : EcuNo}
    (hecu : ecu ∈ r.numbers) :
    Storage.readRecord kept ecu = .ok ((r.get? ecu).map EcuRecord.encode) := by
  have hloop : storeEach 0 r.records store = (kept, .ok ()) := by
    unfold storeAll at h
    generalize hdone : storeEach 0 r.records store = done at h
    obtain ⟨kept', result⟩ := done
    cases result with
    | error fault => cases h
    | ok => exact congrArg (·, _) (Prod.mk.inj h).1
  obtain ⟨record, hrecord⟩ := exists_get?_iff.mpr hecu
  have hread := (storeEach_keeps (Nat.zero_add _ ▸ hsize) hloop).1 ecu.toNat record hrecord
  rw [Nat.zero_add, UInt8.ofNat_toNat] at hread
  rw [hread, hrecord, Option.map_some]

/-- Restoring stored records counts them all. -/
theorem countAll_of_stored {stored : EcuNo → Option Bytes} {ecus : List EcuNo}
    (h : ∀ ecu ∈ ecus, ∃ record : EcuRecord, stored ecu = some record.encode) :
    countAll stored ecus {} = { loaded := ecus.length } := by
  have hdecodes (record : EcuRecord) : EcuRecord.decodes record.encode = true :=
    EcuRecord.decodes_of_decode (EcuRecord.decode_encode record)
  rw [countAll_eq, List.countP_eq_length.mpr, List.countP_eq_zero.mpr, List.countP_eq_zero.mpr]
  · simp
  all_goals
    intro ecu hecu
    obtain ⟨record, hstored⟩ := h ecu hecu
    simp [hstored, hdecodes]

/-! ## Restoring -/

/-- What restoring a registry `r` from a storage leaves and counts: every record could be read, each
ECU is of one of three sorts, and the counts say how many there are of each. -/
structure Restores (store : σ) (r left : Registry) (found : Restored) : Prop where
  size : left.size = r.size
  readable : ∀ ecu : EcuNo, ecu.toNat < r.size → ∃ stored, Storage.readRecord store ecu = .ok stored
  /-- A record that decodes takes the place of the one there was. -/
  replaced : ∀ (ecu : EcuNo) (data : Bytes) (record : EcuRecord), ecu.toNat < r.size →
    Storage.readRecord store ecu = .ok (some data) → EcuRecord.decode data = .ok record →
      left.get? ecu = some record
  /-- Bytes that do not decode change the status alone. -/
  marked : ∀ (ecu : EcuNo) (data : Bytes) (fault : RecordFault),
    Storage.readRecord store ecu = .ok (some data) → EcuRecord.decode data = .error fault →
      left.get? ecu = (r.get? ecu).map fun record => { record with status := .corrupted }
  /-- Without stored bytes the record stays. -/
  kept : ∀ ecu : EcuNo, Storage.readRecord store ecu = .ok none → left.get? ecu = r.get? ecu
  loaded : HowMany found.loaded fun ecu => ecu.toNat < r.size ∧ ∃ data record,
    Storage.readRecord store ecu = .ok (some data) ∧ EcuRecord.decode data = .ok record
  corrupted : HowMany found.corrupted fun ecu => ecu.toNat < r.size ∧ ∃ data fault,
    Storage.readRecord store ecu = .ok (some data) ∧ EcuRecord.decode data = .error fault
  missing : HowMany found.missing fun ecu => ecu.toNat < r.size ∧
    Storage.readRecord store ecu = .ok none
  total : found.loaded + found.corrupted + found.missing = r.size

/-- A count over the numbers of up to 256 records is that of the ECUs. -/
theorem howMany_countP {r : Registry} (hsize : r.size ≤ 256) {p : EcuNo → Bool}
    {sort : EcuNo → Prop} (h : ∀ ecu ∈ r.numbers, p ecu = true ↔ sort ecu) :
    HowMany (r.numbers.countP p) fun ecu => ecu.toNat < r.size ∧ sort ecu := by
  refine ⟨r.numbers.filter p, (nodup_numbers hsize).filter p, List.countP_eq_length_filter.symm, ?_⟩
  intro ecu
  rw [List.mem_filter, and_congr_right (h ecu), mem_numbers]

theorem countP_add_countP {ecus : List EcuNo} (stored : EcuNo → Option Bytes) :
    ecus.countP (fun ecu => (stored ecu).any EcuRecord.decodes) +
        ecus.countP (fun ecu => (stored ecu).any fun data => !EcuRecord.decodes data) +
        ecus.countP (fun ecu => (stored ecu).isNone) = ecus.length := by
  induction ecus with
  | nil => rfl
  | cons ecu ecus ih =>
    simp only [List.countP_cons, List.length_cons]
    cases stored ecu with
    | none => simp; omega
    | some data => cases hdecodes : EcuRecord.decodes data <;> simp [hdecodes] <;> omega

theorem any_decodes_iff {store : σ} {ecu : EcuNo} {stored : Option Bytes}
    (h : Storage.readRecord store ecu = .ok stored) :
    (stored.any EcuRecord.decodes = true ↔ ∃ data record,
        Storage.readRecord store ecu = .ok (some data) ∧ EcuRecord.decode data = .ok record) ∧
      (stored.any (fun data => !EcuRecord.decodes data) = true ↔ ∃ data fault,
        Storage.readRecord store ecu = .ok (some data) ∧ EcuRecord.decode data = .error fault) := by
  rw [h]
  cases stored with
  | none => simp
  | some data =>
    cases hdecode : EcuRecord.decode data with
    | ok record => simp [EcuRecord.decodes_of_decode hdecode, hdecode]
    | error fault => simp [EcuRecord.decodes_of_fault hdecode, hdecode]

theorem restores_of_restore {r left : Registry} {store : σ} {found : Restored}
    (hsize : r.size ≤ 256) (h : r.restore store = (left, .ok found)) :
    Restores store r left found := by
  obtain ⟨stored, hread, rfl, rfl⟩ := exists_of_restore_ok h
  -- What can be read for an ECU is what was taken over for it.
  have hget {ecu : EcuNo} {data : Option Bytes} (hdata : Storage.readRecord store ecu = .ok data) :
      (r.takeAll stored r.numbers).get? ecu = (r.get? ecu).map (·.restored data) := by
    rw [get?_takeAll]
    split
    case isTrue hecu =>
      rw [hread ecu hecu] at hdata
      rw [Except.ok.inj hdata]
    case isFalse hecu => rw [get?_eq_none_iff.mpr hecu, Option.map_none]
  rw [countAll_eq]
  simp only [Nat.zero_add]
  refine ⟨size_takeAll, ?_, ?_, ?_, ?_, ?_, ?_, ?_, ?_⟩
  · exact fun ecu hecu => ⟨_, hread ecu (mem_numbers.mpr hecu)⟩
  · intro ecu data record hecu hdata hdecode
    obtain ⟨old, hold⟩ := exists_get?_iff.mpr (mem_numbers.mpr hecu)
    rw [hget hdata, hold, Option.map_some, EcuRecord.restored_of_decode old hdecode]
  · intro ecu data fault hdata hdecode
    rw [hget hdata]
    simp only [EcuRecord.restored_of_fault _ hdecode]
  · intro ecu hdata
    rw [hget hdata]
    exact Option.map_id'
  · exact howMany_countP hsize fun ecu hecu => (any_decodes_iff (hread ecu hecu)).1
  · exact howMany_countP hsize fun ecu hecu => (any_decodes_iff (hread ecu hecu)).2
  · refine howMany_countP hsize fun ecu hecu => ?_
    rw [hread ecu hecu, Except.ok.injEq, Option.isNone_iff_eq_none]
  · rw [countP_add_countP, length_numbers]

theorem stored_registry_restored (r : Registry) (hsize : r.size ≤ 256) :
    (∀ [LawfulStorage σ] (store kept : σ) (n : Nat), r.storeAll store = (kept, .ok n) →
        ∀ other : Registry, other.size = r.size →
          other.restore kept = (r, .ok { loaded := r.size, missing := 0, corrupted := 0 })) ∧
      ∀ (store : σ) (left : Registry) (found : Restored), r.restore store = (left, .ok found) →
        Restores store r left found := by
  refine ⟨fun store kept n hstore other hother => ?_, fun _ _ _ h => restores_of_restore hsize h⟩
  have hnumbers : other.numbers = r.numbers := by rw [numbers, hother, numbers]
  have hread : ∀ ecu ∈ other.numbers,
      Storage.readRecord kept ecu = .ok ((r.get? ecu).map EcuRecord.encode) :=
    fun ecu hecu => readRecord_of_storeAll hsize hstore (hnumbers ▸ hecu)
  rw [restore_of_read hread]
  refine Prod.ext (ext_get? hsize (size_takeAll.trans hother) fun ecu => ?_) (congrArg Except.ok ?_)
  · rw [get?_takeAll]
    split
    case isTrue hecu =>
      obtain ⟨record, hrecord⟩ := exists_get?_iff.mpr (hnumbers ▸ hecu)
      obtain ⟨old, hold⟩ := exists_get?_iff.mpr hecu
      rw [hold, hrecord, Option.map_some, Option.map_some,
        EcuRecord.restored_of_decode old (EcuRecord.decode_encode record)]
    case isFalse hecu =>
      rw [get?_eq_none_iff.mpr hecu, get?_eq_none_iff.mpr (hnumbers ▸ hecu)]
  · rw [countAll_of_stored, length_numbers, hother]
    intro ecu hecu
    obtain ⟨record, hrecord⟩ := exists_get?_iff.mpr (hnumbers ▸ hecu)
    exact ⟨record, by rw [hrecord, Option.map_some]⟩

/-- Three ECUs. -/
def threeEcus : Registry :=
  ⟨[{ protocol := .can, interface := 0 }, { protocol := .lin, interface := 1, version := 7 },
    { protocol := .canFd, interface := 2, status := .sleeping }]⟩

/-- Records of all kinds: one that decodes, one that does not, and none for the third ECU. -/
def mixedRecords : Memory :=
  (({} : Memory).putRecord 0 (EcuRecord.encode { protocol := .ethernet, interface := 3 })).putRecord
    1 [1, 2, 3]

/-- The three ECUs with what is taken over. -/
def mixedEcus : Registry :=
  ⟨[{ protocol := .ethernet, interface := 3 },
    { protocol := .lin, interface := 1, version := 7, status := .corrupted },
    { protocol := .canFd, interface := 2, status := .sleeping }]⟩

/-- Stored and restored, and restored from records of all kinds. -/
theorem three_ecus_restored :
    (∃ kept : Memory, threeEcus.storeAll ({} : Memory) = (kept, .ok 3) ∧
      ∀ other : Registry, other.size = 3 →
        other.restore kept = (threeEcus, .ok { loaded := 3, missing := 0, corrupted := 0 })) ∧
      threeEcus.restore mixedRecords = (mixedEcus, .ok ⟨1, 1, 1⟩) ∧
        Restores mixedRecords threeEcus mixedEcus ⟨1, 1, 1⟩ := by
  have hsize : threeEcus.size ≤ 256 := by decide
  have hmixed : threeEcus.restore mixedRecords = (mixedEcus, .ok ⟨1, 1, 1⟩) := by
    have hleft : (threeEcus.restore mixedRecords).1 = mixedEcus := by decide +kernel
    have hfound : (threeEcus.restore mixedRecords).2.toOption = some ⟨1, 1, 1⟩ := by decide +kernel
    refine Prod.ext hleft ?_
    generalize (threeEcus.restore mixedRecords).2 = found at hfound ⊢
    cases found with
    | ok found => exact congrArg Except.ok (Option.some.inj hfound)
    | error fault => cases hfound
  refine ⟨⟨_, rfl, fun other hother => ?_⟩, hmixed, ?_⟩
  · exact (stored_registry_restored threeEcus hsize).1 _ _ 3 rfl other hother
  · exact (stored_registry_restored threeEcus hsize).2 _ _ _ hmixed

end Registry
end VehicleGateway
