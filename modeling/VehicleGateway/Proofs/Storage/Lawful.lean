import VehicleGateway.Storage.Folder
import VehicleGateway.Storage.Memory

/-!
# What a storage is trusted for

Between the gateway and its records stands a storage of some kind.  All that is asked of the kind is
that a record which was stored is read back, and that the records of the other ECUs stay as they
were.  Both kinds keep to that, with or without an outage and in any folder.
-/

namespace VehicleGateway

/-- A kind of storage that keeps the records it takes. -/
class LawfulStorage (σ : Type) [Storage σ] : Prop where
  readRecord_of_written {s s' : σ} {ecu : EcuNo} {data : Bytes}
    (h : Storage.writeRecord s ecu data = .ok s') : Storage.readRecord s' ecu = .ok (some data)
  readRecord_of_written_other {s s' : σ} {ecu other : EcuNo} {data : Bytes} (hne : other ≠ ecu)
    (h : Storage.writeRecord s ecu data = .ok s') :
    Storage.readRecord s' other = Storage.readRecord s other

/-! ## Memory -/

namespace Memory

theorem eq_of_writeRecord {m m' : Memory} {ecu : EcuNo} {data : Bytes}
    (h : Storage.writeRecord m ecu data = .ok m') :
    m.outage = none ∧ m' = m.putRecord ecu data := by
  dsimp only [Storage.writeRecord, serve] at h
  split at h
  case h_1 => cases h
  case h_2 hup => exact ⟨hup, (Except.ok.inj h).symm⟩

instance : LawfulStorage Memory where
  readRecord_of_written h := by
    obtain ⟨hup, rfl⟩ := eq_of_writeRecord h
    simp [Storage.readRecord, serve, putRecord, hup]
  readRecord_of_written_other hne h := by
    obtain ⟨hup, rfl⟩ := eq_of_writeRecord h
    simp [Storage.readRecord, serve, putRecord, hup, Dictionary.get?_insert_of_ne _ hne]

end Memory

/-! ## Folders -/

/-- Zeros in front of a number do not hide it. -/
theorem Column.zeros_inj {width m n : Nat} (h : zeros width m = zeros width n) : m = n := by
  have hspelled (k : Nat) : Nat.ofDigitChars 10 (zeros width k).toList 0 = k := by
    simp only [zeros, String.toList_append, String.toList_ofList, Nat.ofDigitChars_append,
      Nat.ofDigitChars_replicate_zero, Nat.mul_zero]
    exact (congrArg (Nat.ofDigitChars 10 · 0) Nat.toList_repr).trans Nat.ofDigitChars_ten_toDigits
  rw [← hspelled m, h, hspelled n]

namespace Folder

/-- No two ECUs share a file. -/
theorem recordPath_ne {ecu other : EcuNo} (h : other ≠ ecu) :
    recordPath other ≠ recordPath ecu := by
  intro hpath
  have hname : recordName other = recordName ecu := by simpa [recordPath] using hpath
  simp only [recordName, String.append_left_inj, String.append_right_inj] at hname
  exact h (UInt8.toNat_inj.mp (Column.zeros_inj hname))

/-- What writing a record takes and leaves. -/
theorem exists_of_writeRecord {f f' : Folder} {ecu : EcuNo} {data : Bytes}
    (h : Storage.writeRecord f ecu data = .ok f') :
    (recordPath ecu).all admits = true ∧ (∀ old, f.nodes.get? ["records"] ≠ some (.file old)) ∧
      f' = { f.putFolder ["records"] with
        nodes := (f.putFolder ["records"]).nodes.insert (recordPath ecu) (.file data) } := by
  dsimp only [Storage.writeRecord] at h
  split at h
  case h_1 => cases h
  case h_2 hfolder =>
    unfold putFile at h
    split at h
    case h_1 => cases h
    case h_2 hcontent =>
      refine ⟨?_, hfolder, (Except.ok.inj h).symm⟩
      -- A path that could be looked at has good names only.
      cases hnames : (recordPath ecu).all admits with
      | true => rfl
      | false => simp [content, find, hnames, bind, Except.bind] at hcontent

theorem get?_putFolder_of_ne (f : Folder) {path other : List String} (h : other ≠ path) :
    (f.putFolder path).nodes.get? other = f.nodes.get? other := by
  unfold putFolder
  split
  case h_1 => rfl
  case h_2 => exact Dictionary.get?_insert_of_ne _ h _

/-- Where no bytes stood, a folder stands once it was put there. -/
theorem get?_putFolder_self (f : Folder) {path : List String}
    (h : ∀ old, f.nodes.get? path ≠ some (.file old)) :
    (f.putFolder path).nodes.get? path = some .folder := by
  unfold putFolder
  split
  case h_1 node hnode =>
    cases node with
    | file old => exact absurd hnode (h old)
    | folder => exact hnode
  case h_2 => exact Dictionary.get?_insert_self _ _ _

/-- Below a path that is no file, what is found is what stands there. -/
theorem find_eq {f : Folder} {path : List String} (hnames : path.all admits = true)
    (h : ∀ old, f.nodes.get? path.dropLast ≠ some (.file old)) :
    f.find path = .ok (f.nodes.get? path) := by
  unfold find
  rw [if_pos hnames]
  split
  case h_1 old _ hold => exact absurd hold (h old)
  case h_2 => rfl

/-- A record is written below a folder. -/
theorem records_of_writeRecord {f f' : Folder} {ecu : EcuNo} {data old : Bytes}
    (h : Storage.writeRecord f ecu data = .ok f') :
    f'.nodes.get? ["records"] ≠ some (.file old) := by
  obtain ⟨-, hfolder, rfl⟩ := exists_of_writeRecord h
  have hbelow : ["records"] ≠ recordPath ecu := by simp [recordPath]
  show Dictionary.get? _ ["records"] ≠ _
  rw [Dictionary.get?_insert_of_ne _ hbelow, get?_putFolder_self f hfolder]
  simp

instance : LawfulStorage Folder where
  readRecord_of_written {f f' ecu data} h := by
    obtain ⟨hnames, -, hf'⟩ := exists_of_writeRecord h
    have hget : f'.nodes.get? (recordPath ecu) = some (.file data) := by
      rw [hf']
      exact Dictionary.get?_insert_self _ _ _
    dsimp only [Storage.readRecord]
    rw [content, find_eq hnames fun _ => records_of_writeRecord h, hget]
    rfl
  readRecord_of_written_other {f f' ecu other data} hne h := by
    obtain ⟨-, hbefore, hf'⟩ := exists_of_writeRecord h
    have hget : f'.nodes.get? (recordPath other) = f.nodes.get? (recordPath other) := by
      rw [hf']
      exact (Dictionary.get?_insert_of_ne _ (recordPath_ne hne) _).trans
        (get?_putFolder_of_ne f (by simp [recordPath]))
    have hfind : f'.find (recordPath other) = f.find (recordPath other) := by
      cases hnames : (recordPath other).all admits with
      | false => simp [find, hnames]
      | true => rw [find_eq hnames hbefore, find_eq hnames fun _ => records_of_writeRecord h, hget]
    dsimp only [Storage.readRecord]
    rw [content, content, hfind]

end Folder
end VehicleGateway
