import VehicleGateway.Proofs.Gateway.Updating
import VehicleGateway.Proofs.Registry.Restoring
import VehicleGateway.Storage.Folder

/-!
# A storage that fails while the registry is restored

Restoring stops at the first record that cannot be read.  The records before it have been taken over
by then, and a gateway goes on with them: it runs on the configured records only if nothing that was
taken over differs from them.
-/

namespace VehicleGateway.Gateway

/-- What a failed restore leaves, and when that is what there was. -/
theorem failed_restore_kept_iff {σ : Type} [Storage σ] {store : σ} {r left : Registry}
    {fault : StorageFault} (h : r.restore store = (left, .error fault)) :
    ∃ before ecu rest, ∃ stored : EcuNo → Option Bytes, r.numbers = before ++ ecu :: rest ∧
      (∀ e ∈ before, Storage.readRecord store e = .ok (stored e)) ∧
      Storage.readRecord store ecu = .error fault ∧
      (∀ e, left.get? e =
        if e ∈ before then (r.get? e).map (·.restored (stored e)) else r.get? e) ∧
      (left = r ↔ ∀ e ∈ before, ∀ record, r.get? e = some record →
        record.restored (stored e) = record) ∧
      ∀ (c : Config) (now : Nat) (bus : Bus) (keys : Option Vault) (g : Gateway σ),
        c.registry = r → Gateway.start c now bus store keys = .ok g → g.registry = left := by
  obtain ⟨before, ecu, rest, stored, hnumbers, hread, hfailing, rfl⟩ :=
    Registry.exists_of_restore_error h
  refine ⟨before, ecu, rest, stored, hnumbers, hread, hfailing, fun e => Registry.get?_takeAll,
    Registry.takeAll_eq_self_iff, ?_⟩
  rintro c now bus keys g rfl hstart
  rw [(start_eq hstart).1, h]

/-- A configuration with two ECUs. -/
def pairConfig : Config where
  ecus := [{ protocol := .can, interface := 0 }, { protocol := .lin, interface := 1 }]

theorem exists_pair_start (folder : Folder) :
    ∃ g, Gateway.start pairConfig 0 { interfaces := 4 } folder none = .ok g := by
  have hok : (Gateway.start pairConfig 0 { interfaces := 4 } ({} : Folder) none).isOk = true := by
    decide +kernel
  cases hstart : Gateway.start pairConfig 0 { interfaces := 4 } ({} : Folder) none with
  | ok g => exact start_again hstart 0 { interfaces := 4 } folder none
  | error failure =>
    rw [hstart] at hok
    cases hok

/-- What a restore from a folder is, if it fails. -/
theorem restore_eq_of_shown (folder : Folder) (left : Registry)
    (hleft : (pairConfig.registry.restore folder).1 = left)
    (hfails : (pairConfig.registry.restore folder).2.isOk = false) :
    ∃ fault, pairConfig.registry.restore folder = (left, .error fault) := by
  generalize hrestore : pairConfig.registry.restore folder = done at hleft hfails
  obtain ⟨left', result⟩ := done
  cases result with
  | ok found => cases hfails
  | error fault => exact ⟨fault, by rw [← hleft]⟩

/-- The record of the second ECU cannot be read: a folder stands at its path. -/
def brokenFolder : Folder :=
  ({} : Folder).putFolders (Folder.recordPath 1)

/-- As long as nothing is stored for the first ECU, the configured records stay. -/
theorem broken_folder_restore_kept :
    ∃ fault, pairConfig.registry.restore brokenFolder = (pairConfig.registry, .error fault) ∧
      ∃ g, Gateway.start pairConfig 0 { interfaces := 4 } brokenFolder none = .ok g ∧
        g.registry = pairConfig.registry := by
  obtain ⟨fault, hrestore⟩ := restore_eq_of_shown brokenFolder pairConfig.registry
    (by decide +kernel) (by decide +kernel)
  obtain ⟨g, hstart⟩ := exists_pair_start brokenFolder
  obtain ⟨-, -, -, -, -, -, -, -, -, hgateway⟩ := failed_restore_kept_iff hrestore
  exact ⟨fault, hrestore, g, hstart, hgateway pairConfig _ _ _ g rfl hstart⟩

/-- A folder with a record of the first ECU, in which that of the second one cannot be read. -/
def halfBrokenFolder : Folder :=
  { brokenFolder with
    nodes := brokenFolder.nodes.insert (Folder.recordPath 0)
      (.file (EcuRecord.encode { protocol := .ethernet, interface := 3, version := 7 })) }

/-- The configured record of the second ECU beside the stored one of the first. -/
def halfRestored : Registry :=
  ⟨[{ protocol := .ethernet, interface := 3, version := 7 }, { protocol := .lin, interface := 1 }]⟩

/-- The restore fails, and the gateway runs on records of which one was stored and one is
configured. -/
theorem half_broken_restore_mixes :
    ∃ fault, pairConfig.registry.restore halfBrokenFolder = (halfRestored, .error fault) ∧
      halfRestored ≠ pairConfig.registry ∧
      ∃ g, Gateway.start pairConfig 0 { interfaces := 4 } halfBrokenFolder none = .ok g ∧
        g.registry = halfRestored := by
  obtain ⟨fault, hrestore⟩ := restore_eq_of_shown halfBrokenFolder halfRestored
    (by decide +kernel) (by decide +kernel)
  obtain ⟨g, hstart⟩ := exists_pair_start halfBrokenFolder
  refine ⟨fault, hrestore, by decide, g, hstart, ?_⟩
  rw [(start_eq hstart).1, hrestore]

end VehicleGateway.Gateway
