import VehicleGateway.Config.Check

/-!
# The slots of configured keys

Two things keep the keys of a configuration in their place.  Whoever reads it takes no name for a
slot that does not exist, and whoever checks it refuses the slots that are loaded in another way.

* `exists?_of_readKeys` says the first of these, `of_checkKeys` the second.
* `place_of_accepted` puts them together: what is left are the slot of the boot key and those of
  users.
-/

namespace VehicleGateway

theorem KeySlot.exists?_of_ofName {text : String} {slot : KeySlot} (h : ofName text = .ok slot) :
    slot.exists? = true := by
  unfold ofName at h
  dsimp only at h
  split at h
  case h_1 => cases h
  case h_2 found _ =>
    split at h
    case isTrue hexists =>
      obtain rfl := Except.ok.inj h
      exact hexists
    case isFalse => cases h

/-- The slots that exist and are not loaded otherwise are those of the boot key and of users. -/
theorem KeySlot.place_of_exists? {slot : KeySlot} (hexists : slot.exists? = true)
    (hmaster : slot ≠ .master) (hram : slot ≠ .ram) :
    slot = .bootMac ∨ ∃ m : UInt8, slot = .user m ∧ 1 ≤ m.toNat ∧ m.toNat ≤ 10 := by
  cases slot with
  | master => exact absurd rfl hmaster
  | ram => exact absurd rfl hram
  | bootMac => exact .inl rfl
  | user m =>
    have hrange : 1 ≤ m.toNat ∧ m.toNat ≤ userSlots := by simpa [exists?] using hexists
    exact .inr ⟨m, rfl, hrange⟩

theorem KeySlot.ne_master_of_place {slot : KeySlot}
    (h : slot = .bootMac ∨ ∃ m : UInt8, slot = .user m ∧ 1 ≤ m.toNat ∧ m.toNat ≤ 10) :
    slot ≠ .master := by
  rintro rfl
  rcases h with h | ⟨m, h, -⟩ <;> cases h

namespace Document

variable {α : Type} {read : Document → Option α}

/-- Each value of a list was read from an item. -/
theorem exists_of_mem_mapM {ds : List Document} {as : List α} (h : ds.mapM read = some as) {a : α}
    (ha : a ∈ as) : ∃ d, read d = some a := by
  induction ds generalizing as with
  | nil =>
    obtain rfl : as = [] := by simpa using h.symm
    cases ha
  | cons d ds ih =>
    rw [List.mapM_cons] at h
    obtain ⟨first, hfirst, h⟩ := Option.bind_eq_some_iff.mp h
    obtain ⟨rest, hrest, h⟩ := Option.bind_eq_some_iff.mp h
    obtain rfl : first :: rest = as := Option.some.inj h
    rcases List.mem_cons.mp ha with rfl | ha
    · exact ⟨d, hfirst⟩
    · exact ih hrest ha

theorem exists_of_mem_items {d : Document} {as : List α} (h : items read d = some as) {a : α}
    (ha : a ∈ as) : ∃ d, read d = some a := by
  unfold items at h
  split at h
  · exact exists_of_mem_mapM h ha
  · cases h

/-- A list that may be left out is then empty. -/
theorem exists_of_mem_optional {f : Fields} {name : String} {as : List α}
    (h : optional f name (items read) [] = some as) {a : α} (ha : a ∈ as) :
    ∃ d, read d = some a := by
  unfold optional at h
  split at h
  · obtain rfl := Option.some.inj h
    cases ha
  · exact exists_of_mem_items h ha

end Document

namespace Config

theorem exists?_of_readSlot {d : Document} {slot : KeySlot} (h : readSlot d = some slot) :
    slot.exists? = true := by
  obtain ⟨text, -, h⟩ := Option.bind_eq_some_iff.mp h
  split at h
  · rename_i hname
    obtain rfl := Option.some.inj h
    exact KeySlot.exists?_of_ofName hname
  · cases h

theorem exists?_of_readKey {n : Notation} {d : Document} {k : ProvisionedKey}
    (h : readKey n d = some k) : k.slot.exists? = true := by
  obtain ⟨f, -, h⟩ := Option.bind_eq_some_iff.mp h
  obtain ⟨slot, hslot, h⟩ := Option.bind_eq_some_iff.mp h
  obtain ⟨d', -, hread⟩ := Option.bind_eq_some_iff.mp hslot
  obtain ⟨key, -, h⟩ := Option.bind_eq_some_iff.mp h
  obtain ⟨counter, -, h⟩ := Option.bind_eq_some_iff.mp h
  obtain ⟨flags, -, h⟩ := Option.bind_eq_some_iff.mp h
  obtain rfl := Option.some.inj h
  exact exists?_of_readSlot hread

/-- The slots that a configuration names exist. -/
theorem exists?_of_readKeys {n : Notation} {d : Document} {c : KeyConfig}
    (h : readKeys n d = some c) {k : ProvisionedKey} (hk : k ∈ c.keys) : k.slot.exists? = true := by
  obtain ⟨f, -, h⟩ := Option.bind_eq_some_iff.mp h
  obtain ⟨timeout, -, h⟩ := Option.bind_eq_some_iff.mp h
  obtain ⟨masterKey, -, h⟩ := Option.bind_eq_some_iff.mp h
  obtain ⟨keys, hkeys, h⟩ := Option.bind_eq_some_iff.mp h
  obtain ⟨element, -, h⟩ := Option.bind_eq_some_iff.mp h
  obtain rfl := Option.some.inj h
  obtain ⟨d', hread⟩ := Document.exists_of_mem_optional hkeys hk
  exact exists?_of_readKey hread

end Config

namespace KeyConfig

/-- The keys that are checked have values, and none goes into a slot that is loaded otherwise. -/
theorem of_checkKeys {keys : List ProvisionedKey} (h : checkKeys keys = .ok ())
    {k : ProvisionedKey} (hk : k ∈ keys) :
    (∃ key, k.value = .ok key) ∧ k.slot ≠ .master ∧ k.slot ≠ .ram := by
  induction keys with
  | nil => cases hk
  | cons first rest ih =>
    unfold checkKeys at h
    split at h
    case h_1 => cases h
    case h_2 key hvalue =>
      split at h
      case isTrue => cases h
      case isFalse hslot =>
        rcases List.mem_cons.mp hk with rfl | hk
        · exact ⟨⟨key, hvalue⟩, not_or.mp hslot⟩
        · exact ih h hk

theorem checkKeys_of_check {c : KeyConfig} (h : c.check = .ok ()) : checkKeys c.keys = .ok () := by
  obtain ⟨master, -, h⟩ := exists_of_bind_ok h
  split at h
  case isTrue => cases h
  case isFalse =>
    obtain ⟨_, hkeys, -⟩ := exists_of_bind_ok h
    exact hkeys

/-- Every key of a configuration that is read and passes has a value, and goes into the slot of the
boot key or into one of a user. -/
theorem place_of_accepted {n : Notation} {d : Document} {c : KeyConfig}
    (hread : Config.readKeys n d = some c) (hcheck : c.check = .ok ()) {k : ProvisionedKey}
    (hk : k ∈ c.keys) :
    (∃ key, k.value = .ok key) ∧
      (k.slot = .bootMac ∨ ∃ m : UInt8, k.slot = .user m ∧ 1 ≤ m.toNat ∧ m.toNat ≤ 10) := by
  obtain ⟨hvalue, hmaster, hram⟩ := of_checkKeys (checkKeys_of_check hcheck) hk
  exact ⟨hvalue, KeySlot.place_of_exists? (Config.exists?_of_readKeys hread hk) hmaster hram⟩

end KeyConfig
end VehicleGateway
