import VehicleGateway.Gateway.Start
import VehicleGateway.Keys.Provision
import VehicleGateway.Proofs.Config.Slots
import VehicleGateway.Proofs.Router.Indexing

/-!
# What a configuration that passes its check is good for

A gateway is put together from a configuration without looking at its parts again, so all that can
go wrong with them has to be found by the check.

* `passes_of_check` takes the check apart, once for all.
* `Sound` lists what is known of a configuration then: everything that is made of it can be made,
  and the ECUs and slots that it names exist.
* `sound_of_check` shows it, and says for which interfaces the same is true.  On the mock channel
  they exist.  On any other channel nobody looks.
-/

namespace VehicleGateway

/-- The number of interfaces of a channel. -/
def TransportConfig.interfaceCount : TransportConfig → Nat
  | .mock interfaces _ => interfaces.toNat
  | .socketCan interfaces _ => interfaces.length

/-! ## Keys -/

namespace KeyConfig

variable {c : KeyConfig}

/-- What the check of the keys asks for besides the keys themselves. -/
theorem parts_of_check (h : c.check = .ok ()) :
    (∃ master, c.master = .ok master) ∧ (c.keys ≠ [] → c.masterKey ≠ none) ∧
      ∃ identity, c.element.value = .ok identity := by
  obtain ⟨master, hmaster, h⟩ := exists_of_bind_ok h
  split at h
  case isTrue => cases h
  case isFalse hsecured =>
    obtain ⟨_, -, h⟩ := exists_of_bind_ok h
    obtain ⟨identity, hidentity, -⟩ := exists_of_bind_ok h
    refine ⟨⟨master, hmaster⟩, ?_, identity, hidentity⟩
    intro hkeys hnone
    simp [hkeys, hnone] at hsecured

/-- A vault can be made on any element that has an identity. -/
theorem exists_vault {identity : ElementId} (h : c.element.value = .ok identity)
    (entropy : Nat → Block) :
    ∃ v, c.vault entropy = .ok v ∧ v.device.element.identity = identity := by
  unfold vault
  rw [h]
  exact ⟨_, rfl, rfl⟩

end KeyConfig

namespace Config

variable {c : Config}

/-! ## The parts of the check -/

/-- What the check asks for, in its order. -/
structure Passes (c : Config) : Prop where
  nonempty : c.ecus ≠ []
  few : c.ecus.length ≤ 256
  queues : c.router.queueDepth ≠ 0 ∧ c.supervisor.queueDepth ≠ 0 ∧ c.firmware.sessionQueue ≠ 0
  interfaces : c.checkInterfaces = .ok ()
  routing : ∃ t, c.routing = .ok t
  keys : c.keys.check = .ok ()

theorem passes_of_check (h : c.check = .ok ()) : c.Passes := by
  unfold check at h
  split at h
  case isTrue => cases h
  case isFalse hany =>
    split at h
    case isTrue => cases h
    case isFalse hfew =>
      split at h
      case isTrue => cases h
      case isFalse hqueues =>
        obtain ⟨_, hinterfaces, h⟩ := exists_of_bind_ok h
        obtain ⟨t, hrouting, hkeys⟩ := exists_of_bind_ok h
        obtain ⟨hrouter, hsupervisor, hsession⟩ : _ ∧ _ ∧ _ := by simpa only [not_or] using hqueues
        exact ⟨by simpa using hany, Nat.not_lt.mp hfew, ⟨hrouter, hsupervisor, hsession⟩,
          hinterfaces, ⟨t, hrouting⟩, hkeys⟩

/-- If no ECU strays, all are on interfaces that exist. -/
theorem interface_lt_of_strayEcu {interfaces : UInt8} {ecus : List EcuConfig} {i : Nat}
    (h : strayEcu interfaces i ecus = none) : ∀ e ∈ ecus, e.interface < interfaces := by
  induction ecus generalizing i with
  | nil => simp
  | cons e rest ih =>
    rw [strayEcu] at h
    split at h
    case isTrue => cases h
    case isFalse hinside =>
      exact List.forall_mem_cons.mpr ⟨UInt8.not_le.mp hinside, ih h⟩

theorem interface_lt_of_check {interfaces : UInt8} {latency : Nat}
    (hmock : c.transport = .mock interfaces latency) (h : c.check = .ok ()) :
    ∀ e ∈ c.ecus, e.interface < interfaces := by
  have hinterfaces := (passes_of_check h).interfaces
  unfold checkInterfaces at hinterfaces
  rw [hmock] at hinterfaces
  dsimp only at hinterfaces
  split at hinterfaces
  case h_1 hnone => exact interface_lt_of_strayEcu hnone
  case h_2 => cases hinterfaces

/-! ## What a configuration is good for -/

/-- An ECU has its record under its number as long as there is a number for each. -/
theorem get?_registry (hfew : c.ecus.length ≤ 256) {i : Nat} {e : EcuConfig}
    (he : c.ecus[i]? = some e) : c.registry.get? (.ofNat i) = some e.record := by
  have hlt : i < 256 := Nat.lt_of_lt_of_le (List.getElem?_eq_some_iff.mp he).1 hfew
  have hnumber : (UInt8.ofNat i).toNat = i := UInt8.toNat_ofNat_of_lt' hlt
  simp [registry, Registry.get?, hnumber, he]

/-- Everything that is made of a configuration can be made, and refers to ECUs and slots that
exist. -/
structure Sound (c : Config) : Prop where
  ecus : 1 ≤ c.ecus.length ∧ c.ecus.length ≤ 256
  queues : c.router.queueDepth ≠ 0 ∧ c.supervisor.queueDepth ≠ 0 ∧ c.firmware.sessionQueue ≠ 0
  /-- Every ECU has its record under its number. -/
  registered : ∀ i e, c.ecus[i]? = some e → c.registry.get? (.ofNat i) = some e.record
  /-- There is a routing table with all routes, and it leads to ECUs that have records. -/
  routed : ∃ t, c.routing = .ok t ∧ t.size = c.routes.length ∧
    (∀ r ∈ c.routes, t.lookup r.index.toNat = some r.route) ∧
    ∀ i route, t.lookup i = some route → ∀ ecu ∈ route.destinations,
      ∃ record, c.registry.get? ecu = some record
  master : ∃ master, c.keys.master = .ok master
  /-- Keys are loaded under a master key only. -/
  secured : c.keys.keys ≠ [] → c.keys.masterKey ≠ none
  keyed : ∀ k ∈ c.keys.keys, (∃ key, k.value = .ok key) ∧ k.slot ≠ .master ∧ k.slot ≠ .ram
  vault : ∃ identity, c.keys.element.value = .ok identity ∧
    ∀ entropy, ∃ v, c.keys.vault entropy = .ok v ∧ v.device.element.identity = identity

/-- The routes of a configuration under their indices. -/
theorem routing_eq_ok_iff {t : RoutingTable} : c.routing = .ok t ↔
    RoutingTable.ofIndexed (c.routes.map fun r => (r.index, r.route)) c.ecus.length = .ok t := by
  unfold routing
  dsimp only
  split
  case h_1 hmade => simp [hmade]
  case h_2 hfault => simp [hfault]

/-- A routing table holds the routes of the configuration, and their destinations have records. -/
theorem of_routing {t : RoutingTable} (h : c.routing = .ok t) :
    t.size = c.routes.length ∧
    (∀ r ∈ c.routes, t.lookup r.index.toNat = some r.route) ∧
    ∀ i route, t.lookup i = some route → ∀ ecu ∈ route.destinations,
      ∃ record, c.registry.get? ecu = some record := by
  obtain ⟨hknown, l, hperm, hrange, rfl⟩ :=
    RoutingTable.ofIndexed_eq_ok_iff.mp (routing_eq_ok_iff.mp h)
  refine ⟨by simp [RoutingTable.size, hperm.length_eq], ?_, ?_⟩
  · intro r hr
    have hmem : (r.index, r.route) ∈ l := hperm.mem_iff.mpr (List.mem_map_of_mem hr)
    exact RoutingTable.lookup_of_placed hrange hmem
  · intro i route hroute ecu hecu
    obtain ⟨r, hr, rfl⟩ := List.mem_map.mp (List.mem_of_getElem? hroute)
    have hlt : ecu.toNat < c.ecus.length := hknown r (hperm.mem_iff.mp hr) ecu hecu
    exact ⟨(c.ecus[ecu.toNat]).record, by simp [registry, Registry.get?, hlt]⟩

/-- The slots of a configuration that was read exist. -/
theorem exists?_of_ofDocument {n : Notation} {d : Document} (h : ofDocument n d = some c)
    {k : ProvisionedKey} (hk : k ∈ c.keys.keys) : k.slot.exists? = true := by
  obtain ⟨f, -, h⟩ := Option.bind_eq_some_iff.mp h
  obtain ⟨ecus, -, h⟩ := Option.bind_eq_some_iff.mp h
  obtain ⟨routes, -, h⟩ := Option.bind_eq_some_iff.mp h
  obtain ⟨router, -, h⟩ := Option.bind_eq_some_iff.mp h
  obtain ⟨supervisor, -, h⟩ := Option.bind_eq_some_iff.mp h
  obtain ⟨firmware, -, h⟩ := Option.bind_eq_some_iff.mp h
  obtain ⟨keys, hkeys, h⟩ := Option.bind_eq_some_iff.mp h
  obtain ⟨transport, -, h⟩ := Option.bind_eq_some_iff.mp h
  obtain ⟨folder, -, h⟩ := Option.bind_eq_some_iff.mp h
  obtain rfl := Option.some.inj h
  unfold Document.optional at hkeys
  split at hkeys
  case h_1 =>
    obtain rfl := Option.some.inj hkeys
    cases hk
  case h_2 => exact exists?_of_readKeys hkeys hk

/-- A configuration that passes its check is sound, a gateway starts from it, and if it was read,
its keys go into the slot of the boot key or into those of users.  Its ECUs are on interfaces that
exist if its channel is the mock channel.  On another channel they are exactly if the names of the
channel are enough. -/
theorem sound_of_check (h : c.check = .ok ()) :
    c.Sound ∧
    (∀ (σ : Type) [Storage σ] (now : Nat) (bus : Bus) (storage : σ) (keys : Option Vault),
      ∃ g, Gateway.start c now bus storage keys = .ok g) ∧
    (∀ n d, ofDocument n d = some c → ∀ k ∈ c.keys.keys,
      k.slot = .bootMac ∨ ∃ m : UInt8, k.slot = .user m ∧ 1 ≤ m.toNat ∧ m.toNat ≤ 10) ∧
    ((∀ e ∈ c.ecus, e.interface.toNat < c.transport.interfaceCount) ↔
      ∀ names buffer, c.transport = .socketCan names buffer →
        ∀ e ∈ c.ecus, e.interface.toNat < names.length) := by
  obtain ⟨hany, hfew, hqueues, -, ⟨t, hrouting⟩, hkeys⟩ := passes_of_check h
  obtain ⟨hmaster, hsecured, identity, hidentity⟩ := KeyConfig.parts_of_check hkeys
  have hkeyed := fun k hk => KeyConfig.of_checkKeys (KeyConfig.checkKeys_of_check hkeys) (k := k) hk
  refine ⟨?_, ?_, ?_, ?_⟩
  · exact {
      ecus := ⟨List.length_pos_iff.mpr hany, hfew⟩
      queues := hqueues
      registered := fun i e he => get?_registry hfew he
      routed := ⟨t, hrouting, of_routing hrouting⟩
      master := hmaster
      secured := hsecured
      keyed := hkeyed
      vault := ⟨identity, hidentity, KeyConfig.exists_vault hidentity⟩ }
  · intro σ _ now bus storage keys
    unfold Gateway.start
    rw [h, hrouting]
    exact ⟨_, rfl⟩
  · intro n d hread k hk
    obtain ⟨-, hnotmaster, hnotram⟩ := hkeyed k hk
    exact KeySlot.place_of_exists? (exists?_of_ofDocument hread hk) hnotmaster hnotram
  · cases htransport : c.transport with
    | mock interfaces latency =>
      refine iff_of_true (fun e he => ?_) nofun
      exact UInt8.lt_iff_toNat_lt.mp (interface_lt_of_check htransport h e he)
    | socketCan names buffer =>
      refine ⟨?_, fun hall => hall names buffer rfl⟩
      rintro hall _ _ heq
      cases heq
      exact hall

/-! ## Interfaces that exist, and one that does not -/

/-- Two ECUs on two interfaces, with a route to both and a key. -/
def bodyConfig : Config where
  ecus := [{ protocol := .can, interface := 1 }, { protocol := .lin, interface := 0 }]
  routes := [{ index := 0, label := "door_state", destinations := [0, 1] }]
  keys :=
    { masterKey := some "000102030405060708090a0b0c0d0e0f"
      keys := [{ slot := .user 1, key := "2b7e151628aed2a6abf7158809cf4f3c", counter := 1 }] }
  transport := .socketCan ["can0", "can1"] 1024

theorem bodyConfig_sound : bodyConfig.check = .ok () ∧ bodyConfig.Sound ∧
    ∀ e ∈ bodyConfig.ecus, e.interface.toNat < bodyConfig.transport.interfaceCount := by
  have hcheck : bodyConfig.check = .ok () := by decide +kernel
  obtain ⟨hsound, -, -, hinterfaces⟩ := sound_of_check hcheck
  refine ⟨hcheck, hsound, hinterfaces.mpr ?_⟩
  intro names buffer htransport
  obtain ⟨rfl, -⟩ := TransportConfig.socketCan.inj htransport
  decide

/-- One ECU on an interface that is not among those of the channel. -/
def strayConfig : Config where
  ecus := [{ protocol := .can, interface := 200 }]
  transport := .socketCan ["can0"] 1024

/-- It passes all the same. -/
theorem strayConfig_passes : strayConfig.check = .ok () ∧
    ∃ e ∈ strayConfig.ecus, ¬ e.interface.toNat < strayConfig.transport.interfaceCount :=
  ⟨by decide +kernel, by decide⟩

end Config
end VehicleGateway
