import VehicleGateway.Proofs.Keys.Mirror

/-!
# What can be loaded

A key is loaded into a slot if both the service and its element agree to that.  The service looks at
the slot, at the counter, and at what it has noted; the element looks at what it stores.

* `Loadable` says what it takes, in terms of the element alone.
* `judgeLoad_eq_ok_iff` and `authority_eq_ok_iff` say how much of that the service sees, as long as
  notes and slots agree.
* `load_of_loadable` and `fault_of_not_loadable` say that the element sees to the rest: it carries
  an order out exactly for what is loadable.
-/

namespace VehicleGateway

namespace Element

variable {e e' : Element} {slot : KeySlot} {key : Key} {counter : Nat} {flags : KeyFlags}
  {order : KeyOrder}

/-- What it takes to load a key under a counter into a slot of an element. -/
structure Loadable (e : Element) (slot : KeySlot) (counter : Nat) : Prop where
  guarded : slot = .master ∨ slot = .bootMac ∨
    ∃ n : UInt8, slot = .user n ∧ 1 ≤ n.toNat ∧ n.toNat ≤ 10
  fits : counter ≤ 2 ^ 28 - 1
  newer : ∀ stored, e.slots.get? slot = some stored → stored.counter < counter
  /-- There is a master key, or the key becomes it. -/
  authorized : slot = .master ∨ ∃ master, e.slots.get? .master = some master
  writable : ∀ stored, e.slots.get? slot = some stored → stored.flags.writeProtection = false

theorem Loadable.congr (h : e.Loadable slot counter)
    (hslots : ∀ s, e'.slots.get? s = e.slots.get? s) : e'.Loadable slot counter := by
  refine ⟨h.guarded, h.fits, ?_, ?_, ?_⟩
  · rw [hslots]
    exact h.newer
  · rw [hslots]
    exact h.authorized
  · rw [hslots]
    exact h.writable

/-- An element that holds nothing takes its first master key. -/
theorem loadable_of_blank (h : ∀ s, e.slots.get? s = none) : e.Loadable .master 1 := by
  refine ⟨.inl rfl, by decide, ?_, .inl rfl, ?_⟩
  all_goals
    intro stored hstored
    cases (h .master).symm.trans hstored

/-- An element carries out an order in the name of its master key unless the slot holds a key that
keeps others out, or one that is as new. -/
theorem load_ok_iff_of_make (hguarded : slot.guarded = true)
    (h : KeyOrder.make (e.authorityKey .master) .master slot key counter flags e.identity =
      .ok order) :
    (∃ r, (e.load order).2 = .ok r) ↔ ∀ stored, e.slots.get? slot = some stored →
      stored.flags.writeProtection = false ∧ stored.counter < counter := by
  obtain ⟨hslot, hauthority, helement, hmade, hterms⟩ := KeyOrder.said_of_make h
  rw [load_eq_ok_iff]
  constructor
  · rintro ⟨slot', authority, terms, haccept⟩
    obtain ⟨hpermits, -⟩ := permits_of_accept haccept
    obtain rfl := Option.some.inj (hslot.symm.trans hpermits.names)
    obtain rfl := Option.some.inj (hauthority.symm.trans hpermits.authorized)
    have hfree := hpermits.free
    rwa [hterms] at hfree
  · intro hfree
    refine ⟨slot, .master, _, accept_of_permits ⟨hslot, hauthority, ?_, .inl rfl, ?_, hmade, ?_⟩⟩
    · rintro rfl
      cases hguarded
    · simp [addressed, helement]
    · rwa [hterms]

/-- What is loadable is loaded, and the element sends its receipt. -/
theorem load_of_loadable (hloadable : e.Loadable slot counter)
    (h : KeyOrder.make (e.authorityKey .master) .master slot key counter flags e.identity =
      .ok order) :
    ∃ receipt, KeyReceipt.make .master slot key counter e.identity = .ok receipt ∧
      e.load order = ({ e with slots := e.slots.insert slot ⟨key, counter, flags⟩ },
        .ok (.keyLoaded receipt)) := by
  have hguarded := (KeySlot.guarded_iff slot).mpr hloadable.guarded
  obtain ⟨r, hr⟩ := (load_ok_iff_of_make hguarded h).mpr fun stored hstored =>
    ⟨hloadable.writable stored hstored, hloadable.newer stored hstored⟩
  rcases load_cases h with ⟨fault, hfault⟩ | hloaded
  · cases (congrArg Prod.snd hfault).symm.trans hr
  · exact hloaded

/-- What is not loadable is refused, and the element stays as it is. -/
theorem fault_of_not_loadable (hguarded : slot.guarded = true)
    (hauthorized : slot = .master ∨ ∃ master, e.slots.get? .master = some master)
    (h : KeyOrder.make (e.authorityKey .master) .master slot key counter flags e.identity =
      .ok order) (hnot : ¬ e.Loadable slot counter) :
    ∃ fault, e.load order = (e, .error fault) := by
  rcases load_cases h with hfault | ⟨receipt, -, hloaded⟩
  · exact hfault
  · have hfree := (load_ok_iff_of_make hguarded h).mp ⟨_, by rw [hloaded]⟩
    obtain ⟨hcounter, -⟩ := KeyOrder.signed_of_make h
    refine absurd ⟨(KeySlot.guarded_iff slot).mp hguarded, hcounter, ?_, hauthorized, ?_⟩ hnot
    · exact fun stored hstored => (hfree stored hstored).2
    · exact fun stored hstored => (hfree stored hstored).1

end Element

namespace KeyService

variable {s s' : KeyService} {e : Element} {slot : KeySlot} {counter : Nat} {key : Key}

/-- The service looks at the counter of the key that the element stores. -/
theorem checkCounter_eq_ok_iff (h : s.Agrees e slot) :
    s.checkCounter slot counter = .ok () ↔
      ∀ stored, e.slots.get? slot = some stored → stored.counter < counter := by
  unfold checkCounter
  rcases h with ⟨hnote, hslot⟩ | ⟨key, noted, flags, hnote, hslot⟩
  · simp [hnote, hslot]
  · simp [hnote, hslot]

/-- The service finds a key that authorizes a load. -/
theorem authority_eq_ok_iff (h : s.Agrees e slot) (hmaster : s.Agrees e .master) :
    (∃ key, s.authority slot counter = .ok key) ↔
      (∀ stored, e.slots.get? slot = some stored → stored.counter < counter) ∧
        (slot = .master ∨ ∃ master, e.slots.get? .master = some master) := by
  rw [← checkCounter_eq_ok_iff h]
  unfold authority
  cases hcheck : s.checkCounter slot counter with
  | error fault => simp
  | ok _ =>
    rcases hmaster with ⟨hnote, hslot⟩ | ⟨key, noted, flags, hnote, hslot⟩
    · by_cases hsame : slot = .master <;> simp [hnote, hslot, hsame]
    · simp [hnote, hslot]

/-- What the service judges of a load before it asks for the token. -/
theorem judgeLoad_eq_ok_iff : s.judgeLoad slot counter = .ok () ↔
    slot.guarded = true ∧ counter ≤ KeyOrder.maxCounter ∧
      ∃ key, s.authority slot counter = .ok key := by
  unfold judgeLoad
  cases hguarded : slot.guarded with
  | false => simp
  | true =>
    by_cases hfits : KeyOrder.maxCounter < counter
    · simp [hfits]
    · cases hauthority : s.authority slot counter with
      | error fault => simp [hfits, Except.map]
      | ok key => simp [hfits, Except.map, Nat.not_lt.mp hfits]

end KeyService
end VehicleGateway
