import VehicleGateway.Proofs.Keys.ElementRun
import VehicleGateway.Proofs.Keys.Order

/-!
# Who can write a slot

An order to write a slot carries a code, and the element accepts the order only if the code is right
under the key of the slot that authorizes it.  That is the master key or the key in the written slot
itself, as far as there are such keys: an empty slot authorizes with zeros, also itself.

* `accept_eq_ok_iff` says exactly which orders are accepted, and `load_of_accept` that an accepted
  order is always carried out.
* `load_ok_only_under_own_authority` is the law about the authorizing key.
* `load_signed_of_empty` is its other side: who holds that key can write an empty slot.
* `zero_key_writes_empty_slot` is a run in which somebody who knows only the key of zeros writes a
  slot of an element with a secret master key.
-/

namespace VehicleGateway

namespace KeyReceipt

/-- A receipt can be made for all slots and counters that stand in an order. -/
theorem exists_make {authority slot : KeySlot} (key : Key) {counter : Nat} (element : ElementId)
    {a s : UInt8} (ha : authority.number? = some a) (hs : slot.number? = some s)
    (hcounter : counter ≤ KeyOrder.maxCounter) :
    ∃ receipt, make authority slot key counter element = .ok receipt := by
  have hlt : ¬ KeyOrder.maxCounter < counter := by omega
  simp [make, hlt, KeyOrder.addressOf, hs, ha]

end KeyReceipt

namespace Element

/-- What an element checks of an order before it writes a slot. -/
structure Permits (e : Element) (o : KeyOrder) (slot authority : KeySlot) : Prop where
  names : o.slot? = some slot
  authorized : o.authority? = some authority
  notRam : slot ≠ .ram
  own : authority = .master ∨ authority = slot
  addressed : e.addressed o.element (e.slots.get? slot) = true
  made : o.MadeWith (e.authorityKey authority)
  free : ∀ present, e.slots.get? slot = some present → present.flags.writeProtection = false ∧
    present.counter < (o.termsUnder (e.authorityKey authority)).counter

theorem permits_of_accept {e : Element} {o : KeyOrder} {slot authority : KeySlot} {t : KeyTerms}
    (h : e.accept o = .ok (slot, authority, t)) :
    e.Permits o slot authority ∧ t = o.termsUnder (e.authorityKey authority) := by
  unfold accept at h
  dsimp only at h
  split at h
  case h_2 => cases h
  case h_1 s a hs ha =>
    -- Every check of the element is a case; where a check fails nothing is accepted.
    split at h
    case isTrue => cases h
    case isFalse hram =>
    split at h
    case isTrue => cases h
    case isFalse hown =>
    split at h
    case isTrue => cases h
    case isFalse haddressed =>
    split at h
    case h_1 => cases h
    case h_2 terms hread =>
    have hdone : (s, a, terms) = (slot, authority, t) ∧ ∀ present, e.slots.get? s = some present →
        present.flags.writeProtection = false ∧ present.counter < terms.counter := by
      split at h
      case h_1 hempty =>
        refine ⟨Except.ok.inj h, ?_⟩
        intro present hpresent
        rw [hempty] at hpresent
        cases hpresent
      case h_2 stored hstored =>
        split at h
        case isTrue => cases h
        case isFalse hopen =>
        split at h
        case isTrue => cases h
        case isFalse hnew =>
        refine ⟨Except.ok.inj h, ?_⟩
        intro present hpresent
        obtain rfl := Option.some.inj (hstored.symm.trans hpresent)
        exact ⟨by simpa using hopen, by omega⟩
    obtain ⟨hsame, hfree⟩ := hdone
    cases hsame
    have hnamed : e.addressed o.element (e.slots.get? slot) = true := by
      unfold KeyOrder.element
      simpa using haddressed
    obtain ⟨hmade, hterms⟩ := (KeyOrder.read_eq_ok_iff _ _ _).mp hread
    rw [hterms] at hfree
    refine ⟨⟨hs, ha, fun h => hram (.inl h), ?_, hnamed, hmade, hfree⟩, hterms⟩
    by_cases hmaster : authority = .master
    · exact .inl hmaster
    · exact .inr (Classical.not_not.mp fun hother => hown ⟨hmaster, hother⟩)

theorem accept_of_permits {e : Element} {o : KeyOrder} {slot authority : KeySlot}
    (h : e.Permits o slot authority) :
    e.accept o = .ok (slot, authority, o.termsUnder (e.authorityKey authority)) := by
  have hslot := h.names
  have hauthority := h.authorized
  have haddressed := h.addressed
  simp only [KeyOrder.slot?, KeyOrder.authority?, KeyOrder.element] at hslot hauthority haddressed
  -- The slot in memory authorizes nothing: it is not the master slot, and cannot be written.
  have hplain : ¬ (slot = .ram ∨ authority = .ram) := by
    rintro (hram | rfl)
    · exact h.notRam hram
    · rcases h.own with hmaster | hram
      · cases hmaster
      · exact h.notRam hram.symm
  have hentitled : ¬ (authority ≠ .master ∧ authority ≠ slot) := by
    rintro ⟨hmaster, hother⟩
    exact h.own.elim hmaster hother
  have hread : KeyOrder.read (e.authorityKey authority) o =
      .ok (o.termsUnder (e.authorityKey authority)) :=
    (KeyOrder.read_eq_ok_iff _ _ _).mpr ⟨h.made, rfl⟩
  unfold accept
  simp only [hslot, hauthority, if_neg hplain, if_neg hentitled, haddressed, hread,
    Bool.not_true, Bool.false_eq_true, if_false]
  cases hpresent : e.slots.get? slot with
  | none => rfl
  | some present =>
    obtain ⟨hopen, hnew⟩ := h.free present hpresent
    simp only [hopen, Bool.false_eq_true, if_false, if_neg (Nat.not_le.mpr hnew)]

/-- The orders that an element accepts, and what it reads in them. -/
theorem accept_eq_ok_iff (e : Element) (o : KeyOrder) (slot authority : KeySlot) (t : KeyTerms) :
    e.accept o = .ok (slot, authority, t) ↔
      e.Permits o slot authority ∧ t = o.termsUnder (e.authorityKey authority) := by
  constructor
  · exact permits_of_accept
  · rintro ⟨h, rfl⟩
    exact accept_of_permits h

/-- An order that is accepted is always carried out. -/
theorem load_of_accept {e : Element} {o : KeyOrder} {slot authority : KeySlot} {t : KeyTerms}
    (h : e.accept o = .ok (slot, authority, t)) :
    ∃ r, e.load o =
      ({ e with slots := e.slots.insert slot ⟨t.key, t.counter, t.flags⟩ }, .ok r) := by
  obtain ⟨hpermits, rfl⟩ := permits_of_accept h
  obtain ⟨receipt, hreceipt⟩ := KeyReceipt.exists_make
    (o.termsUnder (e.authorityKey authority)).key e.identity
    (KeySlot.number?_of_ofNumber? hpermits.authorized) (KeySlot.number?_of_ofNumber? hpermits.names)
    (o.counter_termsUnder_le (e.authorityKey authority))
  refine ⟨.keyLoaded receipt, ?_⟩
  rw [load, h]
  dsimp only
  rw [hreceipt]

/-- The orders that are carried out are those that are accepted. -/
theorem load_eq_ok_iff (e : Element) (o : KeyOrder) :
    (∃ r, (e.load o).2 = .ok r) ↔ ∃ slot authority t, e.accept o = .ok (slot, authority, t) := by
  cases ha : e.accept o with
  | error fault => simp [load, ha]
  | ok accepted =>
    obtain ⟨slot, authority, t⟩ := accepted
    obtain ⟨r, hr⟩ := load_of_accept ha
    simp [hr]

/-- An order changes the slot that it names, and only if it is carried out. -/
theorem slot_of_load_changes (e : Element) (o : KeyOrder) (s : KeySlot)
    (h : (e.load o).1.slots.get? s ≠ e.slots.get? s) :
    o.slot? = some s ∧ ∃ r, (e.load o).2 = .ok r := by
  cases ha : e.accept o with
  | error fault => simp [load, ha] at h
  | ok accepted =>
    obtain ⟨slot, authority, t⟩ := accepted
    obtain ⟨r, hr⟩ := load_of_accept ha
    rw [hr] at h ⊢
    refine ⟨?_, r, rfl⟩
    by_cases hs : s = slot
    · rw [hs]
      exact (permits_of_accept ha).1.names
    · exact absurd (e.slots.get?_insert_of_ne hs _) h

theorem authorityKey_of_some {e : Element} {slot : KeySlot} {stored : StoredKey}
    (h : e.slots.get? slot = some stored) : e.authorityKey slot = stored.key := by
  simp [authorityKey, h]

theorem authorityKey_of_none {e : Element} {slot : KeySlot} (h : e.slots.get? slot = none) :
    e.authorityKey slot = Block.zero := by
  simp [authorityKey, h]

/-- An order is only carried out if its code is right under the key of a slot that may authorize. -/
theorem authority_of_load_ok {e : Element} {o : KeyOrder} {master : StoredKey} {r : Response}
    (hmaster : e.slots.get? .master = some master) (hr : (e.load o).2 = .ok r) :
    ∃ slot, o.slot? = some slot ∧
      (o.authority? = some .master ∧ o.MadeWith master.key ∨
        (∃ own, o.authority? = some slot ∧ e.slots.get? slot = some own ∧ o.MadeWith own.key) ∨
        (o.authority? = some slot ∧ e.slots.get? slot = none ∧ o.MadeWith Block.zero)) := by
  obtain ⟨slot, authority, t, ha⟩ := (e.load_eq_ok_iff o).mp ⟨r, hr⟩
  have hpermits := (permits_of_accept ha).1
  have hauth := hpermits.authorized
  have hmade := hpermits.made
  refine ⟨slot, hpermits.names, ?_⟩
  -- In the name of the master slot, or of the written one, which may be empty.
  rcases hpermits.own with rfl | rfl
  · rw [authorityKey_of_some hmaster] at hmade
    exact .inl ⟨hauth, hmade⟩
  · cases hp : e.slots.get? authority with
    | none =>
      rw [authorityKey_of_none hp] at hmade
      exact .inr (.inr ⟨hauth, rfl, hmade⟩)
    | some own =>
      rw [authorityKey_of_some hp] at hmade
      exact .inr (.inl ⟨own, hauth, rfl, hmade⟩)

/-- An element with a master key writes a slot only for an order whose code is right under the
master key, if the order is given in its name, or under the key in the very slot that is written, if
it is given in the name of that slot; a slot that is empty stands in with the key of zeros for the
key that it does not hold.

So who can make no order with the master key, and none with the key in the slot, cannot write a slot
that holds a key.  An empty one is written for every order to this element in the name of that slot
that is made with the key of zeros, and for no other. -/
theorem load_ok_only_under_own_authority (e : Element) (o : KeyOrder) (master : StoredKey)
    (hmaster : e.slots.get? .master = some master) :
    (∀ r, (e.load o).2 = .ok r → ∃ slot, o.slot? = some slot ∧
      (o.authority? = some .master ∧ o.MadeWith master.key ∨
        (∃ own, o.authority? = some slot ∧ e.slots.get? slot = some own ∧ o.MadeWith own.key) ∨
        (o.authority? = some slot ∧ e.slots.get? slot = none ∧ o.MadeWith Block.zero))) ∧
    (∀ slot, o.slot? = some slot → ¬ o.MadeWith master.key →
      (∀ own, e.slots.get? slot = some own → ¬ o.MadeWith own.key) →
      ((∃ r, (e.load o).2 = .ok r) ↔
        o.authority? = some slot ∧ slot ≠ .ram ∧ e.slots.get? slot = none ∧
          o.element = e.identity ∧ o.MadeWith Block.zero)) ∧
    (∀ slot, (e.load o).1.slots.get? slot ≠ e.slots.get? slot →
      o.slot? = some slot ∧ ∃ r, (e.load o).2 = .ok r) := by
  refine ⟨fun r => authority_of_load_ok hmaster, ?_, e.slot_of_load_changes o⟩
  intro slot hslot hnotMaster hnotOwn
  constructor
  · rintro ⟨r, hr⟩
    obtain ⟨slot', authority, t, ha⟩ := (e.load_eq_ok_iff o).mp ⟨r, hr⟩
    have hpermits := (permits_of_accept ha).1
    obtain rfl : slot' = slot := Option.some.inj (hpermits.names.symm.trans hslot)
    obtain ⟨slot'', hslot'', hcases⟩ := authority_of_load_ok hmaster hr
    obtain rfl : slot'' = slot' := Option.some.inj (hslot''.symm.trans hslot)
    rcases hcases with ⟨-, hmade⟩ | ⟨own, -, hown, hmade⟩ | ⟨hauth, hempty, hmade⟩
    · exact absurd hmade hnotMaster
    · exact absurd hmade (hnotOwn own hown)
    · refine ⟨hauth, hpermits.notRam, hempty, ?_, hmade⟩
      simpa [addressed, hempty] using hpermits.addressed
  · rintro ⟨hauth, hram, hempty, helement, hmade⟩
    rw [load_eq_ok_iff]
    refine ⟨slot, slot, _, accept_of_permits ⟨hslot, hauth, hram, .inr rfl, ?_, ?_, ?_⟩⟩
    · simp [addressed, helement]
    · rw [authorityKey_of_none hempty]
      exact hmade
    · intro present hpresent
      rw [hempty] at hpresent
      cases hpresent

/-- Who holds the key that authorizes can write an empty slot. -/
theorem load_signed_of_empty (e : Element) (slot authority : KeySlot) (t : KeyTerms) {s a : UInt8}
    (hs : slot.number? = some s) (ha : authority.number? = some a) (hram : slot ≠ .ram)
    (hown : authority = .master ∨ authority = slot) (hempty : e.slots.get? slot = none)
    (ht : t.counter ≤ KeyOrder.maxCounter) :
    ∃ r, e.load (.signed (e.authorityKey authority) (KeyOrder.pack e.identity s a) t) =
      ({ e with slots := e.slots.insert slot ⟨t.key, t.counter, t.flags⟩ }, .ok r) := by
  have hunpack := KeyOrder.unpack_pack e.identity (KeySlot.toNat_lt_of_number? hs)
    (KeySlot.toNat_lt_of_number? ha)
  refine load_of_accept ((e.accept_eq_ok_iff _ slot authority t).mpr
    ⟨⟨?_, ?_, hram, hown, ?_, KeyOrder.madeWith_signed _ _ t, ?_⟩,
      (KeyOrder.termsUnder_signed _ _ t ht).symm⟩)
  · change KeySlot.ofNumber? (KeyOrder.unpack (KeyOrder.pack e.identity s a)).2.1 = _
    rw [hunpack]
    exact KeySlot.ofNumber?_of_number? hs
  · change KeySlot.ofNumber? (KeyOrder.unpack (KeyOrder.pack e.identity s a)).2.2 = _
    rw [hunpack]
    exact KeySlot.ofNumber?_of_number? ha
  · have helement : (KeyOrder.unpack (KeyOrder.pack e.identity s a)).1 = e.identity := by
      rw [hunpack]
    simp [addressed, KeyOrder.element, KeyOrder.signed, helement]
  · intro present hpresent
    rw [hempty] at hpresent
    cases hpresent

/-! ## An element with a master key and nothing else -/

/-- The identity of the element. -/
def guardedIdentity : ElementId := Vector.replicate 15 0xA5

/-- The master key of the element. -/
def guardedMaster : Key := Vector.replicate 16 0x11

/-- A key that somebody wants to write into the first user slot. -/
def userKey : Key := Vector.replicate 16 0x22

/-- The order that writes a slot of the element in the name of another. -/
def orderTo (slot authority : UInt8) (authorityKey key : Key) : KeyOrder :=
  .signed authorityKey (KeyOrder.pack guardedIdentity slot authority) ⟨1, {}, key⟩

/-- The element after its master key was written with the key of zeros. -/
def guarded : Element :=
  (fresh guardedIdentity fun _ => Block.zero).actAll
    [.command (.loadKey (orderTo 1 1 Block.zero guardedMaster))]

/-- An element that was given one order. -/
theorem actAll_loadKey (e : Element) (o : KeyOrder) :
    e.actAll [.command (.loadKey o)] = (e.load o).1 :=
  rfl

theorem guarded_eq : guarded.identity = guardedIdentity ∧
    guarded.slots = Dictionary.insert ∅ .master ⟨guardedMaster, 1, {}⟩ := by
  obtain ⟨r, hr⟩ := load_signed_of_empty (fresh guardedIdentity fun _ => Block.zero) .master .master
    ⟨1, {}, guardedMaster⟩ rfl rfl (by decide) (.inl rfl) rfl (by decide)
  rw [authorityKey_of_none rfl] at hr
  have hload : guarded = ((fresh guardedIdentity fun _ => Block.zero).load
      (.signed Block.zero (KeyOrder.pack guardedIdentity 1 1) ⟨1, {}, guardedMaster⟩)).1 := by
    rw [guarded, actAll_loadKey, orderTo]
  have hidentity : (fresh guardedIdentity fun _ => Block.zero).identity = guardedIdentity := rfl
  rw [hidentity] at hr
  rw [hload, hr]
  exact ⟨rfl, rfl⟩

theorem guarded_master : guarded.slots.get? .master = some ⟨guardedMaster, 1, {}⟩ := by
  rw [guarded_eq.2, Dictionary.get?_insert_self]

theorem guarded_user : guarded.slots.get? (.user 1) = none := by
  rw [guarded_eq.2, Dictionary.get?_insert_of_ne _ (by decide)]
  rfl

/-- Who holds the master key of the element writes the first user slot with it. -/
theorem guarded_obeys_master :
    guarded.slots.get? .master = some ⟨guardedMaster, 1, {}⟩ ∧
      (guarded.load (orderTo 4 1 guardedMaster userKey)).1.slots.get? (.user 1) =
        some ⟨userKey, 1, {}⟩ ∧
      (orderTo 4 1 guardedMaster userKey).slot? = some (.user 1) ∧
      ∃ r, (guarded.load (orderTo 4 1 guardedMaster userKey)).2 = .ok r := by
  obtain ⟨r, hr⟩ := guarded.load_signed_of_empty (.user 1) .master ⟨1, {}, userKey⟩ rfl rfl
    (by decide) (.inl rfl) guarded_user (by decide)
  rw [authorityKey_of_some guarded_master, guarded_eq.1] at hr
  have hload : guarded.load (orderTo 4 1 guardedMaster userKey) = _ := hr
  have hwritten : (guarded.load (orderTo 4 1 guardedMaster userKey)).1.slots.get? (.user 1) =
      some ⟨userKey, 1, {}⟩ := by
    rw [hload]
    exact Dictionary.get?_insert_self _ _ _
  obtain ⟨-, -, hchanged⟩ := load_ok_only_under_own_authority guarded
    (orderTo 4 1 guardedMaster userKey) ⟨guardedMaster, 1, {}⟩ guarded_master
  refine ⟨guarded_master, hwritten, hchanged (.user 1) ?_⟩
  rw [hwritten, guarded_user]
  exact Option.some_ne_none _

/-- The first user slot of the element is empty, and who knows no key but that of zeros writes
it. -/
theorem zero_key_writes_empty_slot :
    guarded.slots.get? .master = some ⟨guardedMaster, 1, {}⟩ ∧ guardedMaster ≠ Block.zero ∧
      guarded.slots.get? (.user 1) = none ∧
      KeyOrder.make Block.zero (.user 1) (.user 1) userKey 1 {} guarded.identity =
        .ok (orderTo 4 4 Block.zero userKey) ∧
      (∃ r, (guarded.load (orderTo 4 4 Block.zero userKey)).2 = .ok r) ∧
      (guarded.load (orderTo 4 4 Block.zero userKey)).1.slots.get? (.user 1) =
        some ⟨userKey, 1, {}⟩ := by
  obtain ⟨r, hr⟩ := guarded.load_signed_of_empty (.user 1) (.user 1) ⟨1, {}, userKey⟩ rfl rfl
    (by decide) (.inr rfl) guarded_user (by decide)
  rw [authorityKey_of_none guarded_user, guarded_eq.1] at hr
  have hload : guarded.load (orderTo 4 4 Block.zero userKey) = _ := hr
  have hmake := KeyOrder.make_eq_signed (.user 1) (.user 1) Block.zero userKey 1 {} guarded.identity
    rfl rfl (by decide)
  rw [guarded_eq.1] at hmake ⊢
  refine ⟨guarded_master, by decide, guarded_user, hmake, ⟨r, by rw [hload]⟩, ?_⟩
  rw [hload]
  exact Dictionary.get?_insert_self _ _ _

end Element
end VehicleGateway
