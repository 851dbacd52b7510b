import VehicleGateway.Proofs.Keys.Commands

/-!
# What becomes of a key in a slot

A key stays in its slot until all keys are erased, or an order puts one with a higher counter in its
place; nothing puts one in the place of a key that is protected.

* `Carried.renewed` says so of one command, and `renewed_actAll` of all that is done to an element
  between two erases.
* `loaded_of_execute` says what an order has done that an element has carried out.
* `keys_retained` is the whole, for every run of an element.
-/

namespace VehicleGateway

/-- What can stand in the slot of a key as long as no keys are erased: the key itself, or one with a
higher counter, unless the key is protected. -/
def StoredKey.Renewed (old new : StoredKey) : Prop :=
  new = old ∨ (old.flags.writeProtection = false ∧ old.counter < new.counter)

theorem StoredKey.Renewed.trans {first second third : StoredKey} (h : first.Renewed second)
    (h' : second.Renewed third) : first.Renewed third := by
  rcases h with rfl | ⟨hopen, hlt⟩
  · exact h'
  · rcases h' with rfl | ⟨-, hlt'⟩
    · exact .inr ⟨hopen, hlt⟩
    · exact .inr ⟨hopen, hlt.trans hlt'⟩

namespace Element

variable {e e' : Element} {c : Command} {r : Except ElementFault Response} {slot : KeySlot}
  {old : StoredKey} {order : KeyOrder}

/-- What an order that is carried out writes. -/
theorem renewed_of_accept {written authority : KeySlot} {t : KeyTerms}
    (haccept : e.accept order = .ok (written, authority, t)) (h : e.slots.get? slot = some old) :
    ∃ new, (e.slots.insert written ⟨t.key, t.counter, t.flags⟩).get? slot = some new ∧
      old.Renewed new := by
  obtain ⟨hpermits, rfl⟩ := permits_of_accept haccept
  by_cases hslot : slot = written
  · subst hslot
    exact ⟨_, Dictionary.get?_insert_self _ _ _, .inr (hpermits.free old h)⟩
  · exact ⟨old, (Dictionary.get?_insert_of_ne _ hslot _).trans h, .inl rfl⟩

theorem Carried.renewed (hcarried : e.Carried c e' r)
    (hnot : ¬ (ElementEvent.answered c r).IsErase) (h : e.slots.get? slot = some old) :
    ∃ new, e'.slots.get? slot = some new ∧ old.Renewed new := by
  cases hcarried with
  | store receipt haccept => exact renewed_of_accept haccept h
  | erase => exact absurd ⟨_, rfl⟩ hnot
  | _ => exact ⟨old, h, .inl rfl⟩

theorem renewed_act {a : ElementAction} (hnot : ¬ (e.event a).IsErase)
    (h : e.slots.get? slot = some old) :
    ∃ new, (e.act a).slots.get? slot = some new ∧ old.Renewed new := by
  cases a with
  | command c => exact (e.carried_execute c).renewed hnot h
  | cancel => exact ⟨old, h, .inl rfl⟩

/-- As long as no keys are erased, a slot keeps its key or has it renewed. -/
theorem renewed_actAll {actions : List ElementAction}
    (hnot : ∀ event ∈ e.history actions, ¬ event.IsErase) (h : e.slots.get? slot = some old) :
    ∃ new, (e.actAll actions).slots.get? slot = some new ∧ old.Renewed new := by
  induction actions generalizing e old with
  | nil => exact ⟨old, h, .inl rfl⟩
  | cons a actions ih =>
    obtain ⟨middle, hmiddle, hrenewed⟩ := renewed_act (hnot _ List.mem_cons_self) h
    obtain ⟨new, hnew, hrenewed'⟩ := ih (fun event hevent => hnot event (.tail _ hevent)) hmiddle
    exact ⟨new, hnew, hrenewed.trans hrenewed'⟩

/-- An order that is carried out changes the slot that it names and no other, and raises the
counter. -/
theorem loaded_of_execute {answer : Response}
    (h : (e.execute (.loadKey order)).2 = .ok answer) :
    ∃ slot new, order.slot? = some slot ∧
      (e.execute (.loadKey order)).1.slots.get? slot = some new ∧
      (∀ old, e.slots.get? slot = some old → old.counter < new.counter) ∧
      (∀ other, other ≠ slot →
        (e.execute (.loadKey order)).1.slots.get? other = e.slots.get? other) ∧
      (e.execute (.loadKey order)).1.plainKey = e.plainKey := by
  have hcarried := e.carried_execute (.loadKey order)
  generalize (e.execute (.loadKey order)).1 = e', (e.execute (.loadKey order)).2 = r at h hcarried ⊢
  cases hcarried with
  | read _ _ hreads => cases hreads
  | refuse fault => cases h
  | store receipt haccept =>
    obtain ⟨hpermits, rfl⟩ := permits_of_accept haccept
    exact ⟨_, _, hpermits.names, Dictionary.get?_insert_self _ _ _,
      fun old hold => (hpermits.free old hold).2,
      fun other hother => Dictionary.get?_insert_of_ne _ hother _, rfl⟩

/-- In every run of an element only the master slot, the boot slot and the ten user slots hold keys,
with counters of 28 bits.  An order that is carried out changes the slot that it names and nothing
else, and raises the counter of the slot if it held a key.  As long as no keys are erased a key stays
in its slot until one with a higher counter takes its place, and for good if it is protected.  A
command that fails changes no key. -/
theorem keys_retained (identity : ElementId) (entropy : Nat → Block)
    (actions : List ElementAction) :
    let e := (fresh identity entropy).actAll actions
    (∀ slot stored, e.slots.get? slot = some stored →
      (slot = .master ∨ slot = .bootMac ∨
        ∃ n : UInt8, slot = .user n ∧ 1 ≤ n.toNat ∧ n.toNat ≤ 10) ∧
      stored.counter ≤ 2 ^ 28 - 1) ∧
    (∀ order answer, (e.execute (.loadKey order)).2 = .ok answer →
      ∃ slot new, order.slot? = some slot ∧
        (e.execute (.loadKey order)).1.slots.get? slot = some new ∧
        (∀ old, e.slots.get? slot = some old → old.counter < new.counter) ∧
        (∀ other, other ≠ slot →
          (e.execute (.loadKey order)).1.slots.get? other = e.slots.get? other) ∧
        (e.execute (.loadKey order)).1.plainKey = e.plainKey) ∧
    (∀ later, (∀ event ∈ e.history later, ¬ event.IsErase) →
      ∀ slot old, e.slots.get? slot = some old →
        ∃ new, (e.actAll later).slots.get? slot = some new ∧
          (new = old ∨ old.counter < new.counter) ∧
          (old.flags.writeProtection = true → new = old)) ∧
    ∀ c fault, (e.execute c).2 = .error fault →
      (e.execute c).1.slots = e.slots ∧ (e.execute c).1.plainKey = e.plainKey := by
  intro e
  have hsound : e.Sound := sound_actAll_fresh identity entropy actions
  refine ⟨?_, fun order answer => loaded_of_execute, ?_, ?_⟩
  · intro slot stored hstored
    exact ⟨(KeySlot.guarded_iff slot).mp (hsound.guarded slot stored hstored),
      hsound.fits slot stored hstored⟩
  · intro later hnot slot old hold
    obtain ⟨new, hnew, hrenewed⟩ := renewed_actAll hnot hold
    refine ⟨new, hnew, hrenewed.imp_right And.right, fun hprotected => ?_⟩
    rcases hrenewed with hsame | ⟨hopen, -⟩
    · exact hsame
    · cases hopen.symm.trans hprotected
  · intro c fault hfault
    have hcarried := e.carried_execute c
    rw [hfault] at hcarried
    exact hcarried.keys_of_error

/-! ## An element whose master key is protected -/

/-- The order that writes a protected master key into an element that has none. -/
def protectingOrder : KeyOrder :=
  .signed Block.zero (KeyOrder.pack guardedIdentity 1 1)
    ⟨1, { writeProtection := true }, guardedMaster⟩

/-- The order of the holder of the master key to replace it. -/
def replacingOrder : KeyOrder :=
  .signed guardedMaster (KeyOrder.pack guardedIdentity 1 1) ⟨2, {}, userKey⟩

/-- The element after its protected master key was written. -/
def protectedElement : Element :=
  (fresh guardedIdentity fun _ => Block.zero).actAll [.command (.loadKey protectingOrder)]

theorem protectedElement_eq : protectedElement.identity = guardedIdentity ∧
    protectedElement.slots =
      Dictionary.insert ∅ .master ⟨guardedMaster, 1, { writeProtection := true }⟩ := by
  obtain ⟨r, hr⟩ := load_signed_of_empty (fresh guardedIdentity fun _ => Block.zero) .master .master
    ⟨1, { writeProtection := true }, guardedMaster⟩ rfl rfl (by decide) (.inl rfl) rfl (by decide)
  rw [authorityKey_of_none rfl] at hr
  have hidentity : (fresh guardedIdentity fun _ => Block.zero).identity = guardedIdentity := rfl
  rw [hidentity] at hr
  rw [protectedElement, actAll_loadKey, protectingOrder, hr]
  exact ⟨rfl, rfl⟩

/-- The protected master key authorizes the first user key and then stays, although its holder orders
otherwise. -/
theorem protected_master_retained :
    protectedElement.slots.get? .master =
        some ⟨guardedMaster, 1, { writeProtection := true }⟩ ∧
      (∃ new, (protectedElement.execute (.loadKey (orderTo 4 1 guardedMaster userKey))).1.slots.get?
        (.user 1) = some new) ∧
      (protectedElement.actAll [.command (.loadKey (orderTo 4 1 guardedMaster userKey)), .cancel,
        .command (.loadKey replacingOrder)]).slots.get? .master =
          some ⟨guardedMaster, 1, { writeProtection := true }⟩ ∧
      (protectedElement.execute (.encryptEach .master [])).1.slots = protectedElement.slots := by
  obtain ⟨hidentity, hslots⟩ := protectedElement_eq
  have hmaster : protectedElement.slots.get? .master =
      some ⟨guardedMaster, 1, { writeProtection := true }⟩ := by
    rw [hslots, Dictionary.get?_insert_self]
  have huser : protectedElement.slots.get? (.user 1) = none := by
    rw [hslots, Dictionary.get?_insert_of_ne _ (by decide)]
    rfl
  obtain ⟨-, hloads, hstays, hfails⟩ := keys_retained guardedIdentity (fun _ => Block.zero)
    [.command (.loadKey protectingOrder)]
  refine ⟨hmaster, ?_, ?_, (hfails (.encryptEach .master []) .notPermitted rfl).1⟩
  · obtain ⟨answer, hload⟩ := protectedElement.load_signed_of_empty (.user 1) .master
      ⟨1, {}, userKey⟩ rfl rfl (by decide) (.inl rfl) huser (by decide)
    rw [authorityKey_of_some hmaster, hidentity] at hload
    obtain ⟨slot, new, hslot, hnew, -⟩ := hloads (orderTo 4 1 guardedMaster userKey) answer
      (congrArg Prod.snd hload)
    obtain rfl : KeySlot.user 1 = slot := Option.some.inj hslot
    exact ⟨new, hnew⟩
  · have hspared : ∀ event ∈ protectedElement.history
        [.command (.loadKey (orderTo 4 1 guardedMaster userKey)), .cancel,
          .command (.loadKey replacingOrder)], ¬ event.IsErase := by
      simp only [history, event, List.forall_mem_cons, List.not_mem_nil, false_implies,
        implies_true, and_true]
      refine ⟨?_, ?_, ?_⟩
      all_goals
        rintro ⟨proof, h⟩
        cases h
    obtain ⟨new, hnew, -, hprotected⟩ := hstays _ hspared .master _ hmaster
    rw [hprotected rfl] at hnew
    exact hnew

end Element
end VehicleGateway
