import VehicleGateway.Proofs.Keys.Authority

/-!
# What becomes of a command

A secure element has many commands, but only four of them touch what it holds: an order writes one
slot, a key can be loaded in the clear, a challenge can be drawn, and the answer to a challenge
erases all keys or nothing.

* `Carried` says what becomes of a command, with all that the element has found before, and
  `carried_execute` that nothing else does.
* `Sound` is what every action keeps: which slots hold keys, and that each slot holds one.
-/

namespace VehicleGateway

/-- Whether a command leaves an element as it was, but for the random blocks that it draws. -/
def Command.reads : Command → Bool
  | .loadKey _ | .loadPlainKey _ | .debugChallenge | .debugAuthorize _ => false
  | _ => true

namespace Element

variable {e e' : Element} {c : Command} {r : Except ElementFault Response}

/-- No key in the element keeps the others from being erased. -/
def Erasable (e : Element) : Prop :=
  ∀ entry ∈ e.slots.entries, entry.2.flags.debuggerProtection = false

theorem authorize_of_none (hnone : e.challenge = none) (proof : Block) :
    e.authorize proof = (e, .error .sequence) := by
  simp [authorize, hnone]

/-- What becomes of an answer to a challenge. -/
theorem authorize_eq {challenge : Block} (hchallenge : e.challenge = some challenge)
    (herasable : e.Erasable) (proof : Block) :
    e.authorize proof =
      if debugProof (e.authorityKey .master) challenge e.identity = proof then
        ({ e with challenge := none, slots := ∅, plainKey := none }, .ok .done)
      else ({ e with challenge := none }, .error .noDebugging) := by
  have hfree : (e.slots.entries.any fun entry => entry.2.flags.debuggerProtection) = false := by
    simpa [Erasable] using herasable
  simp [authorize, hchallenge, hfree]

/-- What becomes of a command: the element after it, and the answer. -/
inductive Carried (e : Element) : Command → Element → Except ElementFault Response → Prop where
  | read {c : Command} (drawn : Nat) (r : Except ElementFault Response) (hreads : c.reads = true) :
      Carried e c { e with drawn } r
  | refuse {order : KeyOrder} (fault : ElementFault) : Carried e (.loadKey order) e (.error fault)
  | store {order : KeyOrder} {slot authority : KeySlot} {t : KeyTerms} (receipt : KeyReceipt)
      (haccept : e.accept order = .ok (slot, authority, t)) :
      Carried e (.loadKey order)
        { e with slots := e.slots.insert slot ⟨t.key, t.counter, t.flags⟩ }
        (.ok (.keyLoaded receipt))
  | loadPlain (key : Key) :
      Carried e (.loadPlainKey key) { e with plainKey := some key } (.ok .done)
  | draw (challenge : Block) (drawn : Nat) :
      Carried e .debugChallenge { e with challenge := some challenge, drawn }
        (.ok (.challenge challenge))
  /-- The challenge is used up, if there was one. -/
  | deny {proof : Block} (fault : ElementFault) :
      Carried e (.debugAuthorize proof) { e with challenge := none } (.error fault)
  | erase {challenge : Block} (hchallenge : e.challenge = some challenge)
      (herasable : e.Erasable) :
      Carried e (.debugAuthorize (debugProof (e.authorityKey .master) challenge e.identity))
        { e with challenge := none, slots := ∅, plainKey := none } (.ok .done)

theorem carried_load (e : Element) (order : KeyOrder) :
    e.Carried (.loadKey order) (e.load order).1 (e.load order).2 := by
  unfold load
  cases haccept : e.accept order with
  | error fault => exact .refuse fault
  | ok accepted =>
    obtain ⟨slot, authority, t⟩ := accepted
    dsimp only
    split
    case h_1 fault _ => exact .refuse fault
    case h_2 receipt _ => exact .store receipt haccept

theorem carried_authorize (e : Element) (proof : Block) :
    e.Carried (.debugAuthorize proof) (e.authorize proof).1 (e.authorize proof).2 := by
  cases hchallenge : e.challenge with
  | none =>
    have hsame : e = { e with challenge := none } := by rw [← hchallenge]
    rw [authorize_of_none hchallenge]
    exact hsame ▸ .deny .sequence
  | some challenge =>
    by_cases herasable : e.Erasable
    · rw [authorize_eq hchallenge herasable]
      split
      case isTrue hproof => exact hproof ▸ .erase hchallenge herasable
      case isFalse => exact .deny .noDebugging
    · have hfree : (e.slots.entries.any fun entry => entry.2.flags.debuggerProtection) = true := by
        simpa [Erasable] using herasable
      have hauthorize : e.authorize proof = ({ e with challenge := none }, .error .noDebugging) := by
        simp [authorize, hchallenge, hfree]
      rw [hauthorize]
      exact .deny .noDebugging

/-- Every command is carried in one of these ways. -/
theorem carried_execute (e : Element) (c : Command) :
    e.Carried c (e.execute c).1 (e.execute c).2 := by
  cases c with
  | loadKey order => exact e.carried_load order
  | debugAuthorize proof => exact e.carried_authorize proof
  | loadPlainKey key => exact .loadPlain key
  | debugChallenge => exact .draw _ _
  | random => exact .read (e.drawn + 1) _ rfl
  | _ => exact .read e.drawn _ rfl

theorem Carried.identity_eq (h : e.Carried c e' r) : e'.identity = e.identity := by
  cases h <;> rfl

theorem identity_execute (e : Element) (c : Command) : (e.execute c).1.identity = e.identity :=
  (e.carried_execute c).identity_eq

theorem identity_actAll (e : Element) (actions : List ElementAction) :
    (e.actAll actions).identity = e.identity := by
  refine actAll_induction (P := fun e' => e'.identity = e.identity) rfl ?_ actions
  intro e' a h
  cases a with
  | command c => exact (e'.identity_execute c).trans h
  | cancel => exact h

/-- A command that fails has changed no key. -/
theorem Carried.keys_of_error {fault : ElementFault} (h : e.Carried c e' (.error fault)) :
    e'.slots = e.slots ∧ e'.plainKey = e.plainKey := by
  cases h <;> exact ⟨rfl, rfl⟩

/-- What every action keeps. -/
structure Sound (e : Element) : Prop where
  guarded : ∀ slot stored, e.slots.get? slot = some stored → slot.guarded = true
  fits : ∀ slot stored, e.slots.get? slot = some stored → stored.counter ≤ KeyOrder.maxCounter
  distinct : e.slots.keys.Nodup

theorem Sound.congr (h : e.Sound) (hslots : e'.slots = e.slots) : e'.Sound := by
  refine ⟨?_, ?_, ?_⟩
  · rw [hslots]
    exact h.guarded
  · rw [hslots]
    exact h.fits
  · rw [hslots]
    exact h.distinct

/-- An element without keys is sound. -/
theorem sound_of_slots_eq_empty (h : e.slots = ∅) : e.Sound := by
  refine ⟨?_, ?_, ?_⟩
  · intro slot stored hstored
    rw [h] at hstored
    cases hstored
  · intro slot stored hstored
    rw [h] at hstored
    cases hstored
  · rw [h]
    exact List.Pairwise.nil

theorem Sound.store {order : KeyOrder} {slot authority : KeySlot} {t : KeyTerms} (h : e.Sound)
    (haccept : e.accept order = .ok (slot, authority, t)) :
    { e with slots := e.slots.insert slot ⟨t.key, t.counter, t.flags⟩ }.Sound := by
  obtain ⟨hpermits, rfl⟩ := permits_of_accept haccept
  have hnumber := KeySlot.number?_of_ofNumber? hpermits.names
  refine ⟨?_, ?_, Dictionary.nodup_keys_insert h.distinct _ _⟩
  · intro slot' stored hstored
    by_cases hslot : slot' = slot
    · rw [hslot]
      exact KeySlot.guarded_of_number? hnumber hpermits.notRam
    · exact h.guarded slot' stored ((Dictionary.get?_insert_of_ne _ hslot _).symm.trans hstored)
  · intro slot' stored hstored
    by_cases hslot : slot' = slot
    · subst hslot
      obtain rfl := Option.some.inj ((Dictionary.get?_insert_self _ _ _).symm.trans hstored)
      exact order.counter_termsUnder_le _
    · exact h.fits slot' stored ((Dictionary.get?_insert_of_ne _ hslot _).symm.trans hstored)

theorem Sound.carried (h : e.Sound) (hcarried : e.Carried c e' r) : e'.Sound := by
  cases hcarried with
  | store receipt haccept => exact h.store haccept
  | erase => exact sound_of_slots_eq_empty rfl
  | _ => exact h.congr rfl

theorem Sound.act (h : e.Sound) (a : ElementAction) : (e.act a).Sound := by
  cases a with
  | command c => exact h.carried (e.carried_execute c)
  | cancel => exact h.congr rfl

/-- Every element that was new once is sound. -/
theorem sound_actAll_fresh (identity : ElementId) (entropy : Nat → Block)
    (actions : List ElementAction) : ((fresh identity entropy).actAll actions).Sound :=
  actAll_induction (sound_of_slots_eq_empty rfl) (fun _ a h => h.act a) actions

end Element
end VehicleGateway
