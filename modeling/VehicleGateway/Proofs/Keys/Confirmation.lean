import VehicleGateway.Proofs.Cipher.Codes
import VehicleGateway.Proofs.Keys.Counters
import VehicleGateway.Proofs.Keys.Order

/-!
# What a receipt confirms

A receipt names the element, the slot and the authorizing slot in the clear and has the counter
encrypted under a key that comes from the new one.  Both parts are needed: the address does not say
which counter was meant, and the counter does not say which slot.

* `Writing` is what a receipt is about, and `Writing.Valid` says for which writings there is one.
* `content_injective` says that under one new key no two writings have receipts with the same
  content, from `unpack_pack` for the address and the injectivity of the cipher for the counter.
* `unverified_of_foreign` is what the service makes of a receipt for another writing, and
  `foreign_receipt_refused` what becomes of the call in a whole run.  `later_receipt_refused` is the
  case of a receipt with another counter.
-/

namespace VehicleGateway

/-- The writing of a key into a slot. -/
structure Writing where
  /-- The element that has the slot. -/
  element : ElementId
  slot : KeySlot
  /-- The slot whose key authorized it. -/
  authority : KeySlot
  counter : Nat
  deriving DecidableEq

/-- Whether a writing can be spoken of in messages: the counter fits into 28 bits, and both slots
have numbers. -/
def Writing.Valid (w : Writing) : Prop :=
  w.counter ≤ 2 ^ 28 - 1 ∧ (∃ s, w.slot.number? = some s) ∧ ∃ a, w.authority.number? = some a

/-- The receipt for a new key that was written. -/
def Writing.receipt (w : Writing) (key : Key) : Except ElementFault KeyReceipt :=
  KeyReceipt.make w.authority w.slot key w.counter w.element

namespace KeyReceipt

/-- What the code of a receipt covers: the address, and the proof. -/
def content (r : KeyReceipt) : Bytes :=
  Block.join [r.address, r.proof]

/-- The receipt for an address and a counter that the holder of the new key makes. -/
def signed (key : Key) (address : Block) (counter : Nat) : KeyReceipt :=
  let proof := Aes.encrypt (Derivation.derive key Derivation.updateCipher)
    (KeyOrder.front (counter * 16 + 8) 0)
  { address, proof
    code := Mac.tag (Derivation.derive key Derivation.updateMac) (Block.join [address, proof]) }

variable {w w' : Writing} {key : Key} {r r' : KeyReceipt}

/-- A writing that can be spoken of has such a receipt. -/
theorem receipt_eq_signed {s a : UInt8} (key : Key) (hs : w.slot.number? = some s)
    (ha : w.authority.number? = some a) (hcounter : w.counter ≤ KeyOrder.maxCounter) :
    w.receipt key = .ok (signed key (KeyOrder.pack w.element s a) w.counter) := by
  have hfits : ¬ KeyOrder.maxCounter < w.counter := by omega
  simp [Writing.receipt, make, KeyOrder.addressOf, signed, hfits, hs, ha]

/-- No other writing has a receipt, and the receipt is this one. -/
theorem signed_of_receipt (h : w.receipt key = .ok r) :
    w.counter ≤ KeyOrder.maxCounter ∧ ∃ s a, w.slot.number? = some s ∧
      w.authority.number? = some a ∧ r = signed key (KeyOrder.pack w.element s a) w.counter := by
  have hfits : w.counter ≤ KeyOrder.maxCounter := by
    by_contra hlarge
    simp [Writing.receipt, make, Nat.not_le.mp hlarge] at h
  cases hs : w.slot.number? with
  | none => simp [Writing.receipt, make, KeyOrder.addressOf, hs, Nat.not_lt.mpr hfits] at h
  | some s =>
    cases ha : w.authority.number? with
    | none => simp [Writing.receipt, make, KeyOrder.addressOf, hs, ha, Nat.not_lt.mpr hfits] at h
    | some a =>
      exact ⟨hfits, s, a, rfl, rfl, Except.ok.inj (h.symm.trans (receipt_eq_signed key hs ha hfits))⟩

theorem exists_receipt_iff (w : Writing) (key : Key) :
    (∃ r, w.receipt key = .ok r) ↔ w.Valid := by
  constructor
  · rintro ⟨r, h⟩
    obtain ⟨hfits, s, a, hs, ha, -⟩ := signed_of_receipt h
    exact ⟨hfits, ⟨s, hs⟩, a, ha⟩
  · rintro ⟨hfits, ⟨s, hs⟩, a, ha⟩
    exact ⟨_, receipt_eq_signed key hs ha hfits⟩

theorem content_eq_iff : r.content = r'.content ↔ r.address = r'.address ∧ r.proof = r'.proof := by
  constructor
  · intro h
    have hsplit := congrArg Block.split h
    simpa [content, Block.split_join] using hsplit
  · rintro ⟨haddress, hproof⟩
    rw [content, content, haddress, hproof]

/-- The proof tells counters apart that fit. -/
theorem counter_of_proof {k k' : Nat} (hk : k ≤ KeyOrder.maxCounter)
    (hk' : k' ≤ KeyOrder.maxCounter) {address address' : Block}
    (h : (signed key address k).proof = (signed key address' k').proof) : k = k' := by
  have hfront := congrArg KeyOrder.head (Aes.encrypt_injective _ h)
  unfold KeyOrder.maxCounter at hk hk'
  rw [KeyOrder.head_front 0 (by omega), KeyOrder.head_front 0 (by omega)] at hfront
  omega

/-- Under one new key, receipts with the same content are for the same writing. -/
theorem content_injective (h : w.receipt key = .ok r) (h' : w'.receipt key = .ok r')
    (hsame : r.content = r'.content) : w = w' := by
  obtain ⟨hfits, s, a, hs, ha, rfl⟩ := signed_of_receipt h
  obtain ⟨hfits', s', a', hs', ha', rfl⟩ := signed_of_receipt h'
  obtain ⟨haddress, hproof⟩ := content_eq_iff.mp hsame
  have hcounter : w.counter = w'.counter := counter_of_proof hfits hfits' hproof
  have hnames : (w.element, s, a) = (w'.element, s', a') :=
    calc (w.element, s, a)
      _ = KeyOrder.unpack (KeyOrder.pack w.element s a) :=
        (KeyOrder.unpack_pack _ (KeySlot.toNat_lt_of_number? hs)
          (KeySlot.toNat_lt_of_number? ha)).symm
      _ = KeyOrder.unpack (KeyOrder.pack w'.element s' a') := congrArg KeyOrder.unpack haddress
      _ = (w'.element, s', a') := KeyOrder.unpack_pack _ (KeySlot.toNat_lt_of_number? hs')
          (KeySlot.toNat_lt_of_number? ha')
  obtain ⟨helement, rfl, rfl⟩ : w.element = w'.element ∧ s = s' ∧ a = a' := by simpa using hnames
  -- The numbers lead back to the slots.
  have hslot : w.slot = w'.slot := Option.some.inj
    ((KeySlot.ofNumber?_of_number? hs).symm.trans (KeySlot.ofNumber?_of_number? hs'))
  have hauthority : w.authority = w'.authority := Option.some.inj
    ((KeySlot.ofNumber?_of_number? ha).symm.trans (KeySlot.ofNumber?_of_number? ha'))
  cases w
  cases w'
  simp_all

end KeyReceipt

namespace KeyService

variable {s : KeyService} {n : Nat} {c : KeyCall} {element : ElementId} {order : KeyOrder}
  {slot : KeySlot} {key : Key} {counter : Nat} {flags : KeyFlags}

/-- A call that loads a key is about a writing that can be spoken of. -/
theorem Coherent.exists_receipt (h : s.Coherent) (hget : s.call? n = some c)
    (hstage : c.stage = .loading element order)
    (hload : c.load? = some (slot, key, counter, flags)) :
    ∃ expected, Writing.receipt ⟨element, slot, .master, counter⟩ key = .ok expected := by
  have hbrings := h.brings n c hget
  rw [hstage] at hbrings
  obtain ⟨-, slot', key', counter', flags', hload', horder⟩ := hbrings
  obtain ⟨rfl, rfl, rfl, rfl⟩ : slot = slot' ∧ key = key' ∧ counter = counter' ∧ flags = flags' := by
    simpa using hload.symm.trans hload'
  obtain ⟨hfits, number, authority, hnumber, hauthority, -⟩ := KeyOrder.signed_of_make horder
  exact ⟨_, KeyReceipt.receipt_eq_signed key hnumber hauthority hfits⟩

/-- A receipt with other content ends the call, and nothing is noted. -/
theorem Coherent.unverified_of_foreign (h : s.Coherent) (now : Nat) (receipt : KeyReceipt)
    (hget : s.call? n = some c) (hstage : c.stage = .loading element order)
    (hload : c.load? = some (slot, key, counter, flags))
    (hforeign : ∀ expected, Writing.receipt ⟨element, slot, .master, counter⟩ key = .ok expected →
      expected ≠ receipt) :
    s.step now n (.answer (.ok (.keyLoaded receipt))) = s.finish n c (.error .unverified) := by
  obtain ⟨expected, hexpected⟩ := h.exists_receipt hget hstage hload
  have hmake : KeyReceipt.make .master slot key counter element = .ok expected := hexpected
  simp [step, hget, stepCall, hstage, CallStage.command?, respond, confirm, hload, hmake,
    hforeign expected hexpected]

/-- For every new key, exactly the writings whose counter has 28 bits and whose slots have numbers
have receipts, and different ones have receipts with different content.  When the order of a load is
answered with a receipt for the new key that is made for another element, slot, authority or
counter, the call ends because of it and stays so, and nothing that happens to the call before or
after changes what is noted. -/
theorem foreign_receipt_refused :
    (∀ (w : Writing) (key : Key), (∃ r, w.receipt key = .ok r) ↔ w.Valid) ∧
    (∀ (key : Key) (w w' : Writing) (r r' : KeyReceipt), w.receipt key = .ok r →
      w'.receipt key = .ok r' → w ≠ w' → r.content ≠ r'.content) ∧
    ∀ (timeout : Nat) (deeds : List KeyDeed) (n : Nat) (c : KeyCall) (element : ElementId)
      (order : KeyOrder) (slot : KeySlot) (key : Key) (counter : Nat) (flags : KeyFlags),
      (run { timeout } deeds).call? n = some c → c.stage = .loading element order →
      c.load? = some (slot, key, counter, flags) →
      ∀ (w : Writing) (receipt : KeyReceipt) (now : Nat) (later : List KeyDeed),
        w ≠ ⟨element, slot, .master, counter⟩ → w.receipt key = .ok receipt →
        let whole := deeds ++ .event now n (.answer (.ok (.keyLoaded receipt))) :: later
        (run { timeout } whole).outcome? n = some (.error .unverified) ∧
        ∀ past now' e rest, whole = past ++ .event now' n e :: rest →
          (run { timeout } (past ++ [.event now' n e])).notes = (run { timeout } past).notes := by
  refine ⟨KeyReceipt.exists_receipt_iff, ?_, ?_⟩
  · intro key w w' r r' h h' hne hsame
    exact hne (KeyReceipt.content_injective h h' hsame)
  intro timeout deeds n c element order slot key counter flags hget hstage hload w receipt now later
    hne hreceipt whole
  have hforeign : ∀ expected, Writing.receipt ⟨element, slot, .master, counter⟩ key = .ok expected →
      expected ≠ receipt :=
    fun expected hexpected hsame =>
      hne (KeyReceipt.content_injective hreceipt hexpected (by rw [hsame]))
  have hanswered :=
    (coherent_run timeout deeds).unverified_of_foreign now receipt hget hstage hload hforeign
  have hended : (run { timeout } whole).outcome? n = some (.error .unverified) := by
    have hwhole : run { timeout } whole = ((run { timeout } deeds).finish n c
        (.error .unverified)).run later := by
      rw [← hanswered]
      exact run_append _ _ _
    obtain ⟨d, hd, hdone⟩ := ended_run (call?_finish hget) rfl later
    rw [hwhole, outcome?, hd]
    exact outcome?_of_stage hdone
  refine ⟨hended, ?_⟩
  intro past now' e rest hsplit
  have hpast : run { timeout } (past ++ [.event now' n e]) =
      (run { timeout } past).step now' n e := run_append _ _ _
  rw [hpast]
  cases hbefore : (run { timeout } past).call? n with
  | none => simp [step, hbefore]
  | some b =>
    -- The call asks for the same load all the time.
    have hwhole : run { timeout } whole = ((run { timeout } past).step now' n e).run rest := by
      rw [hsplit]
      exact run_append _ _ _
    have hsame : b.request = c.request := by
      obtain ⟨d, hd, hdb⟩ := call?_run hbefore (.event now' n e :: rest)
      obtain ⟨d', hd', hdc⟩ := call?_run hget
        (.event now n (.answer (.ok (.keyLoaded receipt))) :: later)
      rw [← run_append, ← hsplit] at hd
      rw [← run_append] at hd'
      obtain rfl := Option.some.inj (hd.symm.trans hd')
      exact hdb.symm.trans hdc
    rw [hwhole] at hended
    refine (coherent_run timeout past).notes_of_failed_load hbefore ?_ hended
    rw [isSome_load? hsame, hload]
    rfl

/-- The receipt that the same element gave for the same key under the next counter does not confirm
the load of the first master key. -/
theorem later_receipt_refused :
    ∃ receipt, Writing.receipt ⟨ElementId.wildcard, .master, .master, 8⟩ Block.zero = .ok receipt ∧
      (run { timeout := 8 } (loadDone receipt)).outcome? 0 = some (.error .unverified) := by
  obtain ⟨hexists, -, hrefused⟩ := foreign_receipt_refused
  obtain ⟨receipt, hreceipt⟩ := (hexists ⟨ElementId.wildcard, .master, .master, 8⟩ Block.zero).mpr
    ⟨by decide, ⟨1, rfl⟩, 1, rfl⟩
  obtain ⟨order, horder⟩ : ∃ order, KeyOrder.make Block.zero .master .master Block.zero 7 {}
      ElementId.wildcard = .ok order := ⟨_, rfl⟩
  have hbegun : run { timeout := 8 } loadBegun =
      { timeout := 8, holder := some 0
        calls := [{ request := .load .master Block.zero 7 {}, stage := .naming, counter := 1 }] } :=
    rfl
  -- The call goes on with the answer of the element who it is, and gives it the order.
  have hgiven : (run { timeout := 8 } (loadBegun ++
      [.event 1 0 (.answer (.ok (.identity ElementId.wildcard 0 Block.zero)))])).call? 0 =
        some { request := .load .master Block.zero 7 {}, counter := 1
               stage := .loading ElementId.wildcard order } := by
    rw [run_append, hbegun]
    simp [run, act, step, call?, stepCall, put, KeyCall.load?, respond, proceed, horder,
      CallStage.command?]
  obtain ⟨hended, -⟩ := hrefused 8 _ 0 _ _ _ _ _ _ _ hgiven rfl rfl _ receipt 2 [] (by decide)
    hreceipt
  refine ⟨receipt, hreceipt, ?_⟩
  simpa [loadDone] using hended

end KeyService
end VehicleGateway
