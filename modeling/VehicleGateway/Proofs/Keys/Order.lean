import VehicleGateway.Keys.Element
import VehicleGateway.Proofs.Cipher.Inverse

/-!
# What stands in an order

An order to write a slot names the slot and the slot that authorizes it, and hides the rest under
the authorizing key.

* `MadeWith` says that the code of an order is the right one under a key; who lacks the key cannot
  make such an order.  `read_eq_ok_iff` says that an order is read exactly with that key.
* `signed` is the order that the holder of a key makes, and `termsUnder_signed` says that its reader
  gets from it what the holder put in.
* `signed_of_make` says that every order that is made is such a one, and `order_read_back` which
  orders can be made and that nothing in them is lost.
-/

namespace VehicleGateway

namespace KeySlot

/-- User slots have the numbers after 3. -/
theorem number?_user {m n : UInt8} (h : (user m).number? = some n) :
    n = m + 3 ∧ n.toNat = m.toNat + 3 ∧ 1 ≤ m.toNat ∧ m.toNat ≤ 10 := by
  change (if (user m).exists? = true then some (m + 3) else none) = some n at h
  split at h
  case isTrue hexists =>
    obtain rfl := Option.some.inj h
    obtain ⟨hfirst, hlast⟩ : 1 ≤ m.toNat ∧ m.toNat ≤ userSlots := by simpa [exists?] using hexists
    unfold userSlots at hlast
    have hadd := UInt8.toNat_add m 3
    simp only [UInt8.reduceToNat] at hadd
    exact ⟨rfl, by omega, hfirst, hlast⟩
  case isFalse => cases h

/-- The numbers of slots have half a byte. -/
theorem toNat_lt_of_number? {s : KeySlot} {n : UInt8} (h : s.number? = some n) : n.toNat < 16 := by
  cases s with
  | master => obtain rfl := Option.some.inj h; decide
  | bootMac => obtain rfl := Option.some.inj h; decide
  | ram => obtain rfl := Option.some.inj h; decide
  | user m =>
    obtain ⟨-, hvalue, -, hlast⟩ := number?_user h
    omega

/-- The slot with a number has that number. -/
theorem number?_of_ofNumber? {n : UInt8} {s : KeySlot} (h : ofNumber? n = some s) :
    s.number? = some n := by
  unfold ofNumber? at h
  split at h
  case isTrue h1 => subst h1; obtain rfl := Option.some.inj h; rfl
  split at h
  case isTrue h2 => subst h2; obtain rfl := Option.some.inj h; rfl
  split at h
  case isTrue hu =>
    obtain rfl := Option.some.inj h
    have h4 : 4 ≤ n.toNat := by simpa [UInt8.le_iff_toNat_le] using hu.1
    have h13 : n.toNat ≤ 13 := by simpa [UInt8.le_iff_toNat_le] using hu.2
    -- The difference is not below zero, so it is that of the numbers.
    have hsub : (n - 3).toNat = n.toNat - 3 :=
      UInt8.toNat_sub_of_le n 3 (by simpa [UInt8.le_iff_toNat_le] using by omega)
    have hexists : (user (n - 3)).exists? = true := by
      simp only [exists?, userSlots, hsub, Bool.and_eq_true, decide_eq_true_eq]
      omega
    simp [number?, hexists]
  split at h
  case isTrue h14 => subst h14; obtain rfl := Option.some.inj h; rfl
  cases h

/-- A slot is the one with its number. -/
theorem ofNumber?_of_number? {n : UInt8} {s : KeySlot} (h : s.number? = some n) :
    ofNumber? n = some s := by
  cases s with
  | master => obtain rfl := Option.some.inj h; rfl
  | bootMac => obtain rfl := Option.some.inj h; rfl
  | ram => obtain rfl := Option.some.inj h; rfl
  | user m =>
    obtain ⟨hn, hvalue, hfirst, hlast⟩ := number?_user h
    have h1 : n ≠ 1 := by
      rintro rfl
      simp only [UInt8.reduceToNat] at hvalue
      omega
    have h2 : n ≠ 2 := by
      rintro rfl
      simp only [UInt8.reduceToNat] at hvalue
      omega
    have hrange : 4 ≤ n ∧ n ≤ 13 := by
      simp only [UInt8.le_iff_toNat_le, UInt8.reduceToNat]
      omega
    rw [ofNumber?, if_neg h1, if_neg h2, if_pos hrange, hn, UInt8.add_sub_cancel]

theorem guarded_iff (slot : KeySlot) : slot.guarded = true ↔
    slot = .master ∨ slot = .bootMac ∨
      ∃ n : UInt8, slot = .user n ∧ 1 ≤ n.toNat ∧ n.toNat ≤ 10 := by
  cases slot with
  | user n =>
    have hplain : (KeySlot.user n != .ram) = true := rfl
    simp only [guarded, exists?, hplain, Bool.and_true, Bool.and_eq_true, decide_eq_true_eq]
    simp [userSlots]
  | _ => simp [guarded, exists?]

/-- A slot that is written by orders has a number in them. -/
theorem exists_number? {slot : KeySlot} (h : slot.guarded = true) : ∃ s, slot.number? = some s := by
  cases slot with
  | user n =>
    have hexists : (KeySlot.user n).exists? = true := by simpa [guarded] using h
    exact ⟨n + 3, by simp [number?, hexists]⟩
  | ram => cases h
  | master | bootMac => exact ⟨_, rfl⟩

/-- All slots with numbers are written by orders, but for the one of the key in the clear. -/
theorem guarded_of_number? {slot : KeySlot} {s : UInt8} (h : slot.number? = some s)
    (hram : slot ≠ .ram) : slot.guarded = true := by
  cases slot with
  | user n =>
    obtain ⟨-, -, hfirst, hlast⟩ := number?_user h
    exact (guarded_iff _).mpr (.inr (.inr ⟨n, rfl, hfirst, hlast⟩))
  | ram => exact absurd rfl hram
  | master | bootMac => rfl

end KeySlot

namespace KeyOrder

/-- The element that an order names. -/
def element (o : KeyOrder) : ElementId :=
  (unpack o.address).1

/-- The slot that an order writes, if it exists. -/
def slot? (o : KeyOrder) : Option KeySlot :=
  KeySlot.ofNumber? (unpack o.address).2.1

/-- The slot in whose name an order is given, if it exists. -/
def authority? (o : KeyOrder) : Option KeySlot :=
  KeySlot.ofNumber? (unpack o.address).2.2

/-- Whether the code of an order is the right one under a key. -/
def MadeWith (o : KeyOrder) (key : Key) : Prop :=
  o.code = codeOf key o.address o.terms o.secret

/-- The order with given terms that is made with a key. -/
def signed (key : Key) (address : Block) (t : KeyTerms) : KeyOrder :=
  let (terms, secret) := conceal key (packTerms t.counter t.flags) t.key
  { address, terms, secret, code := codeOf key address terms secret }

/-- What an order says to who reads it with a key. -/
def termsUnder (o : KeyOrder) (key : Key) : KeyTerms :=
  let (terms, secret) := reveal key o.terms o.secret
  ⟨(unpackTerms terms).1, (unpackTerms terms).2, secret⟩

theorem read_eq_ok_iff (key : Key) (o : KeyOrder) (t : KeyTerms) :
    read key o = .ok t ↔ o.MadeWith key ∧ t = o.termsUnder key := by
  unfold read
  split
  case isTrue h =>
    constructor
    · intro hread
      exact ⟨h.symm, (Except.ok.inj hread).symm⟩
    · rintro ⟨-, rfl⟩
      rfl
  case isFalse h =>
    constructor
    · intro hread
      cases hread
    · rintro ⟨hmade, -⟩
      exact absurd hmade.symm h

/-! ## Addresses -/

/-- An address says what was put in. -/
theorem unpack_pack (identity : ElementId) {s a : UInt8} (hs : s.toNat < 16) (ha : a.toNat < 16) :
    unpack (pack identity s a) = (identity, s, a) := by
  have hbyte : ((pack identity s a).byte 15).toNat = s.toNat * 16 + a.toNat := by
    rw [Block.byte_eq_getElem _ (by decide), pack, Vector.getElem_push_last, UInt8.toNat_ofNat']
    omega
  have hslot : UInt8.ofNat ((s.toNat * 16 + a.toNat) / 16) = s := by
    rw [show (s.toNat * 16 + a.toNat) / 16 = s.toNat by omega, UInt8.ofNat_toNat]
  have hauthority : UInt8.ofNat ((s.toNat * 16 + a.toNat) % 16) = a := by
    rw [show (s.toNat * 16 + a.toNat) % 16 = a.toNat by omega, UInt8.ofNat_toNat]
  rw [unpack, hbyte, hslot, hauthority, pack, Vector.pop_push]

/-- Whoever may write a slot under an authority makes such an order. -/
theorem make_eq_signed (authority slot : KeySlot) {a s : UInt8} (authorityKey key : Key)
    (counter : Nat) (flags : KeyFlags) (identity : ElementId) (ha : authority.number? = some a)
    (hs : slot.number? = some s) (hcounter : counter ≤ maxCounter) :
    make authorityKey authority slot key counter flags identity =
      .ok (signed authorityKey (pack identity s a) ⟨counter, flags, key⟩) := by
  have hfits : ¬ maxCounter < counter := by omega
  simp [make, addressOf, signed, hfits, ha, hs]

/-! ## Terms -/

theorem byte_front (head : Nat) (next : UInt8) :
    ((front head next).byte 0).toNat = head / 0x1000000 % 256 ∧
      ((front head next).byte 1).toNat = head / 0x10000 % 256 ∧
      ((front head next).byte 2).toNat = head / 0x100 % 256 ∧
      ((front head next).byte 3).toNat = head % 256 ∧ (front head next).byte 4 = next := by
  simp [Block.byte, front]

/-- The word at the front of a block is the one that was put there, if it has 32 bits. -/
theorem head_front {word : Nat} (next : UInt8) (h : word < 0x100000000) :
    head (front word next) = word := by
  obtain ⟨h0, h1, h2, h3, -⟩ := byte_front word next
  simp only [head, h0, h1, h2, h3]
  omega

theorem bits_lt (f : KeyFlags) : f.bits < 32 := by
  obtain ⟨a, b, c, d, e⟩ := f
  revert a b c d e
  decide

/-- Counter and flags that fit into their block can be read in it. -/
theorem unpackTerms_packTerms {counter : Nat} (flags : KeyFlags) (h : counter ≤ maxCounter) :
    unpackTerms (packTerms counter flags) = (counter, flags) := by
  have hbits := bits_lt flags
  obtain ⟨-, -, -, -, h4⟩ :=
    byte_front (counter * 16 + flags.bits / 2) (.ofNat (flags.bits % 2 * 128))
  -- The first 32 bits hold the counter and four of the flags, the next byte begins with the last.
  have hhead : head (packTerms counter flags) = counter * 16 + flags.bits / 2 := by
    simp only [maxCounter] at h
    exact head_front _ (by omega)
  have hnext : ((packTerms counter flags).byte 4).toNat / 128 = flags.bits % 2 := by
    simp only [packTerms, h4, UInt8.toNat_ofNat']
    omega
  have hall : (counter * 16 + flags.bits / 2) % 16 * 2 + flags.bits % 2 = flags.bits := by omega
  have hcounter : (counter * 16 + flags.bits / 2) / 16 = counter := by omega
  rw [unpackTerms, hhead, hnext, hall, hcounter, KeyFlags.ofBits_bits]

theorem reveal_conceal (authority : Key) (terms key : Block) :
    reveal authority (conceal authority terms key).1 (conceal authority terms key).2 =
      (terms, key) := by
  simp only [reveal, conceal, Aes.decrypt_encrypt, Block.xor_zero, Block.xor_xor_cancel]

theorem madeWith_signed (key : Key) (address : Block) (t : KeyTerms) :
    (signed key address t).MadeWith key :=
  rfl

/-- Who reads an order with the key that it was made with gets what was put in. -/
theorem termsUnder_signed (key : Key) (address : Block) (t : KeyTerms)
    (h : t.counter ≤ maxCounter) : (signed key address t).termsUnder key = t := by
  have hreveal := reveal_conceal key (packTerms t.counter t.flags) t.key
  simp only [termsUnder, signed, hreveal, unpackTerms_packTerms t.flags h]

/-- Counters that are read have 28 bits. -/
theorem counter_termsUnder_le (o : KeyOrder) (key : Key) :
    (o.termsUnder key).counter ≤ maxCounter := by
  have hhead (b : Block) : head b < 0x100000000 := by
    have h0 := (b.byte 0).toNat_lt
    have h1 := (b.byte 1).toNat_lt
    have h2 := (b.byte 2).toNat_lt
    have h3 := (b.byte 3).toNat_lt
    unfold head
    omega
  have hlt := hhead (reveal key o.terms o.secret).1
  simp only [termsUnder, unpackTerms, maxCounter]
  omega

/-! ## Orders that are made -/

variable {authorityKey key : Key} {authority slot : KeySlot} {counter : Nat} {flags : KeyFlags}
  {identity : ElementId} {o : KeyOrder}

/-- Only what fits is made into an order, and the order is the one with these terms. -/
theorem signed_of_make
    (h : make authorityKey authority slot key counter flags identity = .ok o) :
    counter ≤ maxCounter ∧ ∃ s a, slot.number? = some s ∧ authority.number? = some a ∧
      o = signed authorityKey (pack identity s a) ⟨counter, flags, key⟩ := by
  have hfits : counter ≤ maxCounter := by
    by_contra hlarge
    simp [make, Nat.not_le.mp hlarge] at h
  cases hs : slot.number? with
  | none => simp [make, addressOf, hs, Nat.not_lt.mpr hfits] at h
  | some s =>
    cases ha : authority.number? with
    | none => simp [make, addressOf, hs, ha, Nat.not_lt.mpr hfits] at h
    | some a =>
      have hmake := make_eq_signed authority slot authorityKey key counter flags identity ha hs hfits
      exact ⟨hfits, s, a, rfl, rfl, Except.ok.inj (h.symm.trans hmake)⟩

/-- An order names what it was made for, and says under its key what was put in. -/
theorem said_of_make
    (h : make authorityKey authority slot key counter flags identity = .ok o) :
    o.slot? = some slot ∧ o.authority? = some authority ∧ o.element = identity ∧
      o.MadeWith authorityKey ∧ o.termsUnder authorityKey = ⟨counter, flags, key⟩ := by
  obtain ⟨hcounter, s, a, hs, ha, rfl⟩ := signed_of_make h
  have hunpack := unpack_pack identity (KeySlot.toNat_lt_of_number? hs)
    (KeySlot.toNat_lt_of_number? ha)
  refine ⟨?_, ?_, ?_, madeWith_signed _ _ _, termsUnder_signed _ _ _ hcounter⟩
  · simp only [slot?, signed, hunpack]
    exact KeySlot.ofNumber?_of_number? hs
  · simp only [authority?, signed, hunpack]
    exact KeySlot.ofNumber?_of_number? ha
  · simp only [KeyOrder.element, signed, hunpack]

/-- There is an order for slots that have numbers and a counter that fits, and for no others. -/
theorem exists_make_iff (authorityKey key : Key) (authority slot : KeySlot) (counter : Nat)
    (flags : KeyFlags) (identity : ElementId) :
    (∃ o, make authorityKey authority slot key counter flags identity = .ok o) ↔
      counter ≤ maxCounter ∧ (∃ s, slot.number? = some s) ∧ ∃ a, authority.number? = some a := by
  constructor
  · rintro ⟨o, h⟩
    obtain ⟨hfits, s, a, hs, ha, -⟩ := signed_of_make h
    exact ⟨hfits, ⟨s, hs⟩, a, ha⟩
  · rintro ⟨hfits, ⟨s, hs⟩, a, ha⟩
    exact ⟨_, make_eq_signed authority slot authorityKey key counter flags identity ha hs hfits⟩

/-- Exactly for a counter of 28 bits and two slots that have numbers there is an order.  Who reads
it with the key that it was made with finds the counter, the flags and the key that were put in, and
its address gives the element and the numbers of the two slots, which lead back to the slots. -/
theorem order_read_back (authorityKey key : Key) (authority slot : KeySlot) (counter : Nat)
    (flags : KeyFlags) (identity : ElementId) :
    ((∃ o, make authorityKey authority slot key counter flags identity = .ok o) ↔
      counter ≤ 2 ^ 28 - 1 ∧ (∃ s, slot.number? = some s) ∧ ∃ a, authority.number? = some a) ∧
    ∀ o, make authorityKey authority slot key counter flags identity = .ok o →
      read authorityKey o = .ok ⟨counter, flags, key⟩ ∧
      ∃ s a, slot.number? = some s ∧ authority.number? = some a ∧
        unpack o.address = (identity, s, a) ∧
        KeySlot.ofNumber? s = some slot ∧ KeySlot.ofNumber? a = some authority := by
  refine ⟨exists_make_iff authorityKey key authority slot counter flags identity, ?_⟩
  intro o h
  obtain ⟨-, -, -, hmade, hterms⟩ := said_of_make h
  obtain ⟨-, s, a, hs, ha, rfl⟩ := signed_of_make h
  have hunpack := unpack_pack identity (KeySlot.toNat_lt_of_number? hs)
    (KeySlot.toNat_lt_of_number? ha)
  exact ⟨(read_eq_ok_iff _ _ _).mpr ⟨hmade, hterms.symm⟩, s, a, hs, ha, hunpack,
    KeySlot.ofNumber?_of_number? hs, KeySlot.ofNumber?_of_number? ha⟩

/-- The largest counter, the last user slot, and flags on both sides of the border between two
bytes. -/
theorem largest_terms_read_back :
    ∃ o, make Block.zero .bootMac (.user 10) (Vector.replicate 16 0x22) (2 ^ 28 - 1)
        { writeProtection := true, wildcard := true } (Vector.replicate 15 0xA5) = .ok o ∧
      read Block.zero o = .ok ⟨2 ^ 28 - 1, { writeProtection := true, wildcard := true },
        Vector.replicate 16 0x22⟩ ∧
      unpack o.address = (Vector.replicate 15 0xA5, 13, 2) := by
  obtain ⟨hmake, hread⟩ := order_read_back Block.zero (Vector.replicate 16 0x22) .bootMac (.user 10)
    (2 ^ 28 - 1) { writeProtection := true, wildcard := true } (Vector.replicate 15 0xA5)
  obtain ⟨o, ho⟩ := hmake.mpr ⟨le_rfl, ⟨13, rfl⟩, 2, rfl⟩
  obtain ⟨hterms, s, a, hs, ha, hunpack, -, -⟩ := hread o ho
  obtain rfl := Option.some.inj hs
  obtain rfl := Option.some.inj ha
  exact ⟨o, ho, hterms, hunpack⟩

end KeyOrder
end VehicleGateway
