import VehicleGateway.Proofs.Cipher.Codes
import VehicleGateway.Proofs.Keys.Authority

/-!
# Orders that were tampered with

Who does not know the authorizing key cannot change an order on its way to the element.  The code
covers the address and both encrypted blocks, so whatever is done to one of the three, or to the
code, shows.

* `Altered` says that one of the four blocks of an order was replaced by another one.
* `not_madeWith_of_altered` says that its code is then no longer right.
* `altered_order_refused` draws the consequence for who reads the order and for the element.
-/

namespace VehicleGateway

namespace KeyOrder

/-- One block of an order was replaced by a different one. -/
inductive Altered (o : KeyOrder) : KeyOrder → Prop where
  | address {b : Block} (h : b ≠ o.address) : Altered o { o with address := b }
  | terms {b : Block} (h : b ≠ o.terms) : Altered o { o with terms := b }
  | secret {b : Block} (h : b ≠ o.secret) : Altered o { o with secret := b }
  | code {b : Block} (h : b ≠ o.code) : Altered o { o with code := b }

variable {o o' : KeyOrder} {key : Key}

/-- The code of an order is right for no order that differs in one block. -/
theorem not_madeWith_of_altered (hmade : o.MadeWith key) (h : Altered o o') : ¬ o'.MadeWith key := by
  intro hmade'
  -- The authenticated message is made of the three other blocks, in this order.
  have hsame : codeOf key o.address o.terms o.secret = o.code := hmade.symm
  cases h with
  | address hne =>
    exact hne (Mac.tag_join_injective _ [] [o.terms, o.secret] (hmade'.symm.trans hmade))
  | terms hne =>
    exact hne (Mac.tag_join_injective _ [o.address] [o.secret] (hmade'.symm.trans hmade))
  | secret hne =>
    exact hne (Mac.tag_join_injective _ [o.address, o.terms] [] (hmade'.symm.trans hmade))
  | code hne => exact hne (Eq.trans hmade' hsame)

/-- An order whose code is not right is not read. -/
theorem read_of_not_madeWith (h : ¬ o.MadeWith key) : read key o = .error .updateRejected :=
  if_neg fun hcode => h hcode.symm

end KeyOrder

namespace Element

/-- An element does nothing for an order whose code is not right under the key of the slot that the
order names as its authority. -/
theorem load_of_not_madeWith {e : Element} {o : KeyOrder}
    (h : ∀ authority, o.authority? = some authority → ¬ o.MadeWith (e.authorityKey authority)) :
    ∃ fault, e.load o = (e, .error fault) := by
  cases haccept : e.accept o with
  | error fault => exact ⟨fault, by rw [load, haccept]⟩
  | ok accepted =>
    obtain ⟨slot, authority, terms⟩ := accepted
    obtain ⟨hpermits, -⟩ := permits_of_accept haccept
    exact absurd hpermits.made (h authority hpermits.authorized)

/-- An order can be made for every counter of 28 bits and any two slots that have numbers, and under
the key that it was made with it says what was put in.  But if any one of its blocks is replaced by a
different one, who reads it with that key refuses it; and an element refuses it and stays as it is
whenever the slot that the changed order names as its authority holds that key. -/
theorem altered_order_refused (authorityKey key : Key) (authority slot : KeySlot) (counter : Nat)
    (flags : KeyFlags) (identity : ElementId) (hcounter : counter ≤ 2 ^ 28 - 1)
    (hslot : ∃ s, slot.number? = some s) (hauthority : ∃ a, authority.number? = some a) :
    ∃ o, KeyOrder.make authorityKey authority slot key counter flags identity = .ok o ∧
      KeyOrder.read authorityKey o = .ok ⟨counter, flags, key⟩ ∧
      ∀ o', o.Altered o' →
        KeyOrder.read authorityKey o' = .error .updateRejected ∧
        ∀ e : Element, (∀ named, o'.authority? = some named → e.authorityKey named = authorityKey) →
          ∃ fault, e.execute (.loadKey o') = (e, .error fault) := by
  obtain ⟨o, hmake⟩ := (KeyOrder.exists_make_iff authorityKey key authority slot counter flags
    identity).mpr ⟨hcounter, hslot, hauthority⟩
  obtain ⟨-, -, -, hmade, hterms⟩ := KeyOrder.said_of_make hmake
  refine ⟨o, hmake, (KeyOrder.read_eq_ok_iff _ _ _).mpr ⟨hmade, hterms.symm⟩, ?_⟩
  intro o' haltered
  have hwrong := KeyOrder.not_madeWith_of_altered hmade haltered
  refine ⟨KeyOrder.read_of_not_madeWith hwrong, ?_⟩
  intro e hkey
  refine load_of_not_madeWith fun named hnamed => ?_
  rwa [hkey named hnamed]

/-- The order for the first user slot that the holder of the master key made writes no other slot. -/
theorem redirected_order_refused :
    KeyOrder.make guardedMaster .master (.user 1) userKey 1 {} guardedIdentity =
        .ok (orderTo 4 1 guardedMaster userKey) ∧
      { orderTo 4 1 guardedMaster userKey with address := KeyOrder.pack guardedIdentity 5 1 }.slot? =
        some (.user 2) ∧
      ∃ fault, guarded.execute (.loadKey
        { orderTo 4 1 guardedMaster userKey with address := KeyOrder.pack guardedIdentity 5 1 }) =
          (guarded, .error fault) := by
  have hmake : KeyOrder.make guardedMaster .master (.user 1) userKey 1 {} guardedIdentity =
      .ok (orderTo 4 1 guardedMaster userKey) :=
    KeyOrder.make_eq_signed .master (.user 1) guardedMaster userKey 1 {} guardedIdentity rfl rfl
      (by decide)
  obtain ⟨o, ho, -, hrefused⟩ := altered_order_refused guardedMaster userKey .master (.user 1) 1 {}
    guardedIdentity (by decide) ⟨4, rfl⟩ ⟨1, rfl⟩
  obtain rfl := Except.ok.inj (hmake.symm.trans ho)
  have hne : KeyOrder.pack guardedIdentity 5 1 ≠ (orderTo 4 1 guardedMaster userKey).address := by
    decide
  refine ⟨hmake, by decide, (hrefused _ (.address hne)).2 guarded ?_⟩
  intro named hnamed
  obtain rfl : KeySlot.master = named := Option.some.inj hnamed
  exact authorityKey_of_some guarded_master

end Element
end VehicleGateway
