import VehicleGateway.Cipher.Derivation
import VehicleGateway.Cipher.Mac
import VehicleGateway.Keys.Fault
import VehicleGateway.Keys.Flags
import VehicleGateway.Keys.Secret

/-!
# Key updates

Who knows the authorizing key of an element can write a slot of it.  The order names the element,
the slot and the authorizing slot in the clear; counter, flags and the new key are encrypted, and
all of it is authenticated.  The element proves that it stored the key with a receipt that only the
new key can make.
-/

namespace VehicleGateway

/-- The order to write a slot. -/
structure KeyOrder where
  /-- Element, slot and authorizing slot. -/
  address : Block
  /-- Counter and flags, encrypted. -/
  terms : Block
  /-- The new key, encrypted in a chain after `terms`. -/
  secret : Block
  /-- The authentication code of all the rest. -/
  code : Block
  deriving DecidableEq

/-- The proof that a slot was written. -/
structure KeyReceipt where
  address : Block
  /-- The counter, encrypted under a key derived from the new one. -/
  proof : Block
  /-- The authentication code of the rest. -/
  code : Block
  deriving DecidableEq

/-- What an order says in its encrypted part. -/
structure KeyTerms where
  counter : Nat
  flags : KeyFlags
  key : Key
  deriving DecidableEq

namespace KeyOrder

/-- The largest counter. -/
def maxCounter : Nat := 0xFFFFFFF

/-- The address of a slot: the element, and the numbers of the slot and of the authorizing slot in
half a byte each. -/
def pack (element : ElementId) (slot authority : UInt8) : Block :=
  element.push (.ofNat (slot.toNat % 16 * 16 + authority.toNat % 16))

/-- The element, the slot and the authorizing slot of an address. -/
def unpack (address : Block) : ElementId × UInt8 × UInt8 :=
  (address.pop, .ofNat ((address.byte 15).toNat / 16), .ofNat ((address.byte 15).toNat % 16))

/-- A block that begins with a word, most significant byte first, and one more byte. -/
def front (head : Nat) (next : UInt8) : Block :=
  #v[.ofNat (head / 0x1000000), .ofNat (head / 0x10000), .ofNat (head / 0x100), .ofNat head, next,
     0, 0, 0, 0, 0, 0, 0, 0, 0, 0, 0]

/-- The word at the front of a block. -/
def head (b : Block) : Nat :=
  (((b.byte 0).toNat * 0x100 + (b.byte 1).toNat) * 0x100 + (b.byte 2).toNat) * 0x100 +
    (b.byte 3).toNat

/-- Counter and flags in one block: 28 bits and 5 bits. -/
def packTerms (counter : Nat) (flags : KeyFlags) : Block :=
  front (counter * 16 + flags.bits / 2) (.ofNat (flags.bits % 2 * 128))

/-- The counter and the flags in a block. -/
def unpackTerms (b : Block) : Nat × KeyFlags :=
  (head b / 16, .ofBits (head b % 16 * 2 + (b.byte 4).toNat / 128))

/-- The authentication code of an order. -/
def codeOf (authority : Key) (address terms secret : Block) : Block :=
  Mac.tag (Derivation.derive authority Derivation.updateMac) (Block.join [address, terms, secret])

/-- The encrypted part of an order. -/
def conceal (authority : Key) (terms key : Block) : Block × Block :=
  let k := Derivation.derive authority Derivation.updateCipher
  let first := Aes.encrypt k (terms ^^^ Block.zero)
  (first, Aes.encrypt k (key ^^^ first))

/-- The plain text of the encrypted part of an order. -/
def reveal (authority : Key) (terms secret : Block) : Block × Block :=
  let k := Derivation.derive authority Derivation.updateCipher
  (Aes.decrypt k terms ^^^ Block.zero, Aes.decrypt k secret ^^^ terms)

/-- The address of one slot under the authority of another, if both exist. -/
def addressOf (element : ElementId) (slot authority : KeySlot) : Except ElementFault Block :=
  match slot.number?, authority.number? with
  | some s, some a => .ok (pack element s a)
  | _, _ => .error .notPermitted

/-- The order to write a key into a slot.  The counter is judged before the slots. -/
def make (authorityKey : Key) (authority slot : KeySlot) (key : Key) (counter : Nat)
    (flags : KeyFlags) (element : ElementId) : Except ElementFault KeyOrder :=
  if maxCounter < counter then .error .updateRejected
  else match addressOf element slot authority with
    | .error e => .error e
    | .ok address =>
      let (terms, secret) := conceal authorityKey (packTerms counter flags) key
      .ok { address, terms, secret, code := codeOf authorityKey address terms secret }

/-- What an order says, if it is authentic. -/
def read (authorityKey : Key) (o : KeyOrder) : Except ElementFault KeyTerms :=
  if codeOf authorityKey o.address o.terms o.secret = o.code then
    let (terms, key) := reveal authorityKey o.terms o.secret
    let (counter, flags) := unpackTerms terms
    .ok { counter, flags, key }
  else .error .updateRejected

end KeyOrder

namespace KeyReceipt

/-- The receipt for a key that was written into a slot. -/
def make (authority slot : KeySlot) (key : Key) (counter : Nat) (element : ElementId) :
    Except ElementFault KeyReceipt :=
  if KeyOrder.maxCounter < counter then .error .updateRejected
  else match KeyOrder.addressOf element slot authority with
    | .error e => .error e
    | .ok address =>
      let proof := Aes.encrypt (Derivation.derive key Derivation.updateCipher)
        (KeyOrder.front (counter * 16 + 8) 0)
      let code := Mac.tag (Derivation.derive key Derivation.updateMac) (Block.join [address, proof])
      .ok { address, proof, code }

end KeyReceipt
end VehicleGateway
