import VehicleGateway.Dictionary
import VehicleGateway.Cipher.Mode
import VehicleGateway.Keys.Update

/-!
# The secure element

Keys in slots that never leave it.  Commands encrypt, decrypt and authenticate data under a stored
key, write slots by authenticated orders, load one key in the clear, and erase everything for the
holder of the master key.
-/

namespace VehicleGateway

/-- A command to a secure element. -/
inductive Command where
  | encryptEach (slot : KeySlot) (data : Bytes)
  | decryptEach (slot : KeySlot) (data : Bytes)
  | encryptChain (slot : KeySlot) (start : Block) (data : Bytes)
  | decryptChain (slot : KeySlot) (start : Block) (data : Bytes)
  | makeMac (slot : KeySlot) (data : Bytes)
  | checkMac (slot : KeySlot) (data : Bytes) (mac : Block)
  | random
  | loadKey (order : KeyOrder)
  | loadPlainKey (key : Key)
  | identify (challenge : Block)
  | debugChallenge
  | debugAuthorize (proof : Block)
  deriving DecidableEq

/-- The name of a command. -/
def Command.name : Command → String
  | .encryptEach .. => "ENC_ECB"
  | .decryptEach .. => "DEC_ECB"
  | .encryptChain .. => "ENC_CBC"
  | .decryptChain .. => "DEC_CBC"
  | .makeMac .. => "GENERATE_MAC"
  | .checkMac .. => "VERIFY_MAC"
  | .random => "RND"
  | .loadKey .. => "LOAD_KEY"
  | .loadPlainKey .. => "LOAD_PLAIN_KEY"
  | .identify .. => "GET_ID"
  | .debugChallenge => "DEBUG_CHAL"
  | .debugAuthorize .. => "DEBUG_AUTH"

/-- What an element answers. -/
inductive Response where
  | data (bytes : Bytes)
  | mac (code : Block)
  | verified (ok : Bool)
  | random (block : Block)
  | keyLoaded (receipt : KeyReceipt)
  | identity (element : ElementId) (status : UInt8) (mac : Block)
  | challenge (block : Block)
  | done
  deriving DecidableEq

/-- A key in a slot. -/
structure StoredKey where
  key : Key
  counter : Nat
  flags : KeyFlags
  deriving DecidableEq

/-- A secure element. -/
structure Element where
  identity : ElementId
  slots : Dictionary KeySlot StoredKey := ∅
  /-- The key that was loaded in the clear. -/
  plainKey : Option Key := none
  /-- The challenge that the next debug authorization has to answer. -/
  challenge : Option Block := none
  /-- The source of random blocks. -/
  entropy : Nat → Block
  /-- How many random blocks were drawn. -/
  drawn : Nat := 0

namespace Element

/-- The key with which a slot encrypts. -/
def cipherKey (e : Element) : KeySlot → Except ElementFault Key
  | .ram =>
    match e.plainKey with
    | some key => .ok key
    | none => .error .empty
  | .master | .bootMac => .error .notPermitted
  | .user n =>
    match e.slots.get? (.user n) with
    | none => .error .empty
    | some stored => if stored.flags.macOnly then .error .notPermitted else .ok stored.key

/-- The key with which a slot authenticates. -/
def macKey (e : Element) : KeySlot → Except ElementFault Key
  | .ram =>
    match e.plainKey with
    | some key => .ok key
    | none => .error .empty
  | .master => .error .notPermitted
  | slot =>
    match e.slots.get? slot with
    | some stored => .ok stored.key
    | none => .error .empty

/-- The key that authorizes in the name of a slot; that of an empty slot is zero. -/
def authorityKey (e : Element) (slot : KeySlot) : Key :=
  match e.slots.get? slot with
  | some stored => stored.key
  | none => Block.zero

/-- The result of a cipher operation under the key of a slot. -/
def encipher (key : Except ElementFault Key) (f : Key → Except LengthFault Bytes) :
    Except ElementFault Response :=
  match key with
  | .error e => .error e
  | .ok k =>
    match f k with
    | .error fault => .error (.length fault.length)
    | .ok data => .ok (.data data)

/-- Whether an order is addressed to this element: by name, or by the wildcard if the slot's present
key allows that. -/
def addressed (e : Element) (identity : ElementId) (present : Option StoredKey) : Bool :=
  identity = e.identity ||
    (identity = ElementId.wildcard && present.any fun stored => stored.flags.wildcard)

/-- The slot an order writes, the slot that authorizes it, and what is written. -/
def accept (e : Element) (o : KeyOrder) : Except ElementFault (KeySlot × KeySlot × KeyTerms) :=
  let (identity, slotNo, authorityNo) := KeyOrder.unpack o.address
  match KeySlot.ofNumber? slotNo, KeySlot.ofNumber? authorityNo with
  | some slot, some authority =>
    if slot = .ram ∨ authority = .ram then .error .notPermitted
    -- A slot is written in the name of the master key, or of the key that it holds.
    else if authority ≠ .master ∧ authority ≠ slot then .error .notAvailable
    else
      let present := e.slots.get? slot
      if !e.addressed identity present then .error .updateRejected
      else match KeyOrder.read (e.authorityKey authority) o with
        | .error fault => .error fault
        | .ok terms =>
          match present with
          | none => .ok (slot, authority, terms)
          | some stored =>
            if stored.flags.writeProtection then .error .writeProtected
            else if terms.counter ≤ stored.counter then .error .updateRejected
            else .ok (slot, authority, terms)
  | _, _ => .error .notPermitted

/-- Executes an order. -/
def load (e : Element) (o : KeyOrder) : Element × Except ElementFault Response :=
  match e.accept o with
  | .error fault => (e, .error fault)
  | .ok (slot, authority, terms) =>
    match KeyReceipt.make authority slot terms.key terms.counter e.identity with
    | .error fault => (e, .error fault)
    | .ok receipt =>
      let stored : StoredKey := ⟨terms.key, terms.counter, terms.flags⟩
      ({ e with slots := e.slots.insert slot stored }, .ok (.keyLoaded receipt))

/-- The code that authorizes debugging. -/
def debugProof (master : Key) (challenge : Block) (identity : ElementId) : Block :=
  Mac.tag (Derivation.derive master Derivation.debugging) (challenge.toList ++ identity.toList)

/-- Erases all keys for the right answer to the challenge.  Any answer uses the challenge up. -/
def authorize (e : Element) (proof : Block) : Element × Except ElementFault Response :=
  match e.challenge with
  | none => (e, .error .sequence)
  | some challenge =>
    -- There is one answer to a challenge, right or wrong.
    let e' := { e with challenge := none }
    if e.slots.entries.any fun entry => entry.2.flags.debuggerProtection then
      (e', .error .noDebugging)
    else if debugProof (e.authorityKey .master) challenge e.identity = proof then
      ({ e' with slots := ∅, plainKey := none }, .ok .done)
    else (e', .error .noDebugging)

/-- The answer to a request for identification: a code under the master key, or zeros. -/
def identification (e : Element) (challenge : Block) : Response :=
  let status : UInt8 := 0
  let mac := match e.slots.get? .master with
    | some master => Mac.tag master.key (challenge.toList ++ e.identity.toList ++ [status])
    | none => Block.zero
  .identity e.identity status mac

/-- Executes a command. -/
def execute (e : Element) : Command → Element × Except ElementFault Response
  | .encryptEach slot data => (e, encipher (e.cipherKey slot) (Block.encryptEach · data))
  | .decryptEach slot data => (e, encipher (e.cipherKey slot) (Block.decryptEach · data))
  | .encryptChain slot start data =>
    (e, encipher (e.cipherKey slot) (Block.encryptChain · start data))
  | .decryptChain slot start data =>
    (e, encipher (e.cipherKey slot) (Block.decryptChain · start data))
  | .makeMac slot data => (e, (e.macKey slot).map fun key => .mac (Mac.tag key data))
  | .checkMac slot data mac =>
    (e, (e.macKey slot).map fun key => .verified (Mac.verify key data mac.toList))
  | .random => ({ e with drawn := e.drawn + 1 }, .ok (.random (e.entropy e.drawn)))
  | .loadKey order => e.load order
  | .loadPlainKey key => ({ e with plainKey := some key }, .ok .done)
  | .identify challenge => (e, .ok (e.identification challenge))
  | .debugChallenge =>
    ({ e with challenge := some (e.entropy e.drawn), drawn := e.drawn + 1 },
      .ok (.challenge (e.entropy e.drawn)))
  | .debugAuthorize proof => e.authorize proof

/-- Gives up a command.  An open challenge is forgotten. -/
def cancel (e : Element) : Element :=
  { e with challenge := none }

/-- The counter of the key in a slot. -/
def counter? (e : Element) (slot : KeySlot) : Option Nat :=
  (e.slots.get? slot).map (·.counter)

end Element
end VehicleGateway
