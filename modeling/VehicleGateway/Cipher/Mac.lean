import VehicleGateway.Cipher.Aes

/-!
# Authentication codes

AES-CMAC: the last cipher text of a chain over the message.  The last block is a whole one plus the
first mask, or what is left plus a one bit, zeros and the second mask.
-/

namespace VehicleGateway.Mac

/-- Twice a block in the field of 2 ^ 128 elements, the first byte being the most significant. -/
def double (b : Block) : Block :=
  let carry : UInt8 := if b.byte 0 < 128 then 0 else 0x87
  Vector.ofFn fun i : Fin 16 =>
    let shifted := (b.byte i.val <<< 1) ||| (b.byte (i.val + 1) >>> 7)
    if i.val = 15 then shifted ^^^ carry else shifted

/-- The mask of a whole last block. -/
def wholeMask (key : Block) : Block := double (Aes.encrypt key Block.zero)

/-- The mask of a last block that was continued. -/
def restMask (key : Block) : Block := double (wholeMask key)

/-- Fewer than sixteen bytes, continued with a one bit and zeros. -/
def continued (rest : Bytes) : Block :=
  Vector.ofFn fun i => (rest ++ [0x80]).getD i.val 0

/-- The blocks that are chained for a message, the last of them masked. -/
def masked (key : Block) (data : Bytes) : List Block :=
  match Block.split data with
  -- Nothing is left over, so the last whole block is the last one.
  | (b :: bs, []) => (b :: bs).dropLast ++ [(b :: bs).getLast (by simp) ^^^ wholeMask key]
  | (blocks, rest) => blocks ++ [continued rest ^^^ restMask key]

/-- One step of the chain. -/
def absorb (key x b : Block) : Block := Aes.encrypt key (x ^^^ b)

/-- The authentication code of a message. -/
def tag (key : Block) (data : Bytes) : Block :=
  (masked key data).foldl (absorb key) Block.zero

/-- Whether bytes are the authentication code of a message. -/
def verify (key : Block) (data tag : Bytes) : Bool :=
  (Mac.tag key data).toList = tag

end VehicleGateway.Mac
