import VehicleGateway.Cipher.Aes

/-!
# A source of random blocks

An element draws one block after the other.  Blocks that are numbered and encrypted under a secret
seed cannot be foretold without the seed, and no two of the first 2 ^ 128 are the same.
-/

namespace VehicleGateway.Entropy

/-- The block that spells a number, most significant byte first. -/
def numbered (n : Nat) : Block :=
  Vector.ofFn fun i : Fin 16 => UInt8.ofNat (n / Nat.pow 0x100 (15 - i.val))

/-- The block that is drawn after `n` others. -/
def drawn (seed : Block) (n : Nat) : Block :=
  Aes.encrypt seed (numbered n)

end VehicleGateway.Entropy
