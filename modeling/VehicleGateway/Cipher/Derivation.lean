import VehicleGateway.Cipher.Mode

/-!
# Derived keys

A key for one purpose is the compression of a key and the purpose's constant.  Compression encrypts
each block under the value so far and adds that value and the block.
-/

namespace VehicleGateway.Derivation

/-- One step of the compression. -/
def absorb (value b : Block) : Block := value ^^^ (Aes.encrypt value b ^^^ b)

/-- The compression of blocks. -/
def compressBlocks (blocks : List Block) : Block := blocks.foldl absorb Block.zero

/-- The compression of one or more whole blocks. -/
def compress (data : Bytes) : Except LengthFault Block :=
  match Block.split data with
  | (b :: rest, []) => .ok (compressBlocks (b :: rest))
  | _ => .error ⟨data.length⟩

/-- The constant with a given second byte. -/
def constant (purpose : UInt8) : Block :=
  #v[0x01, purpose, 0x53, 0x48, 0x45, 0x00, 0x80, 0, 0, 0, 0, 0, 0, 0, 0, 0xB0]

/-- The constant of keys that encrypt key updates. -/
def updateCipher : Block := constant 1

/-- The constant of keys that authenticate key updates. -/
def updateMac : Block := constant 2

/-- The constant of keys that authorize debugging. -/
def debugging : Block := constant 3

/-- The key derived from a key for a purpose. -/
def derive (key constant : Block) : Block := compressBlocks [key, constant]

end VehicleGateway.Derivation
