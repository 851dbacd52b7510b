import VehicleGateway.Cipher.Aes

/-!
# Encrypting whole blocks

Data of one or more whole blocks can be encrypted block by block, or in a chain in which each
cipher text is added to the next plain text.  Data of any other length is refused.
-/

namespace VehicleGateway

/-- Data that is not made of one or more whole blocks. -/
structure LengthFault where
  length : Nat
  deriving DecidableEq, Repr

namespace Block

/-- Maps the blocks of data that is made of one or more of them. -/
def overBlocks (f : List Block → List Block) (data : Bytes) : Except LengthFault Bytes :=
  match split data with
  | (b :: rest, []) => .ok (join (f (b :: rest)))
  | _ => .error ⟨data.length⟩

/-- Encrypts in a chain that starts from `previous`. -/
def chain (key : Block) : (previous : Block) → List Block → List Block
  | _, [] => []
  | previous, b :: rest =>
    let c := Aes.encrypt key (b ^^^ previous)
    c :: chain key c rest

/-- Undoes `chain`. -/
def unchain (key : Block) : (previous : Block) → List Block → List Block
  | _, [] => []
  | previous, c :: rest => (Aes.decrypt key c ^^^ previous) :: unchain key c rest

/-- Encrypts each block by itself. -/
def encryptEach (key : Block) : Bytes → Except LengthFault Bytes :=
  overBlocks fun blocks => blocks.map (Aes.encrypt key)

/-- Decrypts each block by itself. -/
def decryptEach (key : Block) : Bytes → Except LengthFault Bytes :=
  overBlocks fun blocks => blocks.map (Aes.decrypt key)

/-- Encrypts in a chain. -/
def encryptChain (key start : Block) : Bytes → Except LengthFault Bytes :=
  overBlocks (chain key start)

/-- Decrypts a chain. -/
def decryptChain (key start : Block) : Bytes → Except LengthFault Bytes :=
  overBlocks (unchain key start)

end Block
end VehicleGateway
