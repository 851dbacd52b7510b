/-!
# Key flags

Five properties that are stored with a key.
-/

namespace VehicleGateway

/-- Properties of a stored key. -/
structure KeyFlags where
  /-- The key can be erased but not replaced. -/
  writeProtection : Bool := false
  /-- The key needs a secure boot. -/
  bootProtection : Bool := false
  /-- The key keeps all keys from being erased. -/
  debuggerProtection : Bool := false
  /-- The key makes authentication codes only. -/
  macOnly : Bool := false
  /-- The key can be replaced by an update for any element. -/
  wildcard : Bool := false
  deriving DecidableEq, Repr

namespace KeyFlags

/-- The flags as a number below 32, write protection first. -/
def bits (f : KeyFlags) : Nat :=
  f.writeProtection.toNat * 16 + f.bootProtection.toNat * 8 + f.debuggerProtection.toNat * 4
    + f.macOnly.toNat * 2 + f.wildcard.toNat

/-- The flags of a number, of which the lowest five bits count. -/
def ofBits (n : Nat) : KeyFlags where
  writeProtection := n.testBit 4
  bootProtection := n.testBit 3
  debuggerProtection := n.testBit 2
  macOnly := n.testBit 1
  wildcard := n.testBit 0

theorem ofBits_bits (f : KeyFlags) : ofBits f.bits = f := by
  obtain ⟨a, b, c, d, e⟩ := f
  revert a b c d e
  decide

end KeyFlags
end VehicleGateway
