import VehicleGateway.Firmware.Code
import VehicleGateway.Message

/-!
# What identifiers say

An identifier that was put together says what it was put together from: the traffic of updates and
the commands are told apart, and so are their ECUs.
-/

namespace VehicleGateway

namespace Identifier

/-- The value of an identifier that was put together. -/
theorem toNat_assemble (c : Category) {low : Nat} (hlow : low < 0x1000000) :
    (assemble c low).raw.toNat = c.mark * 0x1000000 + low := by
  have hmark : c.mark ≤ 4 := by cases c <;> decide
  rw [assemble, UInt32.toNat_ofNat']
  omega

/-- The number of an ECU and a code, one above the other, can be told apart. -/
theorem ecu_code_parts (ecu : EcuNo) (code : UInt8) :
    ecu.toNat * 0x100 + code.toNat < 0x10000 ∧
      UInt8.ofNat ((ecu.toNat * 0x100 + code.toNat) / 0x100) = ecu ∧
      UInt8.ofNat (ecu.toNat * 0x100 + code.toNat) = code := by
  have hecu := ecu.toNat_lt
  have hcode := code.toNat_lt
  refine ⟨by omega, ?_, ?_⟩
  · apply UInt8.toNat_inj.mp
    rw [UInt8.toNat_ofNat']
    omega
  · apply UInt8.toNat_inj.mp
    rw [UInt8.toNat_ofNat']
    omega

/-- The parts of an identifier that has the number of an ECU and a code below its category. -/
theorem heading_of_toNat {c : Category} (hc : c ≠ .data) {i : Identifier} {ecu : EcuNo}
    {code : UInt8} (hraw : i.raw.toNat = c.mark * 0x1000000 + (ecu.toNat * 0x100 + code.toNat)) :
    i.heading = .ok (if c = .command then .command ecu code else .firmware ecu code) := by
  obtain ⟨hfits, hfirst, hsecond⟩ := ecu_code_parts ecu code
  have hmark : i.raw.toNat / 0x1000000 = c.mark := by omega
  have hlow : i.raw.toNat % 0x1000000 = ecu.toNat * 0x100 + code.toNat := by omega
  cases c with
  | data => exact absurd rfl hc
  | command | firmware =>
    simp only [Category.mark] at hmark
    simp only [heading, category?, hmark, hlow, hfits, if_true, hfirst, hsecond, reduceCtorEq,
      if_false]

/-- The parts of an identifier of firmware traffic. -/
theorem heading_firmware (ecu : EcuNo) (code : UInt8) :
    (Identifier.firmware ecu code).heading = .ok (.firmware ecu code) := by
  obtain ⟨hfits, -⟩ := ecu_code_parts ecu code
  exact heading_of_toNat (by decide) (toNat_assemble .firmware (by omega))

/-- The parts of an identifier of a command. -/
theorem heading_command (ecu : EcuNo) (code : UInt8) :
    (Identifier.command ecu code).heading = .ok (.command ecu code) := by
  obtain ⟨hfits, -⟩ := ecu_code_parts ecu code
  exact heading_of_toNat (by decide) (toNat_assemble .command (by omega))

end Identifier

namespace Frame

/-- What the identifier of a frame says. -/
def heading (f : Frame) : Except MessageFault Heading :=
  Identifier.heading ⟨f.id⟩

/-- Whether a frame belongs to the update of an ECU. -/
def isUpdate (ecu : EcuNo) (f : Frame) : Bool :=
  match f.heading with
  | .ok (.firmware other _) => other = ecu
  | _ => false

/-- Whether a frame brings an ECU a chunk of an image. -/
def isChunk (ecu : EcuNo) (f : Frame) : Bool :=
  match f.heading with
  | .ok (.firmware other code) => other = ecu && code = Firmware.chunk
  | _ => false

end Frame
end VehicleGateway
