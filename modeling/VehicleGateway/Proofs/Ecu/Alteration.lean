import VehicleGateway.Proofs.Checksum.Detection
import VehicleGateway.Proofs.Ecu.Stored

/-!
# Stored records that were altered

A stored record is read back as it was.  If bits of it were flipped it is refused, whichever record
it was and wherever the bits stand, the format and the checksum itself included: as long as they
stand within sixteen bits in a row, or are three at most.
-/

namespace VehicleGateway.EcuRecord

/-- The stored form, with its checksum, is divided without remainder. -/
theorem remainder_encode (r : EcuRecord) : Checksum.remainder 0xFFFF r.encode = 0 := by
  rw [encode, Bytes.ofHalfBig, Checksum.remainder_append, Checksum.remainder_pair_eq_zero_iff,
    Bytes.halfBig_bytes]
  rfl

/-- Sixteen bytes that leave a remainder are refused. -/
theorem decode_of_remainder {data : Bytes} (hlen : data.length = storedLength)
    (hrest : Checksum.remainder 0xFFFF data ≠ 0) :
    decode data = .error (if data.headD 0 = 1 then .checksum else .format (data.headD 0)) := by
  match data, hlen with
  | [format, p, interface, s, o, fl, v3, v2, v1, v0, z3, z2, z1, z0, c1, c0], _ =>
    -- What the first fourteen bytes leave is not what stands behind them.
    have hsum : Checksum.ofBytes ([format, p, interface, s, o, fl, v3, v2, v1, v0, z3, z2, z1, z0,
        c1, c0].take 14) ≠ Bytes.halfBig c1 c0 := by
      intro h
      apply hrest
      rw [← List.take_append_drop 14 (format :: _), Checksum.remainder_append]
      exact (Checksum.remainder_pair_eq_zero_iff _ c1 c0).mpr (congrArg UInt16.toBitVec h)
    by_cases hformat : format = 1
    · subst hformat
      rw [decode, if_neg (not_not_intro rfl), if_pos hsum]
      rfl
    · rw [decode, if_pos hformat, List.headD_cons, if_neg hformat]

theorem altered_record_refused (r : EcuRecord) :
    decode r.encode = .ok r ∧
      ∀ noise : Bytes, noise.length = storedLength → (∃ b ∈ noise, b ≠ 0) →
        Checksum.Slight noise →
        decode (Checksum.flipped r.encode noise) =
          .error (if noise.headD 0 = 0 then .checksum else .format (1 ^^^ noise.headD 0)) := by
  refine ⟨decode_encode r, fun noise hlen hsome hslight => ?_⟩
  have hlength : r.encode.length = noise.length := hlen.symm
  have hrest : Checksum.remainder 0xFFFF (Checksum.flipped r.encode noise) ≠ 0 := by
    rw [Checksum.remainder_flipped hlength, remainder_encode]
    simpa using Checksum.remainder_ne_zero (Nat.le_of_eq hlen) hsome hslight
  have hflipped : (Checksum.flipped r.encode noise).length = storedLength := by
    rw [Checksum.length_flipped hlength, length_encode]
  have hhead : (Checksum.flipped r.encode noise).headD 0 = 1 ^^^ noise.headD 0 := by
    cases noise with
    | nil => cases hlen
    | cons => rfl
  rw [decode_of_remainder hflipped hrest, hhead]
  have hsame : 1 ^^^ noise.headD 0 = 1 ↔ noise.headD 0 = 0 :=
    ⟨fun h => (UInt8.xor_right_inj 1).mp (h.trans rfl), fun h => by rw [h]; rfl⟩
  simp only [hsame]

/-- A record of an ECU on the second interface. -/
def storedSample : EcuRecord where
  protocol := .canFd
  interface := 1
  status := .sleeping
  order := .little
  version := 0xFFFF0102

/-- Sixteen bits from the middle of the byte order on, through the flags to the version. -/
def wideBurst : Bytes := [0, 0, 0, 0, 0x09, 0x5A, 0xD0, 0, 0, 0, 0, 0, 0, 0, 0, 0]

/-- Sixteen bits across three fields, of which the first one and the last are flipped. -/
theorem wide_burst_refused :
    decode storedSample.encode = .ok storedSample ∧
      decode (Checksum.flipped storedSample.encode wideBurst) = .error .checksum :=
  ⟨(altered_record_refused storedSample).1,
    (altered_record_refused storedSample).2 wideBurst rfl (by decide)
      (.descending (by decide +kernel))⟩

end VehicleGateway.EcuRecord
