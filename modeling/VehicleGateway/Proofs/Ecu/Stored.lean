import VehicleGateway.Ecu.Report

/-!
# Records are read back

What is stored of a record decodes to that record.  The full report of a record, with anything after
it, says what the record says.
-/

namespace VehicleGateway

/-- The bytes of a word spell it in either order. -/
theorem ByteOrder.exists_ofWord (o : ByteOrder) (w : UInt32) :
    ∃ a b c d, o.ofWord w = [a, b, c, d] ∧ o.word a b c d = w := by
  cases o with
  | little => exact ⟨_, _, _, _, rfl, Bytes.wordBig_bytes w⟩
  | big => exact ⟨_, _, _, _, rfl, Bytes.wordBig_bytes w⟩

namespace EcuRecord

theorem secureFlag_flags (r : EcuRecord) : secureFlag r.flags = r.secure := by
  unfold flags secureFlag
  cases r.secure <;> rfl

theorem decode_encode (r : EcuRecord) : decode r.encode = .ok r := by
  have hversion := Bytes.wordBig_bytes r.version
  -- The checksum is that of all before it.
  have hbody : r.encode.take 14 = r.body := rfl
  generalize hsum : Checksum.ofBytes r.body = sum
  have hchecksum := Bytes.halfBig_bytes sum
  unfold decode
  split
  case h_1 hform =>
    rw [hbody, hsum]
    rw [encode, hsum] at hform
    simp only [body, Bytes.ofWordBig, Bytes.ofHalfBig, List.cons_append, List.nil_append,
      List.cons.injEq] at hform
    obtain ⟨rfl, rfl, rfl, rfl, rfl, rfl, rfl, rfl, rfl, rfl, -, -, -, -, rfl, rfl, -⟩ := hform
    rw [hchecksum, hversion, secureFlag_flags, Protocol.ofCode_code, Status.ofCode_code,
      ByteOrder.ofCode_code]
    simp [bind, Except.bind, pure, Except.pure]
  case h_2 hother => exact absurd rfl (hother _ _ _ _ _ _ _ _ _ _ _ _ _ _ _ _)

theorem ofReport_report (r : EcuRecord) (rest : Bytes) : ofReport (r.report ++ rest) = .ok r := by
  obtain ⟨a, b, c, d, hword, hversion⟩ := r.order.exists_ofWord r.version
  simp only [report, hword, List.cons_append, List.nil_append, ofReport, ByteOrder.ofCode_code,
    Protocol.ofCode_code, Status.ofCode_code, secureFlag_flags, bind, Except.bind, pure,
    Except.pure, hversion]

end EcuRecord
end VehicleGateway
