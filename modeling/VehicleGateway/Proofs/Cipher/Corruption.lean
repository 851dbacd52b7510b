import VehicleGateway.Proofs.Cipher.Codes

/-!
# Messages that differ in one block

An authentication code tells two messages of one length apart if they differ in one of the blocks
only into which they are split, be it a whole block or what is left after the whole ones.

* `DifferInBlock` says this of the bytes at each place, and `DifferInBlock.parts` takes the messages
  apart at that block.
* `Mac.tag_ne_of_differInBlock` is the result, and `Mac.verify_of_differInBlock` what it means for who
  checks a code.
-/

namespace VehicleGateway

/-- Two byte strings of one length that differ, but only inside one of the blocks of sixteen bytes
into which they are split. -/
structure DifferInBlock (a b : Bytes) : Prop where
  length : a.length = b.length
  differ : a ≠ b
  within : ∃ n, ∀ i, a[i]? ≠ b[i]? → i / 16 = n

namespace DifferInBlock

variable {a b : Bytes}

theorem symm (h : DifferInBlock a b) : DifferInBlock b a := by
  obtain ⟨hlength, hdiffer, n, hwithin⟩ := h
  exact ⟨hlength.symm, hdiffer.symm, n, fun i hi => hwithin i hi.symm⟩

/-- A byte that is exchanged for another one is a difference in one block. -/
theorem set {i : Nat} {x : UInt8} (hi : i < a.length) (hx : a[i] ≠ x) :
    DifferInBlock a (a.set i x) := by
  refine ⟨by simp, ?_, i / 16, ?_⟩
  · intro hsame
    apply hx
    have hbyte := congrArg (·[i]?) hsame
    simpa [hi] using hbyte
  · intro j hj
    by_cases hij : i = j
    · rw [hij]
    · rw [List.getElem?_set_ne hij] at hj
      exact absurd rfl hj

/-- The block of the differences is there, whole or in part. -/
theorem exists_block (h : DifferInBlock a b) :
    ∃ n, 16 * n < a.length ∧ ∀ i, i / 16 ≠ n → a[i]? = b[i]? := by
  obtain ⟨hlength, hdiffer, n, hwithin⟩ := h
  obtain ⟨i, hi⟩ : ∃ i, a[i]? ≠ b[i]? := by
    by_contra hnone
    exact hdiffer (List.ext_getElem? fun i => not_not.1 fun hne => hnone ⟨i, hne⟩)
  have hplace := hwithin i hi
  have hbound : i < a.length := by
    by_contra hlate
    apply hi
    rw [List.getElem?_eq_none (by omega), List.getElem?_eq_none (by omega)]
  exact ⟨n, by omega, fun j hj => not_not.1 fun hne => hj (hwithin j hne)⟩

/-- Before and behind some block there is no difference, and the block is a whole one or the last. -/
theorem parts (h : DifferInBlock a b) : ∃ blocks x y rest,
    a = Block.join blocks ++ (x ++ rest) ∧ b = Block.join blocks ++ (y ++ rest) ∧ x ≠ y ∧
      x.length = y.length ∧ (x.length = 16 ∨ x.length < 16 ∧ rest = []) := by
  obtain ⟨n, hreach, hsame⟩ := h.exists_block
  have hfront : a.take (16 * n) = b.take (16 * n) := by
    refine List.ext_getElem? fun i => ?_
    rw [List.getElem?_take, List.getElem?_take]
    split
    case isTrue hi => exact hsame i (by omega)
    case isFalse => rfl
  have hback : a.drop (16 * n + 16) = b.drop (16 * n + 16) := by
    refine List.ext_getElem? fun i => ?_
    rw [List.getElem?_drop, List.getElem?_drop]
    exact hsame _ (by omega)
  have hsplit (l : Bytes) : l = l.take (16 * n) ++
      (Bytes.window l (16 * n) 16 ++ l.drop (16 * n + 16)) := by
    rw [Bytes.window, ← List.drop_drop, List.take_append_drop, List.take_append_drop]
  have hsize (l : Bytes) : (Bytes.window l (16 * n) 16).length = min 16 (l.length - 16 * n) := by
    rw [Bytes.window, List.length_take, List.length_drop]
  have hwhole : 16 ∣ (a.take (16 * n)).length := by
    rw [List.length_take, Nat.min_eq_left (by omega)]
    exact Nat.dvd_mul_right 16 n
  obtain ⟨blocks, hblocks⟩ := Block.exists_join hwhole
  have ha := hsplit a
  have hb := hsplit b
  rw [hblocks] at ha
  rw [← hfront, ← hback, hblocks] at hb
  refine ⟨blocks, _, _, _, ha, hb, ?_, by rw [hsize, hsize, h.length], ?_⟩
  · intro hblock
    rw [hblock, ← hb] at ha
    exact h.differ ha
  · rw [hsize]
    rcases Nat.lt_or_ge (a.length - 16 * n) 16 with hshort | hlong
    · exact .inr ⟨by omega, List.drop_eq_nil_of_le (by omega)⟩
    · exact .inl (by omega)

end DifferInBlock

namespace Mac

variable {a b : Bytes}

/-- Messages of one length that differ in one block have different codes. -/
theorem tag_ne_of_differInBlock (key : Block) (h : DifferInBlock a b) :
    tag key a ≠ tag key b := by
  obtain ⟨blocks, x, y, rest, rfl, rfl, hxy, hlength, hblock⟩ := h.parts
  intro htag
  apply hxy
  rcases hblock with hwhole | ⟨hshort, rfl⟩
  · -- The difference is in a whole block, behind which there are others or a rest or nothing.
    obtain ⟨u, rfl⟩ : ∃ u : Block, x = u.toList := ⟨⟨x.toArray, by simpa using hwhole⟩, rfl⟩
    obtain ⟨v, rfl⟩ : ∃ v : Block, y = v.toList :=
      ⟨⟨y.toArray, by simpa [hlength] using hwhole⟩, rfl⟩
    have hsplit := Block.join_split rest
    have hleft := Block.length_split_lt rest
    generalize (Block.split rest).1 = later at hsplit
    generalize (Block.split rest).2 = left at hsplit hleft
    have hmessage (z : Block) : Block.join blocks ++ (z.toList ++ rest) =
        Block.join (blocks ++ z :: later) ++ left := by
      rw [← hsplit]
      simp [Block.join]
    rw [hmessage, hmessage] at htag
    by_cases hnone : left = []
    · rw [hnone, List.append_nil, List.append_nil] at htag
      rw [tag_join_injective key blocks later htag]
    · rw [tag, tag, masked_rest key _ hnone hleft, masked_rest key _ hnone hleft,
        List.append_assoc, List.append_assoc] at htag
      rw [chain_injective key blocks _ htag]
  · -- The difference is in what is left after the whole blocks.
    have hne (z w : Bytes) (hzw : z ≠ w) (hsize : z.length = w.length) : z ≠ [] := by
      rintro rfl
      exact hzw (List.eq_nil_of_length_eq_zero hsize.symm).symm
    rw [List.append_nil, List.append_nil, tag, tag, masked_rest key _ (hne x y hxy hlength) hshort,
      masked_rest key _ (hne y x hxy.symm hlength.symm) (by omega)] at htag
    have hmasked := chain_injective key blocks [] htag
    rw [Block.xor_comm (continued x), Block.xor_comm (continued y)] at hmasked
    exact continued_injective hlength hshort (Block.xor_right_injective _ hmasked)

/-- The code of the one message is not taken for that of the other. -/
theorem verify_of_differInBlock (key : Block) (h : DifferInBlock a b) :
    verify key b (tag key a).toList = false := by
  rw [verify, decide_eq_false_iff_not, Vector.toList_inj]
  exact (tag_ne_of_differInBlock key h).symm

end Mac
end VehicleGateway
