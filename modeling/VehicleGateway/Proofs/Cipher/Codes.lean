import VehicleGateway.Cipher.Mac
import VehicleGateway.Proofs.Cipher.Inverse

/-!
# What an authentication code tells apart

A cipher that can be undone maps different blocks to different ones.  The code of a message is the
end of a chain over its blocks, and a difference that has entered the chain at one block is carried
on by all later ones.

* `foldl_absorb_injective` says that a difference in the chain does not vanish, and `chain_injective`
  that a difference in one block enters it.
* `masked_join` and `masked_rest` say which blocks are chained for a message.
* `tag_join_injective` says that two messages of whole blocks that differ in one block only have
  different codes.  Messages that differ in two blocks can have the same code.
-/

namespace VehicleGateway

theorem Block.xor_right_injective (a : Block) {b c : Block} (h : a ^^^ b = a ^^^ c) : b = c := by
  rw [xor_comm a b, xor_comm a c] at h
  rw [← xor_xor_cancel b a, h, xor_xor_cancel]

namespace Mac

variable (key : Block)

theorem absorb_right_injective (x : Block) {b c : Block} (h : absorb key x b = absorb key x c) :
    b = c :=
  Block.xor_right_injective x (Aes.encrypt_injective key h)

theorem absorb_left_injective (b : Block) {x y : Block} (h : absorb key x b = absorb key y b) :
    x = y := by
  have hsum := Aes.encrypt_injective key h
  rw [Block.xor_comm x b, Block.xor_comm y b] at hsum
  exact Block.xor_right_injective b hsum

/-- A difference in the chain does not vanish. -/
theorem foldl_absorb_injective (blocks : List Block) {x y : Block}
    (h : blocks.foldl (absorb key) x = blocks.foldl (absorb key) y) : x = y := by
  induction blocks generalizing x y with
  | nil => exact h
  | cons b blocks ih => exact absorb_left_injective key b (ih h)

/-- The last of one or more whole blocks is masked. -/
theorem masked_join (blocks : List Block) (last : Block) :
    masked key (Block.join (blocks ++ [last])) = blocks ++ [last ^^^ wholeMask key] := by
  unfold masked
  cases hsome : blocks ++ [last] with
  | nil => simp at hsome
  | cons b rest =>
    rw [Block.split_join]
    simp only [← hsome, List.dropLast_concat, List.getLast_concat]

/-- What is left over after whole blocks is continued and masked. -/
theorem masked_rest (blocks : List Block) {rest : Bytes} (hne : rest ≠ [])
    (hshort : rest.length < 16) :
    masked key (Block.join blocks ++ rest) = blocks ++ [continued rest ^^^ restMask key] := by
  unfold masked
  rw [Block.split_join_append blocks rest hshort]
  split
  case h_1 heq => exact absurd (Prod.mk.inj heq).2 hne
  case h_2 heq =>
    obtain ⟨rfl, rfl⟩ := Prod.mk.inj heq
    rfl

theorem getElem_continued {rest : Bytes} {i : Nat} (hi : i < rest.length) (hshort : i < 16) :
    (continued rest)[i] = rest[i] := by
  simp [continued, List.getElem?_append_left hi, List.getElem?_eq_getElem hi]

/-- As many bytes as there are can be read off what they are continued to. -/
theorem continued_injective {rest rest' : Bytes} (hlength : rest.length = rest'.length)
    (hshort : rest.length < 16) (h : continued rest = continued rest') : rest = rest' := by
  refine List.ext_getElem hlength fun i hi hi' => ?_
  rw [← getElem_continued hi (Nat.lt_trans hi hshort), h, getElem_continued hi']

/-- Two chains over the same blocks but one come to different ends. -/
theorem chain_injective (before after : List Block) {b c : Block}
    (h : (before ++ b :: after).foldl (absorb key) Block.zero =
      (before ++ c :: after).foldl (absorb key) Block.zero) : b = c := by
  simp only [List.foldl_append, List.foldl_cons] at h
  exact absorb_right_injective key _ (foldl_absorb_injective key after h)

/-- Two messages of whole blocks that have the same code and differ in at most one block do not
differ. -/
theorem tag_join_injective (before after : List Block) {b c : Block}
    (h : tag key (Block.join (before ++ b :: after)) =
      tag key (Block.join (before ++ c :: after))) : b = c := by
  rcases List.eq_nil_or_concat after with rfl | ⟨middle, last, rfl⟩
  · -- The block is the last one, to which the mask is added.
    rw [tag, tag, masked_join, masked_join] at h
    have hmasked := chain_injective key before [] h
    rw [Block.xor_comm b, Block.xor_comm c] at hmasked
    exact Block.xor_right_injective _ hmasked
  · have hsplit (x : Block) : before ++ x :: middle.concat last =
        (before ++ x :: middle) ++ [last] := by simp
    rw [hsplit b, hsplit c, tag, tag, masked_join, masked_join, List.append_assoc,
      List.append_assoc] at h
    exact chain_injective key before (middle ++ [last ^^^ wholeMask key]) h

end Mac
end VehicleGateway
