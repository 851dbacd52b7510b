import Mathlib.Data.Fintype.EquivFin
import Mathlib.Data.Fintype.Pi
import VehicleGateway.Proofs.Cipher.Inverse

/-!
# Encryption and decryption of whole blocks

What the two ways to encrypt have in common, and what is peculiar to the chain.

* `Aes.encrypt_decrypt`: there are as many cipher texts as plain texts, so encryption undoes
  decryption because decryption undoes encryption.
* `Maps` says what any map of blocks makes of data.
* `chain_append` carries the chain past the end of a text, into the text that follows.
* `modes_invert` is the result.
-/

namespace VehicleGateway

/-! ## One block -/

instance : Finite Block :=
  Finite.of_injective (fun (b : Block) (i : Fin 16) => b[i].toFin) fun b c h =>
    Vector.ext fun i hi => UInt8.toFin_inj.mp (congrFun h ⟨i, hi⟩)

/-- Encryption undoes decryption. -/
theorem Aes.encrypt_decrypt (key c : Block) : encrypt key (decrypt key c) = c := by
  have hinjective : Function.Injective (encrypt key) := fun _ _ h => encrypt_injective key h
  -- A block is finite, so every block is a cipher text.
  obtain ⟨b, rfl⟩ := Finite.surjective_of_injective hinjective c
  rw [decrypt_encrypt]

namespace Block

/-! ## Any map of blocks -/

/-- What becomes of data by any map of blocks. -/
structure Maps (mode : Bytes → Except LengthFault Bytes) : Prop where
  taken : ∀ data, (∃ out, mode data = .ok out) ↔ Whole data
  refused : ∀ data, ¬ Whole data → mode data = .error ⟨data.length⟩
  length : ∀ data out, mode data = .ok out → out.length = data.length

theorem overBlocks_maps {f : List Block → List Block}
    (hlength : ∀ blocks, (f blocks).length = blocks.length) :
    Maps (overBlocks f) := by
  refine ⟨?_, fun data => overBlocks_of_not_whole, ?_⟩
  · intro data
    constructor
    · rintro ⟨out, h⟩
      obtain ⟨blocks, hblocks, rfl, -⟩ := overBlocks_eq_ok_iff.mp h
      exact whole_join hblocks
    · intro hwhole
      obtain ⟨blocks, hblocks, rfl⟩ := exists_join_of_whole hwhole
      exact ⟨_, overBlocks_join hblocks⟩
  · exact fun data out => length_of_overBlocks hlength

/-! ## The chain -/

theorem length_unchain (key previous : Block) (blocks : List Block) :
    (unchain key previous blocks).length = blocks.length := by
  induction blocks generalizing previous with
  | nil => rfl
  | cons c blocks ih => simp only [unchain, List.length_cons, ih]

/-- What is decrypted in a chain can be encrypted again. -/
theorem chain_unchain (key previous : Block) (blocks : List Block) :
    chain key previous (unchain key previous blocks) = blocks := by
  induction blocks generalizing previous with
  | nil => rfl
  | cons c blocks ih => simp only [unchain, chain, xor_xor_cancel, Aes.encrypt_decrypt, ih]

/-- A chain goes on from its last cipher text. -/
theorem chain_append (key previous : Block) (a b : List Block) :
    chain key previous (a ++ b) =
      chain key previous a ++ chain key ((chain key previous a).getLastD previous) b := by
  induction a generalizing previous with
  | nil => rfl
  | cons x a ih =>
    simp only [List.cons_append, chain, ih, List.getLastD_cons]

theorem ofBytes?_toList (b : Block) : ofBytes? b.toList = some b := by
  simp [ofBytes?, Vector.toList]

/-- The last block of whole blocks is their last sixteen bytes. -/
theorem ofBytes?_last {blocks : List Block} (hblocks : blocks ≠ []) (start : Block) :
    ofBytes? ((join blocks).drop ((join blocks).length - 16)) = some (blocks.getLastD start) := by
  obtain ⟨before, last, rfl⟩ := (List.eq_nil_or_concat blocks).resolve_left hblocks
  have hbytes : (join (before.concat last)).drop ((join (before.concat last)).length - 16) =
      last.toList := by
    rw [List.concat_eq_append, join_append, List.length_append, length_join [last]]
    simp [join]
  rw [hbytes, ofBytes?_toList, List.concat_eq_append, List.getLastD_concat]

/-- Data is encrypted and decrypted, in either way, exactly if it is made of one or more whole
blocks, and then keeps its length.  What is encrypted is decrypted to the data it was made from, and
conversely.  A chain over two texts is the chain over the first one, followed by the chain over the
second one that starts from the last cipher text of the first. -/
theorem modes_invert (key start : Block) :
    Maps (encryptEach key) ∧ Maps (decryptEach key) ∧ Maps (encryptChain key start) ∧
      Maps (decryptChain key start) ∧
    (∀ data out, encryptEach key data = .ok out ↔ decryptEach key out = .ok data) ∧
    (∀ data out, encryptChain key start data = .ok out ↔ decryptChain key start out = .ok data) ∧
    ∀ a b, Whole a → Whole b → ∃ c last d, encryptChain key start a = .ok c ∧
      ofBytes? (c.drop (c.length - 16)) = some last ∧ encryptChain key last b = .ok d ∧
        encryptChain key start (a ++ b) = .ok (c ++ d) := by
  have heach (f : Block → Block) (blocks : List Block) : (blocks.map f).length = blocks.length :=
    List.length_map f
  have hread (blocks : List Block) :
      (blocks.map (Aes.encrypt key)).map (Aes.decrypt key) = blocks := by
    simp [Function.comp_def, Aes.decrypt_encrypt]
  have hwritten (blocks : List Block) :
      (blocks.map (Aes.decrypt key)).map (Aes.encrypt key) = blocks := by
    simp [Function.comp_def, Aes.encrypt_decrypt]
  refine ⟨overBlocks_maps (heach _), overBlocks_maps (heach _),
    overBlocks_maps (length_chain key start), overBlocks_maps (length_unchain key start),
    ?_, ?_, ?_⟩
  · intro data out
    exact ⟨overBlocks_undone (heach _) hread, overBlocks_undone (heach _) hwritten⟩
  · intro data out
    exact ⟨overBlocks_undone (length_chain key start) (unchain_chain key start),
      overBlocks_undone (length_unchain key start) (chain_unchain key start)⟩
  · intro a b ha hb
    obtain ⟨as, has, rfl⟩ := exists_join_of_whole ha
    obtain ⟨bs, hbs, rfl⟩ := exists_join_of_whole hb
    have hchain : chain key start as ≠ [] := by
      rw [← List.length_pos_iff, length_chain, List.length_pos_iff]
      exact has
    have hboth : as ++ bs ≠ [] := List.append_ne_nil_of_left_ne_nil has bs
    refine ⟨_, _, _, overBlocks_join has, ofBytes?_last hchain start, overBlocks_join hbs, ?_⟩
    rw [← join_append, encryptChain, overBlocks_join hboth, chain_append, join_append]

/-- Thirty-two bytes are encrypted as two texts of sixteen. -/
theorem two_blocks_chained :
    Whole (List.replicate 16 0x11) ∧
      ∃ c last d, encryptChain zero zero (List.replicate 16 0x11) = .ok c ∧
        ofBytes? (c.drop (c.length - 16)) = some last ∧
        encryptChain zero last (List.replicate 16 0x11) = .ok d ∧
        encryptChain zero zero (List.replicate 32 0x11) = .ok (c ++ d) := by
  have hwhole : Whole (List.replicate 16 0x11) := by simp [Whole]
  obtain ⟨-, -, -, -, -, -, happend⟩ := modes_invert zero zero
  exact ⟨hwhole, happend _ _ hwhole hwhole⟩

end Block
end VehicleGateway
