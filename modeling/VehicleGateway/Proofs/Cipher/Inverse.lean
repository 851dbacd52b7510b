import Mathlib.Tactic.IntervalCases
import VehicleGateway.Cipher.Mode

/-!
# What the cipher hides can be read again

Decryption undoes encryption, for one block and for a chain of them.

* Each map of a round has its inverse.  For the mixing of columns that is a computation in the
  polynomials over the field of two elements: `double_xor` is all that is used of doubling.
* `decrypt_encrypt` puts the rounds together, and `unchain_chain` the blocks.
* `overBlocks_eq_ok_iff` says what any map of blocks makes of data, and `overBlocks_undone` that it is
  undone there if it is undone on blocks.
-/

namespace VehicleGateway

namespace Aes

/-! ## The maps of a round -/

/-- A table whose entries another one lists at their places is undone by that one. -/
theorem entry_entry {t u : Vector UInt8 256}
    (h : (t.toList.map fun c => (entry u c).toNat) = List.range 256) (b : UInt8) :
    entry u (entry t b) = b := by
  have hb : b.toNat < t.toList.length := by simpa using b.toNat_lt
  have hentry : (entry u t.toList[b.toNat]).toNat = b.toNat := by
    have hplace := congrArg (fun l : List Nat => l[b.toNat]?) h
    simpa only [List.getElem?_map, List.getElem?_eq_getElem hb, Option.map_some,
      List.getElem?_range b.toNat_lt, Option.some.injEq] using hplace
  rw [Vector.getElem_toList] at hentry
  exact UInt8.toNat_inj.mp hentry

theorem entry_backwardTable_entry_forwardTable (b : UInt8) :
    entry backwardTable (entry forwardTable b) = b :=
  entry_entry (by decide +kernel) b

theorem unsubstitute_substitute (s : Block) : unsubstitute (substitute s) = s := by
  ext i h
  simp only [unsubstitute, substitute, Vector.getElem_map, entry_backwardTable_entry_forwardTable]

theorem unturn_turn (s : Block) : unturn (turn s) = s := by
  ext i h
  interval_cases i <;> rfl

theorem xor_left_comm (a b c : UInt8) : a ^^^ (b ^^^ c) = b ^^^ (a ^^^ c) := by
  rw [← UInt8.xor_assoc, UInt8.xor_comm a b, UInt8.xor_assoc]

theorem xor_left_cancel (a b : UInt8) : a ^^^ (a ^^^ b) = b := by
  rw [← UInt8.xor_assoc, UInt8.xor_self, UInt8.zero_xor]

/-- A byte is below 128 if its first bit is not set. -/
theorem lt_128_iff (x : UInt8) : x < 128 ↔ x.toBitVec.msb = false := by
  rw [BitVec.msb_eq_decide, UInt8.lt_iff_toNat_lt]
  simp

theorem double_eq (x : UInt8) :
    double x = (x <<< 1) ^^^ (if x.toBitVec.msb then 0x1B else 0) := by
  unfold double
  cases hmsb : x.toBitVec.msb with
  | false => simp [(lt_128_iff x).mpr hmsb]
  | true =>
    have hlarge : ¬ x < 128 := fun h => by simp [(lt_128_iff x).mp h] at hmsb
    simp [hlarge]

/-- Doubling is linear. -/
theorem double_xor (x y : UInt8) : double (x ^^^ y) = double x ^^^ double y := by
  have hshift : (x ^^^ y) <<< 1 = (x <<< 1) ^^^ (y <<< 1) := by
    apply UInt8.toBitVec_inj.mp
    simp [BitVec.shiftLeft_xor_distrib]
  simp only [double_eq, hshift, UInt8.toBitVec_xor, BitVec.msb_xor]
  -- The sum is reduced if exactly one of the two is.
  cases x.toBitVec.msb <;> cases y.toBitVec.msb <;>
    simp [UInt8.xor_assoc, UInt8.xor_comm, xor_left_comm]

/-! Multiplication by each of the four factors is linear, too. -/

theorem times9_xor (x y : UInt8) : times9 (x ^^^ y) = times9 x ^^^ times9 y := by
  simp only [times9, double_xor]
  ac_rfl

theorem times11_xor (x y : UInt8) : times11 (x ^^^ y) = times11 x ^^^ times11 y := by
  simp only [times11, double_xor]
  ac_rfl

theorem times13_xor (x y : UInt8) : times13 (x ^^^ y) = times13 x ^^^ times13 y := by
  simp only [times13, double_xor]
  ac_rfl

theorem times14_xor (x y : UInt8) : times14 (x ^^^ y) = times14 x ^^^ times14 y := by
  simp only [times14, double_xor]
  ac_rfl

/-! The first row of the product of the two matrices is 1, 0, 0, 0. -/

theorem row_first (a : UInt8) :
    times14 (double a) ^^^ times11 a ^^^ times13 a ^^^ times9 (triple a) = a := by
  simp only [times14, times11, times13, times9, triple, double_xor, UInt8.xor_assoc,
    UInt8.xor_comm, xor_left_comm, xor_left_cancel, UInt8.xor_self, UInt8.xor_zero]

theorem row_second (b : UInt8) :
    times14 (triple b) ^^^ times11 (double b) ^^^ times13 b ^^^ times9 b = 0 := by
  simp only [times14, times11, times13, times9, triple, double_xor, UInt8.xor_assoc,
    UInt8.xor_comm, xor_left_comm, xor_left_cancel, UInt8.xor_self, UInt8.xor_zero]

theorem row_third (c : UInt8) :
    times14 c ^^^ times11 (triple c) ^^^ times13 (double c) ^^^ times9 c = 0 := by
  simp only [times14, times11, times13, times9, triple, double_xor, UInt8.xor_assoc,
    UInt8.xor_comm, xor_left_comm, xor_left_cancel, UInt8.xor_self, UInt8.xor_zero]

theorem row_fourth (d : UInt8) :
    times14 d ^^^ times11 d ^^^ times13 (triple d) ^^^ times9 (double d) = 0 := by
  simp only [times14, times11, times13, times9, triple, double_xor, UInt8.xor_assoc,
    UInt8.xor_comm, xor_left_comm, xor_left_cancel, UInt8.xor_self]

theorem unmix_mix_a (a b c d : UInt8) : (unmix (mix ⟨a, b, c, d⟩)).a = a := by
  calc (unmix (mix ⟨a, b, c, d⟩)).a
    _ = (times14 (double a) ^^^ times11 a ^^^ times13 a ^^^ times9 (triple a)) ^^^
        (times14 (triple b) ^^^ times11 (double b) ^^^ times13 b ^^^ times9 b) ^^^
        (times14 c ^^^ times11 (triple c) ^^^ times13 (double c) ^^^ times9 c) ^^^
        (times14 d ^^^ times11 d ^^^ times13 (triple d) ^^^ times9 (double d)) := by
      simp only [unmix, mix, times9_xor, times11_xor, times13_xor, times14_xor]
      ac_rfl
    _ = a := by
      rw [row_first, row_second, row_third, row_fourth, UInt8.xor_zero, UInt8.xor_zero,
        UInt8.xor_zero]

/-- Unmixing undoes mixing: the other rows are the first one, with the column turned. -/
theorem unmix_mix (c : Column) : unmix (mix c) = c := by
  obtain ⟨a, b, c, d⟩ := c
  have hb : (unmix (mix ⟨a, b, c, d⟩)).b = (unmix (mix ⟨b, c, d, a⟩)).a := by
    simp only [unmix, mix]
    ac_rfl
  have hc : (unmix (mix ⟨a, b, c, d⟩)).c = (unmix (mix ⟨c, d, a, b⟩)).a := by
    simp only [unmix, mix]
    ac_rfl
  have hd : (unmix (mix ⟨a, b, c, d⟩)).d = (unmix (mix ⟨d, a, b, c⟩)).a := by
    simp only [unmix, mix]
    ac_rfl
  rw [unmix_mix_a] at hb hc hd
  calc unmix (mix ⟨a, b, c, d⟩)
    _ = ⟨(unmix (mix ⟨a, b, c, d⟩)).a, (unmix (mix ⟨a, b, c, d⟩)).b,
          (unmix (mix ⟨a, b, c, d⟩)).c, (unmix (mix ⟨a, b, c, d⟩)).d⟩ := rfl
    _ = ⟨a, b, c, d⟩ := by rw [unmix_mix_a, hb, hc, hd]

theorem column_ofColumns (p q r s : Column) :
    column (ofColumns p q r s) 0 = p ∧ column (ofColumns p q r s) 1 = q ∧
      column (ofColumns p q r s) 2 = r ∧ column (ofColumns p q r s) 3 = s :=
  ⟨rfl, rfl, rfl, rfl⟩

theorem ofColumns_column (s : Block) :
    ofColumns (column s 0) (column s 1) (column s 2) (column s 3) = s := by
  ext i h
  interval_cases i <;> rfl

theorem mapColumns_unmix_mapColumns_mix (s : Block) : mapColumns unmix (mapColumns mix s) = s := by
  obtain ⟨h0, h1, h2, h3⟩ := column_ofColumns (mix (column s 0)) (mix (column s 1))
    (mix (column s 2)) (mix (column s 3))
  unfold mapColumns
  rw [h0, h1, h2, h3, unmix_mix, unmix_mix, unmix_mix, unmix_mix, ofColumns_column]

theorem unround_round (s roundKey : Block) : unround roundKey (round s roundKey) = s := by
  rw [unround, round, Block.xor_xor_cancel, mapColumns_unmix_mapColumns_mix, unturn_turn,
    unsubstitute_substitute]

/-! ## The whole cipher -/

theorem foldr_unround_foldl_round (keys : List Block) (s : Block) :
    keys.foldr unround (keys.foldl round s) = s := by
  induction keys generalizing s with
  | nil => rfl
  | cons k keys ih => rw [List.foldr_cons, List.foldl_cons, ih, unround_round]

/-- Decryption undoes encryption. -/
theorem decrypt_encrypt (key b : Block) : decrypt key (encrypt key b) = b := by
  unfold decrypt encrypt
  dsimp only
  rw [Block.xor_xor_cancel, unturn_turn, unsubstitute_substitute, foldr_unround_foldl_round,
    Block.xor_xor_cancel]

/-- Different blocks have different cipher texts. -/
theorem encrypt_injective (key : Block) {b c : Block} (h : encrypt key b = encrypt key c) :
    b = c := by
  rw [← decrypt_encrypt key b, h, decrypt_encrypt]

end Aes

namespace Block

theorem length_chain (key previous : Block) (blocks : List Block) :
    (chain key previous blocks).length = blocks.length := by
  induction blocks generalizing previous with
  | nil => rfl
  | cons b blocks ih => simp only [chain, List.length_cons, ih]

/-- What is encrypted in a chain can be read again. -/
theorem unchain_chain (key previous : Block) (blocks : List Block) :
    unchain key previous (chain key previous blocks) = blocks := by
  induction blocks generalizing previous with
  | nil => rfl
  | cons b blocks ih =>
    simp only [chain, unchain, Aes.decrypt_encrypt, xor_xor_cancel, ih]

/-- Blocks that are joined are split again. -/
theorem split_join (blocks : List Block) : split (join blocks) = (blocks, []) := by
  simpa using split_join_append blocks [] (by decide)

/-! ## Any map of blocks -/

/-- Data that is made of one or more whole blocks. -/
def Whole (data : Bytes) : Prop :=
  data.length ≠ 0 ∧ 16 ∣ data.length

theorem whole_join {blocks : List Block} (hblocks : blocks ≠ []) : Whole (join blocks) := by
  rw [Whole, length_join]
  have := List.length_pos_iff.mpr hblocks
  exact ⟨by omega, Nat.dvd_mul_right 16 _⟩

/-- Bytes that nothing is left of after the whole blocks are the bytes of blocks. -/
theorem exists_join {data : Bytes} (h : 16 ∣ data.length) : ∃ blocks, data = join blocks := by
  have hjoin := join_split data
  have hrest := length_split_lt data
  have hlength := congrArg List.length hjoin
  rw [List.length_append, length_join] at hlength
  have hnil : (split data).2 = [] := List.eq_nil_of_length_eq_zero (by omega)
  rw [hnil, List.append_nil] at hjoin
  exact ⟨_, hjoin.symm⟩

theorem exists_join_of_whole {data : Bytes} (h : Whole data) :
    ∃ blocks, blocks ≠ [] ∧ data = join blocks := by
  obtain ⟨hne, hwhole⟩ := h
  obtain ⟨blocks, rfl⟩ := exists_join hwhole
  refine ⟨blocks, ?_, rfl⟩
  rintro rfl
  exact hne rfl

theorem join_append (a b : List Block) : join (a ++ b) = join a ++ join b := by
  simp [join]

variable {f g : List Block → List Block} {data out : Bytes}

theorem overBlocks_join {blocks : List Block} (hblocks : blocks ≠ []) :
    overBlocks f (join blocks) = .ok (join (f blocks)) := by
  obtain ⟨b, rest, rfl⟩ := List.exists_cons_of_ne_nil hblocks
  rw [overBlocks, split_join]

/-- Data of any other length is refused. -/
theorem overBlocks_of_not_whole (h : ¬ Whole data) : overBlocks f data = .error ⟨data.length⟩ := by
  unfold overBlocks
  split
  case h_2 => rfl
  case h_1 b rest hsplit =>
    have hjoin := join_split data
    rw [hsplit, List.append_nil] at hjoin
    rw [← hjoin] at h
    exact absurd (whole_join (List.cons_ne_nil b rest)) h

theorem overBlocks_eq_ok_iff : overBlocks f data = .ok out ↔
    ∃ blocks, blocks ≠ [] ∧ data = join blocks ∧ out = join (f blocks) := by
  constructor
  · intro h
    by_cases hwhole : Whole data
    · obtain ⟨blocks, hblocks, rfl⟩ := exists_join_of_whole hwhole
      rw [overBlocks_join hblocks] at h
      exact ⟨blocks, hblocks, rfl, (Except.ok.inj h).symm⟩
    · rw [overBlocks_of_not_whole hwhole] at h
      cases h
  · rintro ⟨blocks, hblocks, rfl, rfl⟩
    exact overBlocks_join hblocks

/-- A map of blocks that keeps their number keeps the length of data. -/
theorem length_of_overBlocks (hlength : ∀ blocks, (f blocks).length = blocks.length)
    (h : overBlocks f data = .ok out) : out.length = data.length := by
  obtain ⟨blocks, -, rfl, rfl⟩ := overBlocks_eq_ok_iff.mp h
  rw [length_join, length_join, hlength]

/-- A map of blocks that is undone by another one is undone as a map of data. -/
theorem overBlocks_undone (hlength : ∀ blocks, (f blocks).length = blocks.length)
    (hundone : ∀ blocks, g (f blocks) = blocks) (h : overBlocks f data = .ok out) :
    overBlocks g out = .ok data := by
  obtain ⟨blocks, hblocks, rfl, rfl⟩ := overBlocks_eq_ok_iff.mp h
  have hf : f blocks ≠ [] := by
    rw [← List.length_pos_iff, hlength, List.length_pos_iff]
    exact hblocks
  rw [overBlocks_join hf, hundone]

/-! ## Chains of whole blocks -/

/-- A chain that is made over whole blocks can be read again. -/
theorem decryptChain_encryptChain (key start : Block) {data hidden : Bytes}
    (h : encryptChain key start data = .ok hidden) :
    hidden.length = data.length ∧ decryptChain key start hidden = .ok data :=
  ⟨length_of_overBlocks (length_chain key start) h,
    overBlocks_undone (length_chain key start) (unchain_chain key start) h⟩

end Block
end VehicleGateway
