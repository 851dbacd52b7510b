import VehicleGateway.Checksum

/-!
# What the checksum detects

The remainder of a message and that of the message with some bits flipped differ by the remainder
that the flipped bits leave by themselves: the division is linear.  So an alteration goes unnoticed
only if the flipped bits, as a message of their own, are divided without remainder.

* `foldl_shift_eq_zero_iff`: sixteen more bits bring the remainder to zero exactly if they spell it.
  From left to right this says that no sixteen bits are divided without remainder but zeros; from
  right to left, that a message is, once its checksum stands behind it.
* `odd_foldl_shift`: the division keeps the parity, since the divisor has an even number of terms.
* `remainder_ne_zero`: no message of at most sixteen bytes is divided without remainder whose ones
  stand within sixteen bits in a row, or are three at most.
-/

namespace VehicleGateway.Checksum

/-! ## Linearity -/

/-- What one step of the division subtracts. -/
def share (bit : Bool) : BitVec 16 :=
  if bit then divisor else 0

theorem shift_eq (r : BitVec 16) (bit : Bool) :
    shift r bit = r <<< 1 ^^^ share (r.msb ^^ bit) := by
  unfold shift share
  split <;> simp

theorem share_xor (a b : Bool) : share (a ^^ b) = share a ^^^ share b := by
  cases a <;> cases b <;> rfl

theorem shift_xor (r s : BitVec 16) (a b : Bool) :
    shift (r ^^^ s) (a ^^ b) = shift r a ^^^ shift s b := by
  simp only [shift_eq, BitVec.shiftLeft_xor_distrib, BitVec.msb_xor, share_xor]
  ac_rfl

/-- A one adds the divisor to what a zero makes of the remainder. -/
theorem shift_true (r : BitVec 16) : shift r true = shift r false ^^^ divisor := by
  rw [shift_eq, shift_eq, share_xor, share_xor, BitVec.xor_assoc, BitVec.xor_assoc]
  rfl

theorem foldl_shift_xor {a b : List Bool} (h : a.length = b.length) (r s : BitVec 16) :
    (List.zipWith xor a b).foldl shift (r ^^^ s) = a.foldl shift r ^^^ b.foldl shift s := by
  induction a generalizing b r s with
  | nil =>
    cases b with
    | nil => rfl
    | cons => cases h
  | cons x a ih =>
    cases b with
    | nil => cases h
    | cons y b =>
      simp only [List.zipWith_cons_cons, List.foldl_cons, shift_xor]
      exact ih (Nat.succ.inj h) _ _

/-! ## Division without remainder -/

/-- A step that subtracts nothing moves every bit up by a place. -/
theorem getMsbD_shift {r : BitVec 16} {bit : Bool} (hsame : r.msb = bit) (i : Nat) :
    (shift r bit).getMsbD i = r.getMsbD (i + 1) := by
  subst hsame
  simp [shift, BitVec.getMsbD_shiftLeft]

/-- The divisor shows in the last place. -/
theorem getMsbD_shift_last (r : BitVec 16) (bit : Bool) :
    (shift r bit).getMsbD 15 = (r.msb ^^ bit) := by
  unfold shift
  cases r.msb ^^ bit <;> simp [BitVec.getMsbD_shiftLeft, divisor]

/-- Up to sixteen bits, and zeros behind them, bring the remainder to zero exactly if they spell
it. -/
theorem foldl_shift_eq_zero_iff {w : List Bool} (h : w.length ≤ 16) (r : BitVec 16) :
    w.foldl shift r = 0 ↔ ∀ i < 16, r.getMsbD i = w.getD i false := by
  induction w generalizing r with
  | nil =>
    constructor
    · rintro rfl
      simp
    · intro hr
      exact BitVec.eq_of_getMsbD_eq fun i hi => by simpa using hr i hi
  | cons bit w ih =>
    have hw : w.length ≤ 15 := by
      rw [List.length_cons] at h
      omega
    have hend : w.getD 15 false = false := by
      rw [List.getD_eq_getElem?_getD, List.getElem?_eq_none hw, Option.getD_none]
    rw [List.foldl_cons, ih (by omega)]
    constructor
    · intro hr
      have hlast := hr 15 (by omega)
      rw [getMsbD_shift_last, hend] at hlast
      have hsame : r.msb = bit := by simpa using hlast
      intro i hi
      cases i with
      | zero => simpa [← BitVec.msb_eq_getMsbD_zero] using hsame
      | succ i =>
        rw [← getMsbD_shift hsame]
        exact hr i (by omega)
    · intro hr
      have hsame : r.msb = bit := by simpa [BitVec.msb_eq_getMsbD_zero] using hr 0 (by omega)
      intro i hi
      by_cases hlast : i = 15
      · subst hlast
        rw [getMsbD_shift_last, hend, hsame, Bool.xor_self]
      · rw [getMsbD_shift hsame]
        exact hr (i + 1) (by omega)

/-- Zeros neither bring a remainder to zero nor away from it. -/
theorem foldl_shift_zeros {zeros : List Bool} (hzeros : true ∉ zeros) (r : BitVec 16) :
    zeros.foldl shift r = 0 ↔ r = 0 := by
  induction zeros generalizing r with
  | nil => exact Iff.rfl
  | cons bit zeros ih =>
    obtain ⟨hbit, hrest⟩ := not_or.mp (mt List.mem_cons.mpr hzeros)
    obtain rfl : bit = false := by simpa using Ne.symm hbit
    have hnone := foldl_shift_eq_zero_iff (w := []) (by decide) r
    have hone := foldl_shift_eq_zero_iff (w := [false]) (by decide) r
    have hsame (i : Nat) : [false].getD i false = [].getD i false := by cases i <;> rfl
    simp only [hsame] at hone
    rw [List.foldl_cons, ih hrest]
    exact hone.trans hnone.symm

/-- What stands before the first one, and behind the last, makes no difference to whether there is
a remainder. -/
theorem foldl_shift_between {before after : List Bool} (w : List Bool) (hbefore : true ∉ before)
    (hafter : true ∉ after) :
    (before ++ w ++ after).foldl shift 0 = 0 ↔ w.foldl shift 0 = 0 := by
  rw [List.foldl_append, foldl_shift_zeros hafter, List.foldl_append,
    (foldl_shift_zeros hbefore 0).mpr rfl]

/-! ## Parity -/

/-- Whether an odd number of places is taken by ones. -/
def odd (r : BitVec 16) : Bool :=
  (List.range 16).foldr (fun i p => r.getLsbD i ^^ p) false

theorem odd_xor (r s : BitVec 16) : odd (r ^^^ s) = (odd r ^^ odd s) := by
  have hplaces (places : List Nat) :
      places.foldr (fun i p => (r ^^^ s).getLsbD i ^^ p) false =
        (places.foldr (fun i p => r.getLsbD i ^^ p) false ^^
          places.foldr (fun i p => s.getLsbD i ^^ p) false) := by
    induction places with
    | nil => rfl
    | cons i places ih =>
      rw [List.foldr_cons, List.foldr_cons, List.foldr_cons, ih, BitVec.getLsbD_xor]
      simp only [Bool.xor_assoc, Bool.xor_left_comm]
  exact hplaces _

theorem odd_shiftLeft (r : BitVec 16) : odd (r <<< 1) = (odd r ^^ r.msb) := by
  simp [odd, List.range, List.range.loop, BitVec.msb_eq_getLsbD_last]

theorem odd_share (bit : Bool) : odd (share bit) = bit := by
  cases bit <;> rfl

theorem odd_shift (r : BitVec 16) (bit : Bool) : odd (shift r bit) = (odd r ^^ bit) := by
  rw [shift_eq, odd_xor, odd_shiftLeft, odd_share]
  cases r.msb <;> simp

theorem odd_foldl_shift (l : List Bool) (r : BitVec 16) :
    odd (l.foldl shift r) = (odd r ^^ decide (l.count true % 2 = 1)) := by
  induction l generalizing r with
  | nil => simp
  | cons bit l ih =>
    rw [List.foldl_cons, ih, odd_shift, Bool.xor_assoc]
    congr 1
    cases bit with
    | false => simp
    | true =>
      rcases Nat.mod_two_eq_zero_or_one (l.count true) with h | h <;> simp [h, Nat.add_mod]

/-! ## Two flipped bits -/

/-- The powers of `x` below `x¹²⁷` leave remainders other than that of one. -/
theorem foldl_shift_divisor_ne : ∀ m < 127,
    (List.replicate (m + 1) false).foldl shift divisor ≠ divisor := by
  decide +kernel

/-- Two flipped bits leave a remainder in a message of sixteen bytes. -/
theorem foldl_shift_two_ne_zero {l : List Bool} (hlen : l.length ≤ 128) (htwo : l.count true = 2) :
    l.foldl shift 0 ≠ 0 := by
  obtain ⟨zeros, rest, rfl, hzeros⟩ :=
    List.eq_append_cons_of_mem (List.count_pos_iff.mp (by omega : 0 < l.count true))
  have hone : rest.count true = 1 := by
    rw [List.count_append, List.count_eq_zero.mpr hzeros] at htwo
    simpa using htwo
  obtain ⟨between, after, rfl, hbetween⟩ :=
    List.eq_append_cons_of_mem (List.count_pos_iff.mp (by omega : 0 < rest.count true))
  have hafter : true ∉ after := by
    rw [List.count_append, List.count_eq_zero.mpr hbetween] at hone
    exact List.count_eq_zero.mp (by simpa using hone)
  have hfalse : between = List.replicate between.length false := by
    refine List.eq_replicate_iff.mpr ⟨rfl, fun bit hbit => ?_⟩
    cases bit with
    | false => rfl
    | true => exact absurd hbit hbetween
  have hshort : between.length < 127 := by
    simp only [List.length_append, List.length_cons] at hlen
    omega
  intro hzero
  have hwhole : zeros ++ true :: (between ++ true :: after) =
      zeros ++ (true :: between ++ [true]) ++ after := by simp
  rw [hwhole, foldl_shift_between _ hzeros hafter, List.foldl_append, List.foldl_cons] at hzero
  -- The second one meets what the first has left by then, and takes it away.
  have hmeet : shift (between.foldl shift divisor) true = 0 := hzero
  rw [shift_true] at hmeet
  apply foldl_shift_divisor_ne between.length hshort
  rw [List.replicate_succ', List.foldl_append, ← hfalse]
  exact BitVec.xor_eq_zero_iff.mp hmeet

/-! ## Byte strings -/

theorem length_bits (b : UInt8) : (bits b).length = 8 := by
  simp [bits]

theorem bits_xor (a b : UInt8) : bits (a ^^^ b) = List.zipWith xor (bits a) (bits b) := by
  simp [bits, List.range, List.range.loop]

theorem getElem?_bits (b : UInt8) {i : Nat} (hi : i < 8) :
    (bits b)[i]? = some (b.toBitVec.getMsbD i) := by
  simp [bits, hi]

theorem exists_getLsbD {b : UInt8} (h : b ≠ 0) : ∃ i < 8, b.toBitVec.getLsbD i = true := by
  refine Decidable.byContradiction fun hnone => h (UInt8.toBitVec_inj.mp ?_)
  apply BitVec.eq_of_getLsbD_eq
  intro i hi
  cases hbit : b.toBitVec.getLsbD i with
  | false => simp
  | true => exact absurd ⟨i, hi, hbit⟩ hnone

theorem true_mem_bits {b : UInt8} (h : b ≠ 0) : true ∈ bits b := by
  obtain ⟨i, hi, hbit⟩ := exists_getLsbD h
  have hplace : b.toBitVec.getMsbD (7 - i) = true := by
    rw [BitVec.getMsbD_eq_getLsbD, show 8 - 1 - (7 - i) = i by omega, hbit, Bool.and_true]
    exact decide_eq_true (by omega)
  exact List.mem_of_getElem? ((getElem?_bits b (by omega)).trans (congrArg some hplace))

theorem length_flatMap_bits (data : Bytes) : (data.flatMap bits).length = 8 * data.length := by
  rw [List.length_flatMap, List.map_congr_left fun b _ => length_bits b, List.map_const',
    List.sum_replicate_nat, Nat.mul_comm]

/-- A byte string with the bits flipped that `noise` names. -/
def flipped (data noise : Bytes) : Bytes :=
  List.zipWith (· ^^^ ·) data noise

theorem length_flipped {data noise : Bytes} (h : data.length = noise.length) :
    (flipped data noise).length = data.length := by
  rw [flipped, List.length_zipWith, h, Nat.min_self]

theorem flatMap_bits_flipped {data noise : Bytes} (h : data.length = noise.length) :
    (flipped data noise).flatMap bits =
      List.zipWith xor (data.flatMap bits) (noise.flatMap bits) := by
  unfold flipped
  induction data generalizing noise with
  | nil => rfl
  | cons a data ih =>
    cases noise with
    | nil => cases h
    | cons b noise =>
      rw [List.zipWith_cons_cons, List.flatMap_cons, List.flatMap_cons, List.flatMap_cons,
        ih (Nat.succ.inj h), bits_xor, List.zipWith_append (by rw [length_bits, length_bits])]

/-- Flipped bits add their own remainder. -/
theorem remainder_flipped {data noise : Bytes} (h : data.length = noise.length)
    (start : BitVec 16) :
    remainder start (flipped data noise) = remainder start data ^^^ remainder 0 noise := by
  have hlength : (data.flatMap bits).length = (noise.flatMap bits).length := by
    rw [length_flatMap_bits, length_flatMap_bits, h]
  have hxor := foldl_shift_xor hlength start 0
  have hstart : start ^^^ 0 = start := BitVec.xor_zero
  rw [hstart] at hxor
  rw [remainder, flatMap_bits_flipped h]
  exact hxor

theorem toBitVec_halfBig (a b : UInt8) :
    (Bytes.halfBig a b).toBitVec = a.toBitVec ++ b.toBitVec := by
  have hb := b.toNat_lt
  apply BitVec.eq_of_toNat_eq
  rw [BitVec.toNat_append, UInt8.toNat_toBitVec, UInt8.toNat_toBitVec,
    ← Nat.shiftLeft_add_eq_or_of_lt hb]
  simp only [Bytes.halfBig, UInt16.toNat_toBitVec, UInt16.toNat_ofNat', Nat.shiftLeft_eq]
  have := a.toNat_lt
  omega

/-- Two more bytes bring the remainder to zero exactly if they spell it. -/
theorem remainder_pair_eq_zero_iff (r : BitVec 16) (a b : UInt8) :
    remainder r [a, b] = 0 ↔ r = (Bytes.halfBig a b).toBitVec := by
  have hlen : ([a, b].flatMap bits).length = 16 := length_flatMap_bits _
  rw [remainder, foldl_shift_eq_zero_iff (Nat.le_of_eq hlen), toBitVec_halfBig]
  have hbits (i : Nat) (hi : i < 16) :
      ([a, b].flatMap bits).getD i false = (a.toBitVec ++ b.toBitVec).getMsbD i := by
    simp only [List.flatMap_cons, List.flatMap_nil, List.append_nil, List.getD_eq_getElem?_getD,
      List.getElem?_append, length_bits, BitVec.getMsbD_append]
    split
    case isTrue hleft =>
      rw [getElem?_bits a hleft, Option.getD_some, if_neg (Nat.not_le.mpr hleft)]
    case isFalse hright =>
      rw [getElem?_bits b (by omega), Option.getD_some, if_pos (Nat.not_lt.mp hright)]
  constructor
  · intro hr
    exact BitVec.eq_of_getMsbD_eq fun i hi => (hr i hi).trans (hbits i hi)
  · rintro rfl i hi
    exact (hbits i hi).symm

/-! ## What is detected -/

/-- No two ones of a bit string are sixteen places or more apart. -/
def Confined (l : List Bool) : Prop :=
  ∀ i j, l[i]? = some true → l[j]? = some true → j < i + 16

theorem confined_iff (l : List Bool) : Confined l ↔
    ∀ i < l.length, ∀ j < l.length, l[i]? = some true → l[j]? = some true → j < i + 16 := by
  constructor
  · exact fun h i _ j _ => h i j
  · intro h i j hi hj
    exact h i (List.getElem?_eq_some_iff.mp hi).1 j (List.getElem?_eq_some_iff.mp hj).1 hi hj

instance (l : List Bool) : Decidable (Confined l) :=
  decidable_of_iff _ (confined_iff l).symm

/-- Ones within sixteen places in a row leave a remainder. -/
theorem foldl_shift_confined_ne_zero {l : List Bool} (hone : true ∈ l) (hconfined : Confined l) :
    l.foldl shift 0 ≠ 0 := by
  obtain ⟨zeros, rest, rfl, hzeros⟩ := List.eq_append_cons_of_mem hone
  have hafter : true ∉ rest.drop 15 := by
    intro hmem
    obtain ⟨i, hi⟩ := List.mem_iff_getElem?.mp hmem
    have hfirst : (zeros ++ true :: rest)[zeros.length]? = some true := by simp
    have hlater : (zeros ++ true :: rest)[zeros.length + (i + 16)]? = some true := by
      rw [List.getElem?_append_right (Nat.le_add_right _ _), Nat.add_sub_cancel_left,
        List.getElem?_cons_succ, Nat.add_comm]
      simpa using hi
    have := hconfined _ _ hfirst hlater
    omega
  have hshort : (true :: rest.take 15).length ≤ 16 := by
    rw [List.length_cons, List.length_take]
    omega
  intro hzero
  have hwhole : zeros ++ true :: rest = zeros ++ (true :: rest.take 15) ++ rest.drop 15 := by simp
  rw [hwhole, foldl_shift_between _ hzeros hafter, foldl_shift_eq_zero_iff hshort] at hzero
  have hfirst := hzero 0 (by omega)
  simp at hfirst

/-- At most three ones leave a remainder in a message of sixteen bytes. -/
theorem foldl_shift_few_ne_zero {l : List Bool} (hlen : l.length ≤ 128) (hone : true ∈ l)
    (hfew : l.count true ≤ 3) : l.foldl shift 0 ≠ 0 := by
  have hpos : 0 < l.count true := List.count_pos_iff.mpr hone
  by_cases htwo : l.count true = 2
  · exact foldl_shift_two_ne_zero hlen htwo
  · intro hzero
    -- One and three are odd, and no odd number of ones is divided without remainder.
    have hodd := odd_foldl_shift l 0
    rw [hzero] at hodd
    have hparity : l.count true % 2 = 1 := by omega
    simp [hparity] at hodd

/-- The bits of a byte string, each byte from its least significant bit. -/
def ascending (data : Bytes) : List Bool :=
  data.flatMap fun b => (bits b).reverse

theorem getElem?_ascending (data : Bytes) (k : Nat) {i : Nat} (hi : i < 8) :
    (ascending data)[8 * k + i]? = data[k]?.map (·.toBitVec.getLsbD i) := by
  unfold ascending
  induction data generalizing k with
  | nil => simp
  | cons b data ih =>
    rw [List.flatMap_cons, List.getElem?_append, List.length_reverse, length_bits]
    cases k with
    | zero =>
      rw [if_pos (by omega), List.getElem?_reverse (by rw [length_bits]; omega), length_bits,
        getElem?_bits b (by omega)]
      have hplace : 8 - 1 - (8 - 1 - i) = i := by omega
      have hinside : 8 - 1 - i < 8 := by omega
      simp [BitVec.getMsbD_eq_getLsbD, hplace, hinside]
    | succ k =>
      rw [if_neg (by omega), show 8 * (k + 1) + i - 8 = 8 * k + i by omega]
      exact ih k

/-- The remainder of a byte reaches into its second half at or above the lowest bit of the byte. -/
theorem remainder_byte_reaches : ∀ n < 256, n ≠ 0 → ∃ t < 8, ∃ u < 8, t ≤ u ∧
    (UInt8.ofNat n).toBitVec.getLsbD t = true ∧ (remainder 0 [UInt8.ofNat n]).getLsbD u = true := by
  decide +kernel

theorem remainder_zeros {zeros : Bytes} (hzeros : ∀ b ∈ zeros, b = 0) (r : BitVec 16) :
    remainder r zeros = 0 ↔ r = 0 := by
  apply foldl_shift_zeros
  intro hmem
  obtain ⟨b, hb, hbit⟩ := List.mem_flatMap.mp hmem
  rw [hzeros b hb] at hbit
  exact absurd hbit (by decide)

/-- A byte string of which only the first two bytes are not zero. -/
theorem remainder_of_short {rest : Bytes} (hrest : ∀ k, 2 ≤ k → ∀ b, rest[k]? = some b → b = 0)
    {r : BitVec 16} (hzero : remainder r rest = 0) :
    r = (Bytes.halfBig (rest.getD 0 0) (rest.getD 1 0)).toBitVec := by
  rw [← remainder_pair_eq_zero_iff]
  match rest with
  | [] =>
    obtain rfl : r = 0 := hzero
    exact (remainder_zeros (by simp) 0).mpr rfl
  | [b] =>
    have hpair := remainder_append r [b] [0]
    rw [hzero, (remainder_zeros (by simp) 0).mpr rfl] at hpair
    exact hpair
  | b :: c :: more =>
    have hmore : ∀ x ∈ more, x = 0 := by
      intro x hx
      obtain ⟨k, hk⟩ := List.mem_iff_getElem?.mp hx
      exact hrest (k + 2) (by omega) x hk
    have hwhole := remainder_append r [b, c] more
    rw [List.cons_append, List.cons_append, List.nil_append, hzero] at hwhole
    exact (remainder_zeros hmore _).mp hwhole.symm

/-- Ones within sixteen places in a row leave a remainder also where every byte is counted from its
least significant bit. -/
theorem remainder_ascending_ne_zero {noise : Bytes} (hsome : ∃ b ∈ noise, b ≠ 0)
    (hconfined : Confined (ascending noise)) : remainder 0 noise ≠ 0 := by
  induction noise with
  | nil => simp at hsome
  | cons a rest ih =>
    have hsplit : remainder 0 (a :: rest) = remainder (remainder 0 [a]) rest :=
      remainder_append 0 [a] rest
    rw [hsplit]
    by_cases ha : a = 0
    · rw [(remainder_zeros (by simpa using ha) 0).mpr rfl]
      apply ih
      · simpa [ha] using hsome
      · intro i j hi hj
        have hlater (k : Nat) : (ascending (a :: rest))[8 + k]? = (ascending rest)[k]? := by
          unfold ascending
          rw [List.flatMap_cons, List.getElem?_append_right (by simp [length_bits])]
          simp [length_bits]
        have := hconfined (8 + i) (8 + j) ((hlater i).trans hi) ((hlater j).trans hj)
        omega
    · intro hzero
      obtain ⟨t, ht, u, hu, htu, hlow, hreach⟩ :=
        remainder_byte_reaches a.toNat a.toNat_lt fun h => ha (UInt8.toNat_inj.mp h)
      rw [UInt8.ofNat_toNat] at hlow hreach
      have hfirst : (ascending (a :: rest))[t]? = some true := by
        have := getElem?_ascending (a :: rest) 0 ht
        simpa [hlow] using this
      -- So no byte behind the first three has a one, and the third has none from place `t` on.
      have hnear {k v : Nat} {b : UInt8} (hb : rest[k]? = some b) (hv : v < 8)
          (hbit : b.toBitVec.getLsbD v = true) : 8 * (k + 1) + v < t + 16 := by
        apply hconfined t _ hfirst
        rw [getElem?_ascending (a :: rest) (k + 1) hv, List.getElem?_cons_succ, hb]
        exact congrArg some hbit
      have hshort (k : Nat) (hk : 2 ≤ k) (b : UInt8) (hb : rest[k]? = some b) : b = 0 := by
        by_cases hne : b = 0
        · exact hne
        · obtain ⟨v, hv, hbit⟩ := exists_getLsbD hne
          have := hnear hb hv hbit
          omega
      rw [remainder_of_short hshort hzero, toBitVec_halfBig, BitVec.getLsbD_append, if_pos hu,
        List.getD_eq_getElem?_getD] at hreach
      cases hthird : rest[1]? with
      | none => simp [hthird] at hreach
      | some c =>
        rw [hthird, Option.getD_some] at hreach
        have := hnear hthird hu hreach
        omega

/-- A byte string with so few ones, or with its ones so close together, that they leave a
remainder.  The bits of a byte may be counted from its most significant one or from its least. -/
inductive Slight (noise : Bytes) : Prop where
  | few (hcount : (noise.flatMap bits).count true ≤ 3)
  | descending (hconfined : Confined (noise.flatMap bits))
  | ascending (hconfined : Confined (ascending noise))

theorem remainder_ne_zero {noise : Bytes} (hlen : noise.length ≤ 16) (hsome : ∃ b ∈ noise, b ≠ 0)
    (hslight : Slight noise) : remainder 0 noise ≠ 0 := by
  obtain ⟨b, hb, hne⟩ := hsome
  have hone : true ∈ noise.flatMap bits := List.mem_flatMap.mpr ⟨b, hb, true_mem_bits hne⟩
  cases hslight with
  | few hcount =>
    refine foldl_shift_few_ne_zero ?_ hone hcount
    rw [length_flatMap_bits]
    omega
  | descending hconfined => exact foldl_shift_confined_ne_zero hone hconfined
  | ascending hconfined => exact remainder_ascending_ne_zero ⟨b, hb, hne⟩ hconfined

end VehicleGateway.Checksum
