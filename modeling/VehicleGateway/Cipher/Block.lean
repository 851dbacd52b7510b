import VehicleGateway.Bytes

/-!
# Blocks

Sixteen bytes with exclusive or as addition.  `split` takes a byte string apart into blocks and a
rest that is shorter than one; `join` puts blocks together.
-/

namespace VehicleGateway

/-- Sixteen bytes. -/
abbrev Block := Vector UInt8 16

namespace Block

/-- The block of zeros. -/
def zero : Block := Vector.replicate 16 0

/-- The byte at a position; past the end there are zeros. -/
def byte (b : Block) (i : Nat) : UInt8 :=
  if h : i < 16 then b[i] else 0

/-- The sum of two blocks, byte by byte. -/
def add (a b : Block) : Block := Vector.zipWith (· ^^^ ·) a b

instance : XorOp Block := ⟨add⟩

theorem size_toArray_take {data : Bytes} (h : 16 ≤ data.length) :
    (data.take 16).toArray.size = 16 := by
  simp
  omega

/-- The first sixteen bytes. -/
def ofFront (data : Bytes) (h : 16 ≤ data.length) : Block :=
  ⟨(data.take 16).toArray, size_toArray_take h⟩

/-- The block that is exactly these bytes. -/
def ofBytes? (data : Bytes) : Option Block :=
  if h : data.toArray.size = 16 then some ⟨data.toArray, h⟩ else none

/-- The whole blocks of a byte string, and what is left after them. -/
def split (data : Bytes) : List Block × Bytes :=
  if h : 16 ≤ data.length then
    let (blocks, rest) := split (data.drop 16)
    (ofFront data h :: blocks, rest)
  else ([], data)
termination_by data.length
decreasing_by simp; omega

/-- The bytes of blocks. -/
def join (blocks : List Block) : Bytes :=
  blocks.flatMap Vector.toList

theorem length_join (blocks : List Block) : (join blocks).length = 16 * blocks.length := by
  induction blocks with
  | nil => rfl
  | cons b blocks ih =>
    simp only [join, List.flatMap_cons, List.length_append, List.length_cons] at ih ⊢
    simp only [ih, Vector.length_toList]
    omega

theorem ofFront_append (b : Block) (rest : Bytes) (h : 16 ≤ (b.toList ++ rest).length) :
    ofFront (b.toList ++ rest) h = b := by
  apply Vector.toList_inj.mp
  simp [ofFront, Vector.toList]

theorem toList_ofFront (data : Bytes) (h : 16 ≤ data.length) :
    (ofFront data h).toList = data.take 16 := by
  simp [ofFront, Vector.toList]

/-- Blocks that are joined are split again as they were. -/
theorem split_join_append (blocks : List Block) (rest : Bytes) (h : rest.length < 16) :
    split (join blocks ++ rest) = (blocks, rest) := by
  induction blocks with
  | nil =>
    rw [split]
    simp [join]
    omega
  | cons b blocks ih =>
    have hj : join (b :: blocks) ++ rest = b.toList ++ (join blocks ++ rest) := by
      simp [join]
    have hl : 16 ≤ (b.toList ++ (join blocks ++ rest)).length := by simp
    rw [hj, split, dif_pos hl, ofFront_append]
    have hd : (b.toList ++ (join blocks ++ rest)).drop 16 = join blocks ++ rest := by
      rw [List.drop_append_of_le_length (by simp)]
      simp
    rw [hd, ih]

/-- Nothing is lost by splitting. -/
theorem join_split (data : Bytes) : join (split data).1 ++ (split data).2 = data := by
  induction data using split.induct with
  | case1 data h blocks rest he ih =>
    rw [split, dif_pos h]
    simp only [join, List.flatMap_cons, toList_ofFront, List.append_assoc] at ih ⊢
    rw [ih, List.take_append_drop]
  | case2 data h =>
    rw [split, dif_neg h]
    rfl

/-- What is left after the whole blocks is shorter than a block. -/
theorem length_split_lt (data : Bytes) : (split data).2.length < 16 := by
  induction data using split.induct with
  | case1 data h blocks rest he ih =>
    rw [split, dif_pos h]
    exact ih
  | case2 data h =>
    rw [split, dif_neg h]
    exact Nat.lt_of_not_le h

theorem byte_eq_getElem (b : Block) {i : Nat} (h : i < 16) : b.byte i = b[i] := by
  simp [byte, h]

theorem getElem_xor (a b : Block) (i : Nat) (h : i < 16) : (a ^^^ b)[i] = a[i] ^^^ b[i] :=
  Vector.getElem_zipWith h

theorem xor_comm (a b : Block) : a ^^^ b = b ^^^ a := by
  ext i h
  simp only [getElem_xor, UInt8.xor_comm]

theorem xor_assoc (a b c : Block) : a ^^^ b ^^^ c = a ^^^ (b ^^^ c) := by
  ext i h
  simp only [getElem_xor, UInt8.xor_assoc]

theorem xor_self (a : Block) : a ^^^ a = zero := by
  ext i h
  simp [getElem_xor, zero]

theorem xor_zero (a : Block) : a ^^^ zero = a := by
  ext i h
  simp [getElem_xor, zero]

/-- Adding a block twice changes nothing. -/
theorem xor_xor_cancel (a b : Block) : a ^^^ b ^^^ b = a := by
  rw [xor_assoc, xor_self, xor_zero]

end Block
end VehicleGateway
