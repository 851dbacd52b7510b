import VehicleGateway.Proofs.Cipher.Inverse

/-!
# The cipher on columns

To encrypt a known block is long work on vectors: each look into a table walks along a list, and
each look at a byte goes through the maps that made the vector.  Here the same is done on four
columns, with a table that is one number.

* `lookup_eq_entry` says that the digits of the number are the table's bytes.
* Each map of a round has its form on columns, and `Columns.block` takes one to the other.
* `encrypt_eq_columns` puts them together, so that a cipher text can be computed on columns.
-/

namespace VehicleGateway.Aes

/-! ## A table that is one number -/

/-- The number with given digits to base 256, the least significant one first. -/
def ofDigits : List UInt8 → Nat
  | [] => 0
  | b :: rest => b.toNat + 256 * ofDigits rest

theorem digit_ofDigits {digits : List UInt8} {i : Nat} (h : i < digits.length) :
    UInt8.ofNat (ofDigits digits >>> (8 * i)) = digits[i] := by
  induction digits generalizing i with
  | nil => cases h
  | cons b rest ih =>
    have hb := b.toNat_lt
    cases i with
    | zero =>
      apply UInt8.toNat_inj.mp
      simp only [ofDigits, Nat.mul_zero, Nat.shiftRight_zero, UInt8.toNat_ofNat',
        List.getElem_cons_zero]
      omega
    | succ i =>
      have hshift : ofDigits (b :: rest) >>> (8 * (i + 1)) = ofDigits rest >>> (8 * i) := by
        rw [Nat.mul_succ, Nat.add_comm, Nat.shiftRight_add]
        congr 1
        rw [ofDigits, Nat.shiftRight_eq_div_pow]
        omega
      rw [hshift, List.getElem_cons_succ]
      exact ih (Nat.lt_of_succ_lt_succ h)

/-- The substitution of a byte, read off a number. -/
def lookup (b : UInt8) : UInt8 :=
  UInt8.ofNat (ofDigits forwardTable.toList >>> (8 * b.toNat))

theorem lookup_eq_entry (b : UInt8) : lookup b = entry forwardTable b := by
  rw [lookup, digit_ofDigits (by simpa using b.toNat_lt), Vector.getElem_toList]
  rfl

/-! ## The maps of a round -/

/-- Four columns. -/
structure Columns where
  p : Column
  q : Column
  r : Column
  s : Column

/-- The columns of a block. -/
def columns (b : Block) : Columns :=
  ⟨⟨b.byte 0, b.byte 1, b.byte 2, b.byte 3⟩, ⟨b.byte 4, b.byte 5, b.byte 6, b.byte 7⟩,
   ⟨b.byte 8, b.byte 9, b.byte 10, b.byte 11⟩, ⟨b.byte 12, b.byte 13, b.byte 14, b.byte 15⟩⟩

namespace Columns

variable (x y key : Columns)

/-- The block with given columns. -/
def block : Block := ofColumns x.p x.q x.r x.s

theorem block_columns (b : Block) : (columns b).block = b := ofColumns_column b

/-- The sum, column by column. -/
def add : Columns := ⟨x.p.add y.p, x.q.add y.q, x.r.add y.r, x.s.add y.s⟩

theorem block_add : (x.add y).block = x.block ^^^ y.block := by
  apply Vector.ext
  intro i h
  rw [Block.getElem_xor]
  interval_cases i <;> rfl

/-- Substitutes every byte and turns the rows. -/
def turned : Columns :=
  ⟨⟨lookup x.p.a, lookup x.q.b, lookup x.r.c, lookup x.s.d⟩,
   ⟨lookup x.q.a, lookup x.r.b, lookup x.s.c, lookup x.p.d⟩,
   ⟨lookup x.r.a, lookup x.s.b, lookup x.p.c, lookup x.q.d⟩,
   ⟨lookup x.s.a, lookup x.p.b, lookup x.q.c, lookup x.r.d⟩⟩

theorem block_turned : x.turned.block = turn (substitute x.block) := by
  simp only [turned, lookup_eq_entry, turn, substitute, Vector.getElem_map]
  rfl

/-- An inner round. -/
def round : Columns :=
  (Columns.mk (mix x.turned.p) (mix x.turned.q) (mix x.turned.r) (mix x.turned.s)).add key

theorem block_round : (x.round key).block = Aes.round x.block key.block := by
  rw [round, block_add, Aes.round, ← block_turned]
  rfl

/-- The round key after `x`. -/
def next (constant : UInt8) : Columns :=
  let p := x.p.add
    ⟨lookup x.s.b ^^^ constant, lookup x.s.c, lookup x.s.d, lookup x.s.a⟩
  let q := x.q.add p
  let r := x.r.add q
  ⟨p, q, r, x.s.add r⟩

theorem block_next (constant : UInt8) : (x.next constant).block = nextKey constant x.block := by
  simp only [next, lookup_eq_entry]
  rfl

/-! ## The whole cipher -/

/-- The keys of one after the other round. -/
def expand (x : Columns) : List UInt8 → List Columns
  | [] => []
  | c :: rest => x.next c :: (x.next c).expand rest

theorem map_block_expand (constants : List UInt8) :
    (x.expand constants).map block = Aes.expand x.block constants := by
  induction constants generalizing x with
  | nil => rfl
  | cons c rest ih => rw [expand, List.map_cons, ih, block_next, Aes.expand]

theorem block_foldl_round (keys : List Columns) :
    (keys.foldl round x).block = (keys.map block).foldl Aes.round x.block := by
  induction keys generalizing x with
  | nil => rfl
  | cons key keys ih => rw [List.foldl_cons, ih, block_round, List.map_cons, List.foldl_cons]

/-- The cipher text. -/
def encrypt : Columns :=
  let inner := key.expand innerConstants
  (inner.foldl round (x.add key)).turned.add ((inner.getLastD key).next lastConstant)

theorem block_encrypt : (x.encrypt key).block = Aes.encrypt key.block x.block := by
  have hlast : ((key.expand innerConstants).getLastD key).block =
      (Aes.expand key.block innerConstants).getLastD key.block := by
    rw [← map_block_expand]
    rfl
  rw [encrypt, block_add, block_turned, block_foldl_round, map_block_expand, block_add, block_next,
    hlast]
  rfl

end Columns

/-- A block is encrypted as its columns are. -/
theorem encrypt_eq_columns (key b : Block) :
    encrypt key b = ((columns b).encrypt (columns key)).block := by
  rw [Columns.block_encrypt, Columns.block_columns, Columns.block_columns]

end VehicleGateway.Aes
