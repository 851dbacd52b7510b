import VehicleGateway.Cipher.Block
import VehicleGateway.Cipher.Substitution

/-!
# AES with keys of 128 bits

A state is a block, read as four columns of four bytes.  A round substitutes the bytes, turns the
rows, mixes the columns and adds a round key; the last round leaves the columns as they are.
-/

namespace VehicleGateway.Aes

/-- Four bytes that stand below each other in a state. -/
structure Column where
  a : UInt8
  b : UInt8
  c : UInt8
  d : UInt8
  deriving DecidableEq

/-- A column of a state. -/
def column (s : Block) (i : Fin 4) : Column :=
  ⟨s[4 * i.val], s[4 * i.val + 1], s[4 * i.val + 2], s[4 * i.val + 3]⟩

/-- The state with given columns. -/
def ofColumns (p q r s : Column) : Block :=
  #v[p.a, p.b, p.c, p.d, q.a, q.b, q.c, q.d, r.a, r.b, r.c, r.d, s.a, s.b, s.c, s.d]

/-- Maps every column of a state. -/
def mapColumns (f : Column → Column) (s : Block) : Block :=
  ofColumns (f (column s 0)) (f (column s 1)) (f (column s 2)) (f (column s 3))

/-- Twice a byte in the field of 256 elements. -/
def double (x : UInt8) : UInt8 :=
  if x < 128 then x <<< 1 else (x <<< 1) ^^^ 0x1B

/-- A byte times three. -/
def triple (x : UInt8) : UInt8 := double x ^^^ x

/-- A byte times nine. -/
def times9 (x : UInt8) : UInt8 := double (double (double x)) ^^^ x

/-- A byte times eleven. -/
def times11 (x : UInt8) : UInt8 := double (double (double x) ^^^ x) ^^^ x

/-- A byte times thirteen. -/
def times13 (x : UInt8) : UInt8 := double (double (double x ^^^ x)) ^^^ x

/-- A byte times fourteen. -/
def times14 (x : UInt8) : UInt8 := double (double (double x ^^^ x) ^^^ x)

/-- The product of a column with the circulant matrix of 2, 3, 1, 1. -/
def mix (c : Column) : Column :=
  ⟨double c.a ^^^ triple c.b ^^^ c.c ^^^ c.d, c.a ^^^ double c.b ^^^ triple c.c ^^^ c.d,
   c.a ^^^ c.b ^^^ double c.c ^^^ triple c.d, triple c.a ^^^ c.b ^^^ c.c ^^^ double c.d⟩

/-- The product of a column with the circulant matrix of 14, 11, 13, 9. -/
def unmix (c : Column) : Column :=
  ⟨times14 c.a ^^^ times11 c.b ^^^ times13 c.c ^^^ times9 c.d,
   times9 c.a ^^^ times14 c.b ^^^ times11 c.c ^^^ times13 c.d,
   times13 c.a ^^^ times9 c.b ^^^ times14 c.c ^^^ times11 c.d,
   times11 c.a ^^^ times13 c.b ^^^ times9 c.c ^^^ times14 c.d⟩

/-- Substitutes every byte. -/
def substitute (s : Block) : Block := s.map (entry forwardTable)

/-- Undoes `substitute`. -/
def unsubstitute (s : Block) : Block := s.map (entry backwardTable)

/-- Turns the row below by one place to the left, the next by two and the last by three. -/
def turn (s : Block) : Block :=
  #v[s[0], s[5], s[10], s[15], s[4], s[9], s[14], s[3],
     s[8], s[13], s[2], s[7], s[12], s[1], s[6], s[11]]

/-- Undoes `turn`. -/
def unturn (s : Block) : Block :=
  #v[s[0], s[13], s[10], s[7], s[4], s[1], s[14], s[11],
     s[8], s[5], s[2], s[15], s[12], s[9], s[6], s[3]]

/-- The sum of two columns. -/
def Column.add (p q : Column) : Column :=
  ⟨p.a ^^^ q.a, p.b ^^^ q.b, p.c ^^^ q.c, p.d ^^^ q.d⟩

/-- The round key after `k`, with the round's constant. -/
def nextKey (constant : UInt8) (k : Block) : Block :=
  let last := column k 3
  let s := entry forwardTable
  let p := (column k 0).add ⟨s last.b ^^^ constant, s last.c, s last.d, s last.a⟩
  let q := (column k 1).add p
  let r := (column k 2).add q
  ofColumns p q r (last.add r)

/-- The keys of one after the other round, with the constants given. -/
def expand (k : Block) : List UInt8 → List Block
  | [] => []
  | c :: rest => nextKey c k :: expand (nextKey c k) rest

/-- The constants of the inner rounds: the powers of two in the field. -/
def innerConstants : List UInt8 := [0x01, 0x02, 0x04, 0x08, 0x10, 0x20, 0x40, 0x80, 0x1B]

/-- The constant of the last round. -/
def lastConstant : UInt8 := 0x36

/-- An inner round. -/
def round (s roundKey : Block) : Block :=
  mapColumns mix (turn (substitute s)) ^^^ roundKey

/-- Undoes an inner round. -/
def unround (roundKey s : Block) : Block :=
  unsubstitute (unturn (mapColumns unmix (s ^^^ roundKey)))

/-- The keys of the inner rounds, and that of the last. -/
def schedule (key : Block) : List Block × Block :=
  let inner := expand key innerConstants
  (inner, nextKey lastConstant (inner.getLastD key))

/-- The cipher text of a block. -/
def encrypt (key b : Block) : Block :=
  let (inner, last) := schedule key
  turn (substitute (inner.foldl round (b ^^^ key))) ^^^ last

/-- The plain text of a block. -/
def decrypt (key c : Block) : Block :=
  let (inner, last) := schedule key
  inner.foldr unround (unsubstitute (unturn (c ^^^ last))) ^^^ key

end VehicleGateway.Aes
