/-!
# Bytes and words

Byte strings are lists of bytes.  A 32-bit word has two written forms, most or least significant
byte first; both are given arithmetically, so that reading back is division and remainder.
-/

namespace VehicleGateway

/-- A byte string. -/
abbrev Bytes := List UInt8

namespace Bytes

/-- The four bytes of a word, most significant first. -/
def ofWordBig (w : UInt32) : Bytes :=
  [.ofNat (w.toNat / 0x1000000), .ofNat (w.toNat / 0x10000), .ofNat (w.toNat / 0x100),
    .ofNat w.toNat]

/-- The four bytes of a word, least significant first. -/
def ofWordLittle (w : UInt32) : Bytes :=
  [.ofNat w.toNat, .ofNat (w.toNat / 0x100), .ofNat (w.toNat / 0x10000),
    .ofNat (w.toNat / 0x1000000)]

/-- The word whose bytes are `a`, `b`, `c`, `d`, most significant first. -/
def wordBig (a b c d : UInt8) : UInt32 :=
  .ofNat (((a.toNat * 256 + b.toNat) * 256 + c.toNat) * 256 + d.toNat)

/-- The word whose bytes are `a`, `b`, `c`, `d`, least significant first. -/
def wordLittle (a b c d : UInt8) : UInt32 :=
  wordBig d c b a

/-- The two bytes of a half word, most significant first. -/
def ofHalfBig (h : UInt16) : Bytes :=
  [.ofNat (h.toNat / 0x100), .ofNat h.toNat]

/-- The half word whose bytes are `a` and `b`, most significant first. -/
def halfBig (a b : UInt8) : UInt16 :=
  .ofNat (a.toNat * 256 + b.toNat)

/-- At most `n` bytes from position `start` on; past the end there are none. -/
def window (data : Bytes) (start n : Nat) : Bytes :=
  (data.drop start).take n

/-- `data` continued with zeros to `n` bytes. -/
def padTo (data : Bytes) (n : Nat) : Bytes :=
  data ++ List.replicate (n - data.length) 0

theorem length_ofWordBig (w : UInt32) : (ofWordBig w).length = 4 := rfl

theorem length_ofWordLittle (w : UInt32) : (ofWordLittle w).length = 4 := rfl

/-- The bytes of a word spell it. -/
theorem wordBig_bytes (w : UInt32) :
    wordBig (.ofNat (w.toNat / 0x1000000)) (.ofNat (w.toNat / 0x10000)) (.ofNat (w.toNat / 0x100))
      (.ofNat w.toNat) = w := by
  apply UInt32.toNat_inj.mp
  have := w.toNat_lt
  simp only [wordBig, UInt8.toNat_ofNat', UInt32.toNat_ofNat']
  omega

/-- Four bytes are those of the word that they spell. -/
theorem ofWordBig_wordBig (a b c d : UInt8) : ofWordBig (wordBig a b c d) = [a, b, c, d] := by
  have := a.toNat_lt
  have := b.toNat_lt
  have := c.toNat_lt
  have := d.toNat_lt
  simp only [ofWordBig, wordBig, UInt32.toNat_ofNat', List.cons.injEq, and_true,
    ← UInt8.toNat_inj, UInt8.toNat_ofNat']
  omega

theorem halfBig_bytes (h : UInt16) :
    halfBig (.ofNat (h.toNat / 0x100)) (.ofNat h.toNat) = h := by
  apply UInt16.toNat_inj.mp
  have := h.toNat_lt
  simp only [halfBig, UInt8.toNat_ofNat', UInt16.toNat_ofNat']
  omega

theorem length_padTo {data : Bytes} {n : Nat} (h : data.length ≤ n) :
    (padTo data n).length = n := by
  simp [padTo]
  omega

end Bytes
end VehicleGateway
