import VehicleGateway.Bytes

/-!
# The checksum CRC-16/IBM-3740

The remainder of the message polynomial by `x¹⁶ + x¹² + x⁵ + 1`, most significant bit first,
started from all ones and not inverted at the end.
-/

namespace VehicleGateway.Checksum

/-- The divisor without its leading term. -/
def divisor : BitVec 16 := 0x1021

/-- One step of the division: the remainder moves up by a place and takes in a bit. -/
def shift (r : BitVec 16) (bit : Bool) : BitVec 16 :=
  if (r.msb ^^ bit) then (r <<< 1) ^^^ divisor else r <<< 1

/-- The bits of a byte, most significant first. -/
def bits (b : UInt8) : List Bool :=
  (List.range 8).map b.toBitVec.getMsbD

/-- The remainder after a byte string, from a given start. -/
def remainder (start : BitVec 16) (data : Bytes) : BitVec 16 :=
  (data.flatMap bits).foldl shift start

/-- The checksum of a byte string. -/
def ofBytes (data : Bytes) : UInt16 :=
  ⟨remainder 0xFFFF data⟩

/-- The check value that the algorithm's catalogue entry gives for the digits one to nine. -/
theorem ofBytes_digits :
    ofBytes [0x31, 0x32, 0x33, 0x34, 0x35, 0x36, 0x37, 0x38, 0x39] = 0x29B1 := by
  decide +kernel

theorem remainder_append (start : BitVec 16) (a b : Bytes) :
    remainder start (a ++ b) = remainder (remainder start a) b := by
  simp [remainder]

end VehicleGateway.Checksum
