import VehicleGateway.Message.Identifier

/-!
# Firmware headers

The record beside an image: what to do with it (always one, a full update), its version, its length,
the ECU it is for, and the authentication tag of the image.
-/

namespace VehicleGateway

/-- The header record of an image. -/
structure FirmwareHeader where
  opcode : UInt8
  version : UInt32
  /-- The length of the image in bytes. -/
  length : UInt32
  target : EcuNo
  tag : Vector UInt8 16
  deriving DecidableEq

/-- Why bytes are no header. -/
inductive HeaderFault where
  | length (n : Nat)
  | opcode (value : UInt8)
  deriving DecidableEq, Repr

/-- The wording of a fault. -/
def HeaderFault.message : HeaderFault → String
  | .length n => s!"Header length {n}, expected 26"
  | .opcode v => "Unsupported header opcode 0x" ++ Hex.ofByte v

namespace FirmwareHeader

/-- The length of a written header. -/
def writtenLength : Nat := 26

/-- The opcode of a full update. -/
def fullUpdate : UInt8 := 1

/-- The written form of a header; numbers have their most significant byte first. -/
def encode (h : FirmwareHeader) : Bytes :=
  h.opcode :: Bytes.ofWordBig h.version ++ Bytes.ofWordBig h.length ++ h.target :: h.tag.toList

/-- The header of which bytes are the written form. -/
def decode (data : Bytes) : Except HeaderFault FirmwareHeader :=
  match data with
  | opcode :: v3 :: v2 :: v1 :: v0 :: l3 :: l2 :: l1 :: l0 :: target :: rest =>
    if h : rest.toArray.size = 16 then
      if opcode = fullUpdate then
        .ok { opcode, version := Bytes.wordBig v3 v2 v1 v0, length := Bytes.wordBig l3 l2 l1 l0,
              target, tag := ⟨rest.toArray, h⟩ }
      else .error (.opcode opcode)
    else .error (.length data.length)
  | _ => .error (.length data.length)

theorem length_encode (h : FirmwareHeader) : h.encode.length = writtenLength := by
  simp [encode, Bytes.length_ofWordBig, writtenLength]

/-- The written form of a header of a full update is read back. -/
theorem decode_encode (h : FirmwareHeader) (hopcode : h.opcode = fullUpdate) :
    decode h.encode = .ok h := by
  obtain ⟨opcode, version, length, target, tag⟩ := h
  dsimp only at hopcode
  simp only [decode, encode, Bytes.ofWordBig, List.cons_append, List.nil_append,
    Bytes.wordBig_bytes, hopcode]
  simp [Vector.toArray_toList]

/-- Bytes that are a header are its written form, and it is one of a full update. -/
theorem encode_of_decode {data : Bytes} {h : FirmwareHeader} (hdecode : decode data = .ok h) :
    data = h.encode ∧ h.opcode = fullUpdate := by
  unfold decode at hdecode
  split at hdecode
  case h_2 => cases hdecode
  case h_1 =>
    split at hdecode
    case isFalse => cases hdecode
    split at hdecode
    case isFalse => cases hdecode
    case isTrue hopcode =>
      obtain rfl := Except.ok.inj hdecode
      simp [encode, Bytes.ofWordBig_wordBig, hopcode]

end FirmwareHeader
end VehicleGateway
