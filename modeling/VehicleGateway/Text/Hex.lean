import VehicleGateway.Bytes
import VehicleGateway.Text.Quoted

/-!
# Hexadecimal text

Two digits to a byte.  Reading accepts both cases of letters; its faults name the first bad
character by its position in the UTF-8 form of the text, counted in bytes.
-/

namespace VehicleGateway.Hex

/-- The digit of a value below sixteen, in lower case. -/
def lowerDigit (n : Nat) : Char :=
  if n < 10 then Char.ofNat (48 + n) else Char.ofNat (87 + n)

/-- The digit of a value below sixteen, in upper case. -/
def upperDigit (n : Nat) : Char :=
  if n < 10 then Char.ofNat (48 + n) else Char.ofNat (55 + n)

/-- The digits of a byte string in lower case, without separators. -/
def ofBytes (data : Bytes) : String :=
  String.ofList (data.flatMap fun b => [lowerDigit (b.toNat / 16), lowerDigit (b.toNat % 16)])

/-- The two upper case digits of a byte. -/
def ofByte (b : UInt8) : String :=
  String.ofList [upperDigit (b.toNat / 16), upperDigit (b.toNat % 16)]

/-- The eight upper case digits of a word. -/
def ofWord (w : UInt32) : String :=
  String.join ((Bytes.ofWordBig w).map ofByte)

/-- A byte string as a bracketed list of two-digit bytes: `[00, A1]`. -/
def listing (data : Bytes) : String :=
  "[" ++ ", ".intercalate (data.map ofByte) ++ "]"

/-- Why a text is no byte string. -/
inductive Fault where
  | oddLength
  | badDigit (byte : UInt8) (position : Nat)
  deriving DecidableEq, Repr

/-- The wording of a fault.  A byte outside ASCII is shown as the Latin-1 character of its code. -/
def Fault.message : Fault → String
  | .oddLength => "Odd number of digits"
  | .badDigit b i =>
    "Invalid character " ++ Quoted.char (Char.ofNat b.toNat) ++ " at position " ++ toString i

/-- The value of a hexadecimal digit given as an ASCII code. -/
def value? (b : UInt8) : Option UInt8 :=
  if 48 ≤ b ∧ b ≤ 57 then some (b - 48)
  else if 65 ≤ b ∧ b ≤ 70 then some (b - 55)
  else if 97 ≤ b ∧ b ≤ 102 then some (b - 87)
  else none

/-- Reads digit pairs; `i` is the position of the first digit. -/
def decodePairs (i : Nat) : List UInt8 → Except Fault Bytes
  | hi :: lo :: rest =>
    -- Of two bad digits the first is reported.
    match value? hi, value? lo with
    | none, _ => .error (.badDigit hi i)
    | _, none => .error (.badDigit lo (i + 1))
    | some h, some l => (decodePairs (i + 2) rest).map ((h * 16 + l) :: ·)
  | _ => .ok []

/-- The bytes a text spells.  An odd number of digits is reported before any bad digit. -/
def decode (text : String) : Except Fault Bytes :=
  let codes := text.toUTF8.toList
  if codes.length % 2 = 1 then .error .oddLength else decodePairs 0 codes

end VehicleGateway.Hex
