import VehicleGateway.Text.Visible

/-!
# Quoted text

Characters and strings between quotation marks, as diagnostics show them.  The mark itself, the
backslash and the common control characters have short escapes; every other character that
`Visible` does not admit is written by its code.
-/

namespace VehicleGateway.Quoted

/-- The digits of a code point in lower case hexadecimal, without leading zeros. -/
def code (c : Char) : String :=
  String.ofList (Nat.toDigits 16 c.toNat)

/-- One character between marks `mark`. -/
def escape (mark : Char) (c : Char) : String :=
  if c = mark ∨ c = '\\' then String.ofList ['\\', c]
  else if c = '\x00' then "\\0"
  else if c = '\t' then "\\t"
  else if c = '\n' then "\\n"
  else if c = '\r' then "\\r"
  else if Visible.admits c then String.ofList [c]
  else "\\u\x7b" ++ code c ++ "\x7d"

/-- A character between single quotation marks. -/
def char (c : Char) : String :=
  "'" ++ escape '\'' c ++ "'"

/-- A string between double quotation marks. -/
def string (s : String) : String :=
  "\"" ++ String.join (s.toList.map (escape '"')) ++ "\""

/-- A list of strings, each quoted: `["a", "b"]`. -/
def list (items : List String) : String :=
  "[" ++ ", ".intercalate (items.map string) ++ "]"

end VehicleGateway.Quoted
