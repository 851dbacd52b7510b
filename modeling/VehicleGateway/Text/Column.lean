/-!
# Columns of text
-/

namespace VehicleGateway.Column

/-- A text continued with blanks to `width` characters; a longer one is kept whole. -/
def left (width : Nat) (s : String) : String :=
  s ++ String.ofList (List.replicate (width - s.length) ' ')

/-- A number on at least `width` places, continued to the left with zeros. -/
def zeros (width n : Nat) : String :=
  let digits := toString n
  String.ofList (List.replicate (width - digits.length) '0') ++ digits

end VehicleGateway.Column
