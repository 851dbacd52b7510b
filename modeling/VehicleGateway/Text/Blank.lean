/-!
# Blank characters

The characters with the Unicode property White_Space, and trimming a text of them at both ends.
-/

namespace VehicleGateway.Blank

/-- Whether a character has the property White_Space. -/
def admits (c : Char) : Bool :=
  let n := c.toNat
  (9 ≤ n && n ≤ 13) || n == 0x20 || n == 0x85 || n == 0xA0 || n == 0x1680
    || (0x2000 ≤ n && n ≤ 0x200A) || n == 0x2028 || n == 0x2029 || n == 0x202F || n == 0x205F
    || n == 0x3000

/-- A text without the blanks at its start and end. -/
def trim (s : String) : String :=
  let front := s.toList.dropWhile admits
  String.ofList (front.reverse.dropWhile admits).reverse

/-- Every blank of ASCII is one. -/
theorem admits_of_isWhitespace {c : Char} (h : c.isWhitespace = true) : admits c = true := by
  simp only [Char.isWhitespace, Bool.or_eq_true, decide_eq_true_eq] at h
  rcases h with ((h | h) | h) | h <;> subst h <;> decide

end VehicleGateway.Blank
