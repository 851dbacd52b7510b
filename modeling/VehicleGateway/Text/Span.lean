/-!
# The text of a length of time

A span is shown in the largest unit of which it holds at least one, with as many decimals as it
needs and no trailing zeros: `60s`, `1.5s`, `100.5ms`, `999µs`, `0ns`.
-/

namespace VehicleGateway.Span

/-- The digits of `n` on `width` places, without the zeros at the end. -/
def fraction (width n : Nat) : String :=
  let digits := (Nat.toDigits 10 n)
  let padded := List.replicate (width - digits.length) '0' ++ digits
  String.ofList (padded.reverse.dropWhile (· = '0')).reverse

/-- `n` in units of `size`, which is one followed by `places` zeros, with the unit's name. -/
def inUnits (n size places : Nat) (unit : String) : String :=
  let whole := toString (n / size)
  let part := fraction places (n % size)
  whole ++ (if part = "" then "" else "." ++ part) ++ unit

/-- The text of a span given in nanoseconds. -/
def ofNanos (n : Nat) : String :=
  if 1000000000 ≤ n then inUnits n 1000000000 9 "s"
  else if 1000000 ≤ n then inUnits n 1000000 6 "ms"
  else if 1000 ≤ n then inUnits n 1000 3 "µs"
  else inUnits n 1 0 "ns"

/-- The text of a span given in microseconds. -/
def ofMicros (n : Nat) : String :=
  ofNanos (n * 1000)

end VehicleGateway.Span
