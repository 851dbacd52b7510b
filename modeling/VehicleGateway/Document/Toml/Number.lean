import VehicleGateway.Document.Toml.Text

/-!
# Numbers, dates and times of TOML
-/

namespace VehicleGateway.Toml

/-- The number that decimal digits spell. -/
def decimal (digits : List Char) : Nat :=
  digits.foldl (fun n c => n * 10 + (c.toNat - 48)) 0

/-- The digits after the first; an underscore may stand between two of them. -/
def moreDigits (ok : Char → Bool) : Reader (List Char)
  | [] => some ([], [])
  | '_' :: c :: rest =>
    if ok c then (moreDigits ok rest).map fun (ds, r) => (c :: ds, r) else none
  | c :: rest =>
    if c = '_' then none
    else if ok c then (moreDigits ok rest).map fun (ds, r) => (c :: ds, r)
    else some ([], c :: rest)

/-- One or more digits. -/
def digits (ok : Char → Bool) : Reader (List Char)
  | c :: rest => if ok c then (moreDigits ok rest).map fun (ds, r) => (c :: ds, r) else none
  | [] => none

/-- Digits that do not begin with a zero, or a zero alone. -/
def wholeDigits : Reader (List Char)
  | '0' :: rest => some (['0'], rest)
  | cs => digits Char.isDigit cs

/-- Exactly `n` digits. -/
def someDigits (n : Nat) : Reader Nat := fun cs =>
  let front := cs.take n
  if front.length = n ∧ front.all Char.isDigit then some (decimal front, cs.drop n) else none

/-- A sign, if there is one, and what follows. -/
def sign : List Char → Option Bool × List Char
  | '+' :: rest => (some false, rest)
  | '-' :: rest => (some true, rest)
  | cs => (none, cs)

/-- Whether a positive number `mantissa * 10 ^ (exponent - places)` is too large for a double: at
least the middle between the largest double and the next power of two. -/
def tooLarge (mantissa places : Nat) (exponent : Int) : Bool :=
  if mantissa = 0 then false
  else
    let e : Int := exponent - places
    let size : Int := (Nat.toDigits 10 mantissa).length + e
    if size < 300 then false
    else if 320 < size then true
    else
      let bound : Nat := Nat.pow 2 1024 - Nat.pow 2 970
      if 0 ≤ e then bound ≤ mantissa * Nat.pow 10 e.toNat
      else bound * Nat.pow 10 (-e).toNat ≤ mantissa

/-- The exponent of a real number, if there is one. -/
def exponent : List Char → Option (Option Int × List Char)
  | c :: rest =>
    if c = 'e' || c = 'E' then
      let (minus, rest) := sign rest
      (digits Char.isDigit rest).map fun (ds, r) =>
        let n : Int := decimal ds
        (some (if minus = some true then -n else n), r)
    else some (none, c :: rest)
  | [] => some (none, [])

/-- A real number, given its digits before the point, the digits after it, and what follows. -/
def real (negative : Bool) (whole fraction : List Char) (rest : List Char) :
    Option (Document × List Char) := do
  let (e, rest) ← exponent rest
  if !negative && tooLarge (decimal (whole ++ fraction)) fraction.length (e.getD 0) then none
  else some (.real, rest)

/-- An integer, if it fits into 64 bits. -/
def integer (n : Int) (rest : List Char) : Option (Document × List Char) :=
  if -0x8000000000000000 ≤ n ∧ n < 0x8000000000000000 then some (.int n, rest) else none

/-- Whether a character is a digit of a base up to sixteen. -/
def isDigitOf (base : Nat) (c : Char) : Bool :=
  match hexDigit? c with
  | some d => d < base
  | none => false

/-- An integer in a base other than ten. -/
def inBase (base : Nat) (cs : List Char) : Option (Document × List Char) := do
  let (ds, rest) ← digits (isDigitOf base) cs
  let value := ds.foldl (fun (n : Nat) c => n * base + (hexDigit? c).getD 0) 0
  integer value rest

/-- A number. -/
def number : List Char → Option (Document × List Char)
  | '0' :: 'x' :: rest => inBase 16 rest
  | '0' :: 'o' :: rest => inBase 8 rest
  | '0' :: 'b' :: rest => inBase 2 rest
  | cs =>
    let (minus, body) := sign cs
    match body with
    | 'i' :: 'n' :: 'f' :: rest => some (.real, rest)
    | 'n' :: 'a' :: 'n' :: rest => some (.real, rest)
    | _ => do
      let negative := minus = some true
      let (whole, rest) ← wholeDigits body
      match rest with
      | '.' :: rest' =>
        let (fraction, rest'') ← digits Char.isDigit rest'
        real negative whole fraction rest''
      | 'e' :: _ | 'E' :: _ => real negative whole [] rest
      | _ =>
        let n : Int := decimal whole
        integer (if negative then -n else n) rest

/-- The number of days of a month. -/
def daysOf (year month : Nat) : Nat :=
  if month = 2 then
    if year % 4 = 0 ∧ (year % 100 ≠ 0 ∨ year % 400 = 0) then 29 else 28
  else if month = 4 ∨ month = 6 ∨ month = 9 ∨ month = 11 then 30
  else 31

/-- A time of the day: hours, minutes and seconds, with an optional fraction.  Also the second of a
leap is one. -/
def timeOfDay (cs : List Char) : Option (List Char) := do
  let (hour, rest) ← someDigits 2 cs
  match rest with
  | ':' :: rest =>
    let (minute, rest) ← someDigits 2 rest
    match rest with
    | ':' :: rest =>
      let (second, rest) ← someDigits 2 rest
      if hour < 24 ∧ minute < 60 ∧ second ≤ 60 then
        match rest with
        | '.' :: rest' =>
          if (rest'.takeWhile Char.isDigit).isEmpty then none
          else some (rest'.dropWhile Char.isDigit)
        | _ => some rest
      else none
    | _ => none
  | _ => none

/-- The distance from universal time, if there is one. -/
def offset (cs : List Char) : Option (List Char) :=
  match cs with
  | 'Z' :: rest | 'z' :: rest => some rest
  | c :: rest =>
    if c = '+' || c = '-' then do
      let (hour, rest) ← someDigits 2 rest
      match rest with
      | ':' :: rest =>
        let (minute, rest) ← someDigits 2 rest
        if hour < 24 ∧ minute < 60 then some rest else none
      | _ => none
    else some cs
  | [] => some cs

/-- A date, with a time of the day and an offset if these follow. -/
def date (cs : List Char) : Option (List Char) := do
  let (year, rest) ← someDigits 4 cs
  match rest with
  | '-' :: rest =>
    let (month, rest) ← someDigits 2 rest
    match rest with
    | '-' :: rest =>
      let (day, rest) ← someDigits 2 rest
      if 1 ≤ month ∧ month ≤ 12 ∧ 1 ≤ day ∧ day ≤ daysOf year month then
        match rest with
        | c :: after =>
          if c = 'T' || c = 't' || c = ' ' then
            match timeOfDay after with
            | some later => offset later
            | none => some rest
          else some rest
        | [] => some rest
      else none
    | _ => none
  | _ => none

/-- Whether a text begins like a date or a time. -/
def looksLikeStamp (cs : List Char) : Bool :=
  match (cs.takeWhile Char.isDigit).length, cs.dropWhile Char.isDigit with
  | 4, '-' :: _ => true
  | 2, ':' :: _ => true
  | _, _ => false

/-- A date, a time or a number. -/
def scalar (cs : List Char) : Option (Document × List Char) :=
  if looksLikeStamp cs then
    match date cs with
    | some rest => some (.stamp, rest)
    | none => (timeOfDay cs).map fun rest => (.stamp, rest)
  else number cs

end VehicleGateway.Toml
