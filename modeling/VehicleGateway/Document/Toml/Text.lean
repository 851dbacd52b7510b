import VehicleGateway.Document

/-!
# Characters, strings and keys of TOML

Readers take what they read off the front of a list of characters.
-/

namespace VehicleGateway.Toml

/-- Reads something off the front of a text. -/
abbrev Reader (α : Type) := List Char → Option (α × List Char)

/-- Blanks within a line. -/
def isBlank (c : Char) : Bool := c = ' ' || c = '\t'

/-- The characters that may stand in a comment or a string: all but control characters. -/
def isPlain (c : Char) : Bool := c = '\t' || (' ' ≤ c && c ≠ '\x7f')

/-- The characters of a key without quotation marks. -/
def isBare (c : Char) : Bool := c.isAlphanum || c = '_' || c = '-'

/-- The text after blanks. -/
def skipBlanks (cs : List Char) : List Char := cs.dropWhile isBlank

/-- The text after a line break, if it begins with one. -/
def lineBreak? : List Char → Option (List Char)
  | '\n' :: rest => some rest
  | '\r' :: '\n' :: rest => some rest
  | _ => none

/-- The text after a comment, up to the end of its line. -/
def skipComment : List Char → List Char
  | '#' :: rest => rest.dropWhile isPlain
  | cs => cs

/-- The text after the end of a line, on which nothing but a comment may follow. -/
def endLine? (cs : List Char) : Option (List Char) :=
  match skipComment (skipBlanks cs) with
  | [] => some []
  | cs' => lineBreak? cs'

/-- The text after blanks, line breaks and comments. -/
def skipLines : (fuel : Nat) → List Char → List Char
  | 0, cs => cs
  | fuel + 1, cs =>
    let cs := skipBlanks cs
    match lineBreak? (skipComment cs) with
    | some rest => skipLines fuel rest
    | none => cs

/-- The value of a hexadecimal digit. -/
def hexDigit? (c : Char) : Option Nat :=
  if c.isDigit then some (c.toNat - 48)
  else if 'a' ≤ c && c ≤ 'f' then some (c.toNat - 87)
  else if 'A' ≤ c && c ≤ 'F' then some (c.toNat - 55)
  else none

/-- The number that hexadecimal digits spell. -/
def hexNumber? : (acc : Nat) → List Char → Option Nat
  | acc, [] => some acc
  | acc, c :: rest =>
    match hexDigit? c with
    | some d => hexNumber? (acc * 16 + d) rest
    | none => none

/-- The character with a code given by `n` hexadecimal digits. -/
def coded (n : Nat) : Reader Char := fun cs =>
  if (cs.take n).length = n then
    match hexNumber? 0 (cs.take n) with
    | some v => if h : v.isValidChar then some (Char.ofNatAux v h, cs.drop n) else none
    | none => none
  else none

/-- What follows a backslash. -/
def escape : Reader Char
  | 'b' :: rest => some ('\x08', rest)
  | 't' :: rest => some ('\t', rest)
  | 'n' :: rest => some ('\n', rest)
  | 'f' :: rest => some ('\x0c', rest)
  | 'r' :: rest => some ('\r', rest)
  | '"' :: rest => some ('"', rest)
  | '\\' :: rest => some ('\\', rest)
  | 'u' :: rest => coded 4 rest
  | 'U' :: rest => coded 8 rest
  | _ => none

/-- The rest of a string on one line, after its opening mark. -/
def quoted : (fuel : Nat) → Reader (List Char)
  | 0, _ => none
  | _, [] => none
  | fuel + 1, c :: rest =>
    if c = '"' then some ([], rest)
    else if c = '\\' then do
      let (e, rest) ← escape rest
      let (s, rest) ← quoted fuel rest
      some (e :: s, rest)
    else if isPlain c then (quoted fuel rest).map fun (s, r) => (c :: s, r)
    else none

/-- The rest of a string without escapes on one line, after its opening mark. -/
def literal : Reader (List Char)
  | [] => none
  | c :: rest =>
    if c = '\'' then some ([], rest)
    else if isPlain c then (literal rest).map fun (s, r) => (c :: s, r)
    else none

/-- The text after a backslash that continues a line: blanks, a line break, and all blanks and line
breaks that follow. -/
def continued? (cs : List Char) : Option (List Char) :=
  (lineBreak? (skipBlanks cs)).map fun rest => skipBreaks rest.length rest
where
  /-- The text after blanks and line breaks. -/
  skipBreaks : (fuel : Nat) → List Char → List Char
    | 0, cs => cs
    | fuel + 1, cs =>
      match lineBreak? (skipBlanks cs) with
      | some rest => skipBreaks fuel rest
      | none => skipBlanks cs

/-- The end of a string over several lines: three marks, before which there may be two more that
belong to the string. -/
def closing? (mark : Char) (cs : List Char) : Option (List Char × List Char) :=
  let run := (cs.takeWhile (· = mark)).length
  if run < 3 then none
  else
    let extra := min (run - 3) 2
    some (List.replicate extra mark, cs.drop (extra + 3))

/-- The rest of a string over several lines. -/
def multiline (mark : Char) : (fuel : Nat) → Reader (List Char)
  | 0, _ => none
  | fuel + 1, cs =>
    match closing? mark cs with
    | some ending => some ending
    | none =>
      match lineBreak? cs with
      | some rest => (multiline mark fuel rest).map fun (s, r) => ('\n' :: s, r)
      | none =>
        match cs with
        | [] => none
        | c :: rest =>
          if c = '\\' ∧ mark = '"' then
            match continued? rest with
            | some rest' => multiline mark fuel rest'
            | none => do
              let (e, rest') ← escape rest
              let (s, r) ← multiline mark fuel rest'
              some (e :: s, r)
          else if isPlain c then (multiline mark fuel rest).map fun (s, r) => (c :: s, r)
          else none

/-- A string over several lines, without a line break that follows the opening marks at once. -/
def openMultiline (mark : Char) (cs : List Char) : Option (List Char × List Char) :=
  multiline mark (cs.length + 1) ((lineBreak? cs).getD cs)

/-- A string of any kind. -/
def string (cs : List Char) : Option (String × List Char) :=
  let read : Option (List Char × List Char) := match cs with
    | '"' :: '"' :: '"' :: rest => openMultiline '"' rest
    | '\'' :: '\'' :: '\'' :: rest => openMultiline '\'' rest
    | '"' :: rest => quoted (rest.length + 1) rest
    | '\'' :: rest => literal rest
    | _ => none
  read.map fun (s, r) => (String.ofList s, r)

/-- One part of a key. -/
def keyPart (cs : List Char) : Option (String × List Char) :=
  match cs with
  | '"' :: rest => (quoted (rest.length + 1) rest).map fun (s, r) => (String.ofList s, r)
  | '\'' :: rest => (literal rest).map fun (s, r) => (String.ofList s, r)
  | _ =>
    let bare := cs.takeWhile isBare
    if bare.isEmpty then none else some (String.ofList bare, cs.dropWhile isBare)

/-- A key of parts with dots between them; blanks may stand around each part. -/
def keyParts : (fuel : Nat) → Reader (List String)
  | 0, _ => none
  | fuel + 1, cs => do
    let (part, rest) ← keyPart (skipBlanks cs)
    match skipBlanks rest with
    | '.' :: rest' =>
      let (parts, rest'') ← keyParts fuel rest'
      some (part :: parts, rest'')
    | rest' => some ([part], rest')

/-- Nothing may be nested as deep as this, and no key may have as many parts. -/
def depthLimit : Nat := 80

/-- A key. -/
def key (cs : List Char) : Option (List String × List Char) :=
  match keyParts (cs.length + 1) cs with
  | some (parts, rest) => if parts.length < depthLimit then some (parts, rest) else none
  | none => none

end VehicleGateway.Toml
