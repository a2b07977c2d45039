import EventStream.Json.Basic

/-!
# Reading JSON text

The grammar of RFC 8259: one value, blanks around it and between its parts, and
nothing else.

## Implementation notes

Numbers that are written as integers keep their value, at any size; a negative
zero is no integer. Escapes may spell any sixteen-bit unit; whether the units
spell a text is decided afterwards.

Nesting is bounded by the number of characters: every call but the one from a
list to its next element reads a character first.
-/

namespace EventStream.Json

/-- The characters that may stand between the parts of a value. -/
def isBlank (c : Char) : Bool := c == ' ' || c == '\n' || c == '\r' || c == '\t'

/-- The characters behind any blanks. -/
def skipBlanks (cs : List Char) : List Char := cs.dropWhile isBlank

/-! ## Numbers -/

/-- The number that decimal digits spell. -/
def digitsValue (digits : List Char) : Nat :=
  digits.foldl (fun n c => n * 10 + (c.toNat - '0'.toNat)) 0

/-- One or more digits, and what follows them. -/
def digits? (cs : List Char) : Option (List Char × List Char) :=
  match cs.takeWhile Char.isDigit with
  | [] => none
  | ds => some (ds, cs.dropWhile Char.isDigit)

/-- The digits before the point: a zero alone or digits that do not start with one. -/
def wholePart? (cs : List Char) : Option (List Char × List Char) :=
  match cs with
  | '0' :: rest => some (['0'], rest)
  | cs => digits? cs

/-- What follows an optional fraction, and whether there was one. -/
def fraction? (cs : List Char) : Option (Bool × List Char) :=
  match cs with
  | '.' :: rest => (digits? rest).map fun r => (true, r.2)
  | cs => some (false, cs)

/-- What follows an optional exponent, and whether there was one. -/
def exponent? (cs : List Char) : Option (Bool × List Char) :=
  let signed (rest : List Char) : Option (Bool × List Char) :=
    match rest with
    | '+' :: rest => (digits? rest).map fun r => (true, r.2)
    | '-' :: rest => (digits? rest).map fun r => (true, r.2)
    | rest => (digits? rest).map fun r => (true, r.2)
  match cs with
  | 'e' :: rest => signed rest
  | 'E' :: rest => signed rest
  | cs => some (false, cs)

/-- A number without its sign. -/
def unsigned? (negative : Bool) (cs : List Char) : Option (Json × List Char) := do
  let (whole, cs) ← wholePart? cs
  let (hasFraction, cs) ← fraction? cs
  let (hasExponent, cs) ← exponent? cs
  let n := digitsValue whole
  if hasFraction || hasExponent || (negative && n == 0) then return (otherNumber, cs)
  return (int (if negative then -(n : Int) else n), cs)

/-- A number. -/
def number? (cs : List Char) : Option (Json × List Char) :=
  match cs with
  | '-' :: rest => unsigned? true rest
  | cs => unsigned? false cs

/-! ## Strings -/

/-- The value of a hexadecimal digit. -/
def hexDigit? (c : Char) : Option Nat :=
  if c.isDigit then some (c.toNat - '0'.toNat)
  else if 'a' ≤ c ∧ c ≤ 'f' then some (c.toNat - 'a'.toNat + 10)
  else if 'A' ≤ c ∧ c ≤ 'F' then some (c.toNat - 'A'.toNat + 10)
  else none

/-- The number that four hexadecimal digits spell. -/
def hexUnit? (a b c d : Char) : Option Nat := do
  return (((← hexDigit? a) * 16 + (← hexDigit? b)) * 16 + (← hexDigit? c)) * 16 + (← hexDigit? d)

/-- The code point of an escape of one letter. -/
def shortEscape? (c : Char) : Option Nat :=
  match c with
  | '"' => some 34
  | '\\' => some 92
  | '/' => some 47
  | 'b' => some 8
  | 'f' => some 12
  | 'n' => some 10
  | 'r' => some 13
  | 't' => some 9
  | _ => none

/-- The code points of a string behind its first quote, halves of pairs on their own. -/
def units? : List Char → Option (List Nat × List Char)
  | [] => none
  | '"' :: rest => some ([], rest)
  | '\\' :: 'u' :: a :: b :: c :: d :: rest => do
    let u ← hexUnit? a b c d
    let (us, rest) ← units? rest
    return (u :: us, rest)
  | '\\' :: c :: rest => do
    let u ← shortEscape? c
    let (us, rest) ← units? rest
    return (u :: us, rest)
  | c :: rest => do
    if c.toNat < 32 then none
    let (us, rest) ← units? rest
    return (c.toNat :: us, rest)

/-- Whether a unit is the first half of a surrogate pair. -/
def isHighHalf (u : Nat) : Bool := decide (0xD800 ≤ u ∧ u < 0xDC00)

/-- Whether a unit is the second half of a surrogate pair. -/
def isLowHalf (u : Nat) : Bool := decide (0xDC00 ≤ u ∧ u < 0xE000)

/-- The characters that units spell, none if half of a pair stands alone. -/
def characters? : List Nat → Option (List Char)
  | [] => some []
  | u :: v :: rest =>
    if isHighHalf u then
      if isLowHalf v then
        (characters? rest).map (.ofNat (0x10000 + (u - 0xD800) * 0x400 + (v - 0xDC00)) :: ·)
      else none
    else if isLowHalf u then none
    else (characters? (v :: rest)).map (.ofNat u :: ·)
  | [u] => if isHighHalf u || isLowHalf u then none else some [.ofNat u]

/-- A string behind its first quote, and what follows it. -/
def text? (cs : List Char) : Option (Option String × List Char) := do
  let (us, rest) ← units? cs
  return ((characters? us).map String.ofList, rest)

/-! ## Values -/

/-- A name, and what follows it. -/
def word? (word : List Char) (j : Json) (cs : List Char) : Option (Json × List Char) :=
  if word.isPrefixOf cs then some (j, cs.drop word.length) else none

mutual

/-- A value, in at most `limit` nested calls, and what follows it. -/
def value? : (limit : Nat) → List Char → Option (Json × List Char)
  | 0, _ => none
  | limit + 1, cs =>
    match skipBlanks cs with
    | '\x7b' :: rest =>
      match skipBlanks rest with
      | '\x7d' :: rest => some (object [], rest)
      | rest => (fields? limit rest).map fun r => (object r.1, r.2)
    | '[' :: rest =>
      match skipBlanks rest with
      | ']' :: rest => some (array [], rest)
      | rest => (items? limit rest).map fun r => (array r.1, r.2)
    | '"' :: rest => (text? rest).map fun r => (string r.1, r.2)
    | 'n' :: rest => word? ['u', 'l', 'l'] null rest
    | 't' :: rest => word? ['r', 'u', 'e'] (bool true) rest
    | 'f' :: rest => word? ['a', 'l', 's', 'e'] (bool false) rest
    | cs => number? cs

/-- The items of an array up to its end. -/
def items? : (limit : Nat) → List Char → Option (List Json × List Char)
  | 0, _ => none
  | limit + 1, cs => do
    let (j, rest) ← value? limit cs
    match skipBlanks rest with
    | ',' :: rest =>
      let (js, rest) ← items? limit rest
      return (j :: js, rest)
    | ']' :: rest => return ([j], rest)
    | _ => none

/-- The fields of an object up to its end. -/
def fields? : (limit : Nat) → List Char → Option (List (Option String × Json) × List Char)
  | 0, _ => none
  | limit + 1, cs => do
    match skipBlanks cs with
    | '"' :: rest =>
      let (name, rest) ← text? rest
      match skipBlanks rest with
      | ':' :: rest =>
        let (j, rest) ← value? limit rest
        match skipBlanks rest with
        | ',' :: rest =>
          let (fs, rest) ← fields? limit rest
          return ((name, j) :: fs, rest)
        | '\x7d' :: rest => return ([(name, j)], rest)
        | _ => none
      | _ => none
    | _ => none

end

/-- The value that a text spells, if it is JSON. -/
def parse? (s : String) : Option Json := do
  let cs := s.toList
  let (j, rest) ← value? (2 * cs.length + 2) cs
  if (skipBlanks rest).isEmpty then return j else none

end EventStream.Json
