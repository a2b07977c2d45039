/-!
# JSON values

A JSON text as a tree. A string is absent where its escapes spell half of a
surrogate pair: such a string is well-formed JSON that spells no text. Of the
numbers, those written as integers are kept and the others only noted.

## Implementation notes

Objects are lists of pairs, since a repeated name has to be noticed by the
reader of the object and not before.
-/

namespace EventStream

/-- A JSON value. -/
inductive Json where
  | null
  | bool (b : Bool)
  | int (n : Int)
  /-- A number that is not written as an integer. -/
  | otherNumber
  | string (s : Option String)
  | array (items : List Json)
  | object (fields : List (Option String × Json))
deriving Inhabited

namespace Json

/-- The string with the given text. -/
def str (s : String) : Json := string (some s)

/-- The object with the given fields. -/
def record (fields : List (String × Json)) : Json :=
  object (fields.map fun f => (some f.1, f.2))

/-- A character of a string, escaped only where it has to be. -/
def escape (c : Char) : List Char :=
  match c with
  | '"' => ['\\', '"']
  | '\\' => ['\\', '\\']
  | '\n' => ['\\', 'n']
  | '\r' => ['\\', 'r']
  | '\t' => ['\\', 't']
  | '\x08' => ['\\', 'b']
  | '\x0c' => ['\\', 'f']
  | c =>
    if c.toNat < 32 then
      ['\\', 'u', '0', '0', Nat.digitChar (c.toNat / 16), Nat.digitChar (c.toNat % 16)]
    else [c]

/-- A text in quotes. -/
def quote (s : String) : String :=
  "\"" ++ String.ofList (s.toList.flatMap escape) ++ "\""

mutual

/-- The text of a value without blanks. -/
def render : Json → String
  | null => "null"
  | bool true => "true"
  | bool false => "false"
  | int n => toString n
  | otherNumber => "null"
  | string s => quote (s.getD "")
  | array items => "[" ++ ",".intercalate (renderItems items) ++ "]"
  | object fields => "\x7b" ++ ",".intercalate (renderFields fields) ++ "\x7d"

/-- The texts of the items of an array. -/
def renderItems : List Json → List String
  | [] => []
  | j :: js => render j :: renderItems js

/-- The texts of the fields of an object. -/
def renderFields : List (Option String × Json) → List String
  | [] => []
  | (name, j) :: fs => (quote (name.getD "") ++ ":" ++ render j) :: renderFields fs

end

end Json

end EventStream
