import EventStream.Json.Parse

/-!
# Values and their JSON shapes

A record is an object with its fields by name, in any order and with unknown
fields ignored, or the array of its fields in order. A variant without fields is
its bare name or an object that maps its name to null; a variant with fields is
an object that maps its name to them.
-/

namespace EventStream.Json

/-- Values with a JSON shape. -/
class Writable (α : Type) where
  toJson : α → Json

/-- Values that can be read from their JSON shape. -/
class Readable (α : Type) where
  ofJson? : Json → Option α

export Writable (toJson)
export Readable (ofJson?)

variable {α β : Type}

/-- The value that a text spells. -/
def decode? (α : Type) [Readable α] (s : String) : Option α := (parse? s).bind ofJson?

/-- The number of a JSON integer. -/
def int? : Json → Option Int
  | int n => some n
  | _ => none

/-- The items of a JSON array. -/
def items : Json → Option (List Json)
  | array js => some js
  | _ => none

/-- How often a name is given among fields. -/
def timesGiven (name : String) (fields : List (Option String × Json)) : Nat :=
  fields.countP fun f => f.1 == some name

/-- The value first given to a name among fields. -/
def given? (name : String) (fields : List (Option String × Json)) : Option Json :=
  (fields.find? fun f => f.1 == some name).map (·.2)

/--
What a record gives for each of its fields. Each may be given once, and every name has to spell a
text. An array gives the fields from the first one on and has no more items than there are fields.
-/
def fieldsOf? (names : List String) : Json → Option (List (Option Json))
  | object fields =>
    if fields.all (fun f => f.1.isSome) && names.all (fun n => timesGiven n fields ≤ 1) then
      some (names.map fun n => given? n fields)
    else none
  | array js =>
    if js.length ≤ names.length then
      some (js.map some ++ List.replicate (names.length - js.length) none)
    else none
  | _ => none

/-- The name of a variant and, where given, its content. -/
def variant? : Json → Option (String × Option Json)
  | string (some name) => some (name, none)
  | object [(some name, j)] => some (name, some j)
  | _ => none

/-- Whether the content of a variant without fields is allowed. -/
def isBare : Option Json → Bool
  | none => true
  | some null => true
  | some _ => false

instance : Writable UInt64 := ⟨fun n => int n.toNat⟩
instance : Readable UInt64 where
  ofJson? j := do
    let n ← int? j
    if 0 ≤ n ∧ n < 0x10000000000000000 then return .ofNat n.toNat else none

instance : Writable String := ⟨str⟩
instance : Readable String where
  ofJson?
    | string s => s
    | _ => none

instance : Writable Unit := ⟨fun _ => null⟩
instance : Readable Unit where
  ofJson?
    | null => some ()
    | _ => none

instance : Writable Bool := ⟨bool⟩
instance : Readable Bool where
  ofJson?
    | bool b => some b
    | _ => none

instance [Writable α] : Writable (List α) := ⟨fun as => array (as.map toJson)⟩
instance [Readable α] : Readable (List α) where
  ofJson? j := do (← items j).mapM ofJson?

instance [Writable α] [Writable β] : Writable (α × β) :=
  ⟨fun p => array [toJson p.1, toJson p.2]⟩
instance [Readable α] [Readable β] : Readable (α × β) where
  ofJson?
    | array [a, b] => do return (← ofJson? a, ← ofJson? b)
    | _ => none

end EventStream.Json
