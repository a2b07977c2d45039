import EventStream.Cbor.Codec

/-!
# Free-form payloads

Payloads whose shape is known only when they arrive: the shapes of the binary
format, and one value that refuses to be encoded and says why.
-/

namespace EventStream

open Cbor

/-- A payload of any shape. -/
inductive Datum where
  | null
  | bool (b : Bool)
  | int (n : Int)
  | str (s : String)
  | list (items : List Datum)
  | float (x : Binary64)
  | bytes (bs : Bytes)
  | map (entries : List (Datum × Datum))
  | refusing (reason : String)
deriving Inhabited

namespace Datum

mutual

/-- Whether two payloads are equal; floats are compared as numbers. -/
def same : Datum → Datum → Bool
  | null, null => true
  | bool a, bool b => a == b
  | int a, int b => a == b
  | str a, str b => a == b
  | list as, list bs => sameItems as bs
  | float a, float b => a.same b
  | bytes as, bytes bs => as == bs
  | map as, map bs => sameEntries as bs
  | refusing a, refusing b => a == b
  | _, _ => false

/-- Whether two lists of payloads are equal. -/
def sameItems : List Datum → List Datum → Bool
  | [], [] => true
  | a :: as, b :: bs => same a b && sameItems as bs
  | _, _ => false

/-- Whether two lists of entries are equal, order included. -/
def sameEntries : List (Datum × Datum) → List (Datum × Datum) → Bool
  | [], [] => true
  | (k, v) :: as, (k', v') :: bs => same k k' && same v v' && sameEntries as bs
  | _, _ => false

end

instance : BEq Datum := ⟨same⟩

mutual

/-- The item of a payload. -/
def item : Datum → Except EncodeError Bytes
  | null => .ok nullItem
  | bool b => .ok (boolItem b)
  | int n => .ok (integerItem n)
  | str s => .ok (textItem s)
  | list as => do return arrayItem (← itemsOf as)
  | float x => .ok (floatBytes x)
  | bytes bs => .ok (bytesItem bs)
  | map es => do return mapItem (← entriesOf es)
  | refusing reason => .error (.value reason)

/-- The items of a list of payloads. -/
def itemsOf : List Datum → Except EncodeError (List Bytes)
  | [] => .ok []
  | a :: as => do
    let b ← item a
    let bs ← itemsOf as
    return b :: bs

/-- The items of a list of entries, each key before its value. -/
def entriesOf : List (Datum × Datum) → Except EncodeError (List (Bytes × Bytes))
  | [] => .ok []
  | (k, v) :: es => do
    let bk ← item k
    let bv ← item v
    let bs ← entriesOf es
    return (bk, bv) :: bs

end

instance : ToCbor Datum := ⟨item⟩

/-- A payload that is no array and no map and starts with the given head, which is next. -/
def leaf : Head → Decoder Datum
  | .unsigned n => do
    let _ ← Decoder.head
    return int n
  | .negative n => do
    let _ ← Decoder.head
    return int (Decoder.complement n)
  | .float x => do
    let _ ← Decoder.head
    return float x
  | .text length => do return str (← Decoder.anyText length)
  | .bytes _ => do return bytes (← Decoder.bytesBody)
  | .simple 20 => do
    let _ ← Decoder.head
    return bool false
  | .simple 21 => do
    let _ ← Decoder.head
    return bool true
  | .simple 22 => do
    let _ ← Decoder.head
    return null
  | .simple 23 => do
    let _ ← Decoder.head
    return null
  | _ => Decoder.unexpected

/-- A payload, with the given levels of nesting left. -/
def decoderAt : Nat → Cursor → Except DecodeError (Datum × Cursor)
  | 0 => (do
      match ← Decoder.peek with
      | .array _ => Decoder.fail .tooDeep
      | .map _ => Decoder.fail .tooDeep
      | h => leaf h : Decoder Datum) 0
  | levels + 1 => (do
      let inner : Decoder Datum := fun _ c => decoderAt levels c
      match ← Decoder.peek with
      | .array length =>
        let _ ← Decoder.head
        return list (← Decoder.itemsOf inner length)
      | .map length =>
        let _ ← Decoder.head
        let entry : Decoder (Datum × Datum) := do
          let k ← inner
          let v ← inner
          return (k, v)
        return map (← Decoder.itemsOf entry length)
      | h => leaf h : Decoder Datum) (levels + 1)

instance : FromCbor Datum := ⟨decoderAt⟩

/-- The text of a payload; those without one are named by their shape. -/
def text : Datum → String
  | null => "null"
  | bool true => "true"
  | bool false => "false"
  | int n => toString n
  | str s => s
  | list _ => "list"
  | float _ => "float"
  | bytes _ => "bytes"
  | map _ => "map"
  | refusing _ => "fail"

end Datum

/-- Payloads with a text of their own. -/
class Printable (α : Type) where
  text : α → String

instance : Printable UInt64 := ⟨fun n => toString n.toNat⟩
instance : Printable String := ⟨fun s => s⟩
instance : Printable Unit := ⟨fun _ => "()"⟩
instance : Printable (UInt64 × String) := ⟨fun p => toString p.1.toNat ++ "=" ++ p.2⟩
instance : Printable Datum := ⟨Datum.text⟩

end EventStream
