import EventStream.Cbor.Record

/-!
# Values with a binary form

Values are written with definite lengths and shortest heads: records as maps
from field names in the order of the fields, lists and tuples as arrays. Only
values that say so themselves cannot be encoded.
-/

namespace EventStream.Cbor

/-- A byte string as an item. -/
def bytesItem (bs : Bytes) : Bytes := argumentBytes 2 bs.length ++ bs

/-- A text as an item. -/
def textItem (s : String) : Bytes :=
  argumentBytes 3 (Bytes.ofString s).length ++ Bytes.ofString s

/-- An unsigned integer as an item. -/
def unsignedItem (n : Nat) : Bytes := argumentBytes 0 n

/-- An integer as an item. -/
def integerItem (n : Int) : Bytes :=
  if 0 ≤ n then argumentBytes 0 n.toNat else argumentBytes 1 (-1 - n).toNat

/-- A truth value as an item. -/
def boolItem (b : Bool) : Bytes := [firstByte 7 (if b then 21 else 20)]

/-- The absent value as an item. -/
def nullItem : Bytes := [firstByte 7 22]

/-- An array of items as an item. -/
def arrayItem (items : List Bytes) : Bytes := argumentBytes 4 items.length ++ items.flatten

/-- A map of items as an item, entries in the order given. -/
def mapItem (entries : List (Bytes × Bytes)) : Bytes :=
  argumentBytes 5 entries.length ++ (entries.map fun e => e.1 ++ e.2).flatten

/-- A record as an item: a map from its field names. -/
def recordItem (fields : List (String × Bytes)) : Bytes :=
  mapItem (fields.map fun f => (textItem f.1, f.2))

/-- Values with an encoding. -/
class ToCbor (α : Type) where
  encode : α → Except EncodeError Bytes

/-- Values that can be read back from bytes. -/
class FromCbor (α : Type) where
  decoder : Decoder α

export ToCbor (encode)

/-- Levels of nesting a decoded value may have. -/
def maxLevels : Nat := 256

/-- The value at the beginning of the bytes. -/
def decode (α : Type) [FromCbor α] (bytes : Bytes) : Except DecodeError α :=
  match (FromCbor.decoder : Decoder α) maxLevels ⟨0, bytes⟩ with
  | .ok (a, _) => .ok a
  | .error e => .error e

variable {α β : Type}

instance : ToCbor UInt64 := ⟨fun n => .ok (unsignedItem n.toNat)⟩
instance : FromCbor UInt64 := ⟨Decoder.word⟩

instance : ToCbor String := ⟨fun s => .ok (textItem s)⟩
instance : FromCbor String := ⟨Decoder.text⟩

instance : ToCbor Unit := ⟨fun _ => .ok nullItem⟩
instance : FromCbor Unit := ⟨Decoder.unit⟩

instance : ToCbor Bool := ⟨fun b => .ok (boolItem b)⟩
instance : FromCbor Bool := ⟨Decoder.bool⟩

instance [ToCbor α] [ToCbor β] : ToCbor (α × β) where
  encode p := do
    let a ← encode p.1
    let b ← encode p.2
    return arrayItem [a, b]

instance [FromCbor α] [FromCbor β] : FromCbor (α × β) :=
  ⟨Decoder.pair FromCbor.decoder FromCbor.decoder⟩

instance [ToCbor α] : ToCbor (List α) where
  encode as := do return arrayItem (← as.mapM encode)

instance [FromCbor α] : FromCbor (List α) := ⟨Decoder.list FromCbor.decoder⟩

end EventStream.Cbor
