import EventStream.Bytes
import EventStream.Cbor.Float

/-!
# Item heads

Every data item starts with a head: a first byte with a major type in its three
high bits and, in its low five bits, either a small argument or the width of the
argument that follows. A head is written in its shortest form, and read in any.

## Implementation notes

A head that was looked at and is put back is written again in its shortest form.
The position of a longer head then moves forward by the bytes saved, which shows
in the positions of malformed text; nothing else can tell the two forms apart.
-/

namespace EventStream.Cbor

/-- Why bytes could not be decoded. -/
inductive DecodeError where
  /-- The bytes end too early. -/
  | endOfInput
  /-- The bytes at a position are no item of the format. -/
  | malformed (position : Nat)
  /-- The item is well formed but is not what was wanted. -/
  | unexpected (position : Option Nat)
  /-- Items are nested too deeply. -/
  | tooDeep
deriving DecidableEq

/-- Why a value could not be encoded: it says so itself. -/
inductive EncodeError where
  | value (reason : String)
deriving DecidableEq

/-- What a failed encoding tells its caller. -/
def EncodeError.message : EncodeError → String
  | value reason => "failed serializing value: " ++ reason

/-- The head of a data item. A length that is absent is ended by a stop. -/
inductive Head where
  | unsigned (n : Nat)
  | negative (n : Nat)
  | bytes (length : Option Nat)
  | text (length : Option Nat)
  | array (length : Option Nat)
  | map (length : Option Nat)
  | tag (n : Nat)
  | simple (n : Nat)
  | float (x : Binary64)
  | stop
deriving DecidableEq

/-- The first byte of an item from its major type and its low five bits. -/
def firstByte (major low : Nat) : UInt8 := .ofNat (major * 32 + low)

/-- A major type with its argument in the fewest bytes. -/
def argumentBytes (major n : Nat) : Bytes :=
  if n < 24 then [firstByte major n]
  else if n < 0x100 then firstByte major 24 :: Bytes.ofNat 1 n
  else if n < 0x10000 then firstByte major 25 :: Bytes.ofNat 2 n
  else if n < 0x100000000 then firstByte major 26 :: Bytes.ofNat 4 n
  else firstByte major 27 :: Bytes.ofNat 8 n

/-- A major type with a length, which may be left open. -/
def lengthBytes (major : Nat) : Option Nat → Bytes
  | some n => argumentBytes major n
  | none => [firstByte major 31]

/-- A double in the shortest format that keeps its bits. -/
def floatBytes (x : Binary64) : Bytes :=
  match FloatFormat.half.narrow? x with
  | some p => firstByte 7 25 :: Bytes.ofNat 2 p
  | none =>
    match FloatFormat.single.narrow? x with
    | some p => firstByte 7 26 :: Bytes.ofNat 4 p
    | none => firstByte 7 27 :: Bytes.ofNat 8 x.bits.toNat

namespace Head

/-- The shortest form of a head. -/
def encode : Head → Bytes
  | unsigned n => argumentBytes 0 n
  | negative n => argumentBytes 1 n
  | bytes length => lengthBytes 2 length
  | text length => lengthBytes 3 length
  | array length => lengthBytes 4 length
  | map length => lengthBytes 5 length
  | tag n => argumentBytes 6 n
  | simple n => if n < 24 then [firstByte 7 n] else firstByte 7 24 :: Bytes.ofNat 1 n
  | float x => floatBytes x
  | stop => [firstByte 7 31]

end Head

/-- The argument of a head: a number with the count of bytes it took, or an open length. -/
inductive Argument where
  | number (width : Nat) (n : Nat)
  | unbounded

/-- The head with a major type and an argument, if there is one. -/
def Head.ofArgument? (major : Nat) : Argument → Option Head
  | .number width n =>
    match major with
    | 0 => some (.unsigned n)
    | 1 => some (.negative n)
    | 2 => some (.bytes (some n))
    | 3 => some (.text (some n))
    | 4 => some (.array (some n))
    | 5 => some (.map (some n))
    | 6 => some (.tag n)
    | _ =>
      match width with
      | 2 => some (.float (FloatFormat.half.widen n))
      | 4 => some (.float (FloatFormat.single.widen n))
      | 8 => some (.float ⟨.ofNat n⟩)
      | _ => some (.simple n)
  | .unbounded =>
    match major with
    | 2 => some (.bytes none)
    | 3 => some (.text none)
    | 4 => some (.array none)
    | 5 => some (.map none)
    | 7 => some .stop
    | _ => none

/-- A place in the bytes being decoded: how many came before it, and the ones after it. -/
structure Cursor where
  position : Nat
  rest : Bytes

namespace Cursor

/-- The next `n` bytes. -/
def take (n : Nat) (c : Cursor) : Except DecodeError (Bytes × Cursor) :=
  if n ≤ c.rest.length then .ok (c.rest.take n, ⟨c.position + n, c.rest.drop n⟩)
  else .error .endOfInput

/-- The next `n` bytes are there if they were put in front. -/
theorem take_append (position : Nat) (bs rest : Bytes) :
    take bs.length ⟨position, bs ++ rest⟩ = .ok (bs, ⟨position + bs.length, rest⟩) := by
  simp [take]

/-- The argument that the low five bits of a first byte announce, read from behind that byte. -/
def argument (low : Nat) (c : Cursor) : Except DecodeError (Argument × Cursor) :=
  let wide (width : Nat) : Except DecodeError (Argument × Cursor) :=
    match c.take width with
    | .ok (bs, c') => .ok (.number width (Bytes.toNat bs), c')
    | .error e => .error e
  if low < 24 then .ok (.number 0 low, c)
  else if low = 24 then wide 1
  else if low = 25 then wide 2
  else if low = 26 then wide 4
  else if low = 27 then wide 8
  else if low = 31 then .ok (.unbounded, c)
  else .error (.malformed (c.position - 1))

/-- The head at a place and the place behind it. -/
def head (c : Cursor) : Except DecodeError (Head × Cursor) :=
  match c.rest with
  | [] => .error .endOfInput
  | b :: rest =>
    match argument (b.toNat % 32) ⟨c.position + 1, rest⟩ with
    | .error e => .error e
    | .ok (a, c') =>
      match Head.ofArgument? (b.toNat / 32) a with
      | some h => .ok (h, c')
      | none => .error (.malformed c.position)

/-- The place before a head that was read from just before this place. -/
def putBack (h : Head) (c : Cursor) : Cursor :=
  ⟨c.position - h.encode.length, h.encode ++ c.rest⟩

end Cursor

end EventStream.Cbor
