import EventStream.Cbor.Head

/-!
# Decoders

A decoder reads one value at a place in the bytes and answers the place behind
it. It is given the number of levels that items may still be nested. Decoding a
value ignores what follows it.

Tags in front of an item are skipped wherever an item of a certain kind is
wanted. Lengths may be open everywhere except in keys and variant names.

## Implementation notes

Loops over items with an open length are bounded by the number of bytes left:
every item takes at least one byte, so the bound is never met before the end of
the input is.
-/

namespace EventStream.Cbor

/-- A reader of one value, given the levels of nesting left and a place in the bytes. -/
def Decoder (α : Type) : Type := Nat → Cursor → Except DecodeError (α × Cursor)

namespace Decoder

variable {α β σ : Type}

/-- The decoder that reads nothing. -/
def pure (a : α) : Decoder α := fun _ c => .ok (a, c)

/-- One decoder after another. -/
def bind (d : Decoder α) (f : α → Decoder β) : Decoder β := fun levels c =>
  match d levels c with
  | .ok (a, c') => f a levels c'
  | .error e => .error e

instance : Monad Decoder where
  pure := pure
  bind := bind

@[simp] theorem pure_apply (a : α) (levels : Nat) (c : Cursor) :
    (Pure.pure a : Decoder α) levels c = .ok (a, c) := rfl

theorem bind_apply (d : Decoder α) (f : α → Decoder β) (levels : Nat) (c : Cursor) :
    (d >>= f) levels c =
      match d levels c with
      | .ok (a, c') => f a levels c'
      | .error e => .error e := rfl

/-- The decoder that fails. -/
def fail (e : DecodeError) : Decoder α := fun _ _ => .error e

/-- The decoder that refuses what it met, at no position in particular. -/
def unexpected : Decoder α := fail (.unexpected none)

/-- The value if there is one. -/
def ofOption : Option α → Decoder α
  | some a => Pure.pure a
  | none => unexpected

/-- The current position. -/
def position : Decoder Nat := fun _ c => .ok (c.position, c)

/-- The bytes left. -/
def ahead : Decoder Bytes := fun _ c => .ok (c.rest, c)

/-- The number of bytes left. -/
def bytesLeft : Decoder Nat := fun _ c => .ok (c.rest.length, c)

/-- The next head. -/
def head : Decoder Head := fun _ c => c.head

/-- Puts the head read last in front again. -/
def putBack (h : Head) : Decoder Unit := fun _ c => .ok ((), c.putBack h)

/-- The next `n` bytes. -/
def take (n : Nat) : Decoder Bytes := fun _ c => c.take n

/-- The same decoder one level further down. -/
def nested (d : Decoder α) : Decoder α := fun levels c =>
  match levels with
  | 0 => .error .tooDeep
  | levels + 1 => d levels c

/-- The next head without putting it behind the reader. -/
def peek : Decoder Head := do
  let h ← head
  putBack h
  return h

/-- Whether a stop comes next, which is then read. -/
def atStop : Decoder Bool := do
  match ← head with
  | .stop => return true
  | h =>
    putBack h
    return false

/-- The first head that is no tag, with its position, among at most `limit` heads. -/
def untaggedAmong : (limit : Nat) → Decoder (Nat × Head)
  | 0 => fail .endOfInput
  | limit + 1 => do
    let place ← position
    match ← head with
    | .tag _ => untaggedAmong limit
    | h => return (place, h)

/-- The first head that is no tag, with its position. -/
def untagged : Decoder (Nat × Head) := do
  untaggedAmong ((← bytesLeft) + 1)

/-! ## Strings in chunks -/

/--
Reads the chunks of a string, at most `limit` heads of them, after `opened` starts of open
lengths. Each chunk is given the position of its head and its length. A head that is no chunk is
malformed; every open length has a stop of its own.
-/
def chunksAmong (chunk? : Head → Option (Option Nat)) (read : Nat → Nat → σ → Decoder σ) :
    (limit : Nat) → (opened : Nat) → σ → Decoder σ
  | 0, _, _ => fail .endOfInput
  | limit + 1, opened, s => do
    let place ← position
    let h ← head
    match h, opened with
    | .stop, 1 => return s
    | .stop, opened + 2 => chunksAmong chunk? read limit (opened + 1) s
    | h, opened =>
      match chunk? h with
      | none => fail (.malformed place)
      | some none => chunksAmong chunk? read limit (opened + 1) s
      | some (some length) => do
        let s' ← read place length s
        if opened = 0 then return s' else chunksAmong chunk? read limit opened s'

/-- Reads the chunks of a string whose first head is next. -/
def chunks (chunk? : Head → Option (Option Nat)) (read : Nat → Nat → σ → Decoder σ) (s : σ) :
    Decoder σ := do
  chunksAmong chunk? read (← bytesLeft) 0 s

/-- Heads of chunks of text. -/
def textChunk? : Head → Option (Option Nat)
  | .text length => some length
  | _ => none

/-- Heads of chunks of bytes. -/
def bytesChunk? : Head → Option (Option Nat)
  | .bytes length => some length
  | _ => none

/--
One chunk of text, valid on its own, behind the text so far. If the input ends in it, the chunk is
still malformed where the bytes that are there are broken.
-/
def textChunk (place length : Nat) (sofar : String) : Decoder String := do
  let bytes ← ahead
  if bytes.length < length ∧ Bytes.isBroken bytes then fail (.malformed place)
  match Bytes.toString? (← take length) with
  | some s => return sofar ++ s
  | none => fail (.malformed place)

/-- The text whose first head is next. -/
def textBody : Decoder String := chunks textChunk? textChunk ""

/-- The bytes whose first head is next. -/
def bytesBody : Decoder Bytes :=
  chunks bytesChunk? (fun _ length sofar => do return sofar ++ (← take length)) []

/-- A text. -/
def text : Decoder String := do
  match (← untagged).2 with
  | .text length =>
    putBack (.text length)
    textBody
  | _ => unexpected

/-! ## Integers -/

/-- The most bytes a number may have behind its leading zeros. -/
def bigWidth : Nat := 16

/-- Adds bytes to a number, leading zeros left out; none if it grows too wide. -/
def addDigits : Bytes → Bytes → Option Bytes
  | number, [] => some number
  | number, b :: bs =>
    if number.length = bigWidth then none
    else if number = [] ∧ b = 0 then addDigits number bs
    else addDigits (number ++ [b]) bs

/-- A chunk of a number, looked at in pieces no wider than a number may be. -/
def digitPieces : (pieces : Nat) → (length : Nat) → Bytes → Decoder Bytes
  | 0, _, number => Pure.pure number
  | pieces + 1, length, number => do
    let piece ← take (min bigWidth length)
    let number ← ofOption (addDigits number piece)
    digitPieces pieces (length - bigWidth) number

/-- The number in the bytes that follow, which are wanted to be there. -/
def bigNumber : Decoder Nat := do
  match ← head with
  | .bytes length =>
    putBack (.bytes length)
    let digits ← chunks bytesChunk?
      (fun _ length number => digitPieces ((length + bigWidth - 1) / bigWidth) length number) []
    return Bytes.toNat digits
  | _ => unexpected

/-- Tag of a number in bytes. -/
def bigTag : Nat := 2

/-- Tag of a negative number in bytes. -/
def bigNegativeTag : Nat := 3

/-- The integer `-1 - n`. -/
def complement (n : Nat) : Int := -1 - n

/-- An integer among at most `limit` heads: of either sign, or a number in bytes. -/
def integerAmong : (limit : Nat) → Decoder Int
  | 0 => fail .endOfInput
  | limit + 1 => do
    match ← head with
    | .unsigned n => return n
    | .negative n => return complement n
    | .tag tag =>
      if tag = bigTag then return (← bigNumber)
      else if tag = bigNegativeTag then return complement (← bigNumber)
      else integerAmong limit
    | _ => unexpected

/-- An integer of any size the format has. -/
def integer : Decoder Int := do
  integerAmong ((← bytesLeft) + 1)

/-- An unsigned integer of 64 bits. -/
def word : Decoder UInt64 := do
  let n ← integer
  if 0 ≤ n ∧ n < 0x10000000000000000 then return .ofNat n.toNat else unexpected

/-! ## Simple values -/

/-- A truth value; anything else is refused at its position. -/
def bool : Decoder Bool := do
  match ← untagged with
  | (_, .simple 20) => return false
  | (_, .simple 21) => return true
  | (place, _) => fail (.unexpected (some place))

/-- The absent value, in either of its spellings. -/
def unit : Decoder Unit := do
  match (← untagged).2 with
  | .simple 22 => return ()
  | .simple 23 => return ()
  | _ => unexpected

/-! ## Keys -/

/-- The longest key that is looked at. -/
def keyLimit : Nat := 4096

/-- A key or variant name: text or bytes of a definite length. Bytes that are no text are none. -/
def key : Decoder (Option String) := do
  match ← untagged with
  | (place, .text (some length)) =>
    if length ≤ keyLimit then
      match Bytes.toString? (← take length) with
      | some s => return some s
      | none => fail (.malformed place)
    else unexpected
  | (_, .bytes (some length)) =>
    if length ≤ keyLimit then return Bytes.toString? (← take length) else unexpected
  | _ => unexpected

/-! ## Arrays -/

/-- A known number of items. -/
def items (d : Decoder α) : Nat → Decoder (List α)
  | 0 => return []
  | n + 1 => do
    let a ← d
    let as ← items d n
    return a :: as

/-- Items up to a stop, at most `limit` of them. -/
def itemsToStop (d : Decoder α) : (limit : Nat) → Decoder (List α)
  | 0 => fail .endOfInput
  | limit + 1 => do
    if ← atStop then return []
    let a ← d
    let as ← itemsToStop d limit
    return a :: as

/-- The items of an array behind its head. -/
def itemsOf (d : Decoder α) : Option Nat → Decoder (List α)
  | some n => items d n
  | none => do itemsToStop d (← bytesLeft)

/-- An array of items that are no small numbers. A byte string passes for one if it is empty. -/
def list (d : Decoder α) : Decoder (List α) := do
  match (← untagged).2 with
  | .array length => nested (itemsOf d length)
  | .bytes length =>
    putBack (.bytes length)
    match ← bytesBody with
    | [] => return []
    | _ :: _ => unexpected
  | _ => unexpected

/-- One more item of an array with the given number of items left, and the number left then. -/
def nextItem (d : Decoder α) : Option Nat → Decoder (α × Option Nat)
  | some 0 => unexpected
  | some (n + 1) => do return (← d, some n)
  | none => do
    if ← atStop then unexpected
    return (← d, none)

/--
A fixed number of items, read by `body` from the number of items announced. Further items are
left unread. A byte string never passes for one.
-/
def tuple (body : Option Nat → Decoder α) : Decoder α := do
  match (← untagged).2 with
  | .array length => nested (body length)
  | .bytes length =>
    putBack (.bytes length)
    let _ ← bytesBody
    unexpected
  | _ => unexpected

/-- Two items. -/
def pair (first : Decoder α) (second : Decoder β) : Decoder (α × β) :=
  tuple fun left => do
    let (a, left) ← nextItem first left
    let (b, _) ← nextItem second left
    return (a, b)

end Decoder

end EventStream.Cbor
