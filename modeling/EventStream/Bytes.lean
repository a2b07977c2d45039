/-!
# Byte strings

Bytes as lists, numbers in big-endian order and text in UTF-8. Reading a number
or a text back gives what was written.

The start of a longer text is looked at in pieces. A piece may end inside a
character, whose first bytes then open the next piece.
-/

namespace EventStream

/-- A byte string. -/
abbrev Bytes := List UInt8

namespace Bytes

/-- The low `width` bytes of a number, most significant first. -/
def ofNat : (width : Nat) → Nat → Bytes
  | 0, _ => []
  | width + 1, n => ofNat width (n / 256) ++ [.ofNat n]

/-- The number that bytes spell, most significant first. -/
def toNat (bytes : Bytes) : Nat := bytes.foldl (fun n b => n * 256 + b.toNat) 0

@[simp] theorem length_ofNat (width n : Nat) : (ofNat width n).length = width := by
  induction width generalizing n with
  | zero => rfl
  | succ width ih => simp [ofNat, ih]

@[simp] theorem toNat_nil : toNat [] = 0 := rfl

theorem toNat_append_singleton (bytes : Bytes) (b : UInt8) :
    toNat (bytes ++ [b]) = toNat bytes * 256 + b.toNat := by
  simp [toNat]

/-- The UTF-8 bytes of a text. -/
def ofString (s : String) : Bytes := s.toByteArray.data.toList

/-- The text whose UTF-8 bytes these are, if there is one. -/
def toString? (bytes : Bytes) : Option String := String.fromUTF8? ⟨bytes.toArray⟩

@[simp] theorem toString?_ofString (s : String) : toString? (ofString s) = some s := by
  exact dif_pos s.isValidUTF8

/-! ## The start of a longer text -/

/--
The bytes behind the longest text that bytes start with, if there are at most three of them:
as many as a character that is cut off can have.
-/
def afterText? (bytes : Bytes) : Option Bytes :=
  [0, 1, 2, 3].findSome? fun n =>
    (toString? (bytes.take (bytes.length - n))).map fun _ => bytes.drop (bytes.length - n)

@[simp] theorem afterText?_ofString (s : String) : afterText? (ofString s) = some [] := by
  simp [afterText?]

/-- The number of bytes of a text that are looked at together. -/
def pieceWidth : Nat := 4096

/-- Whether one of the first full pieces of a text, at most `limit` of them, is no text. -/
def isBrokenAmong : (limit : Nat) → Bytes → Bool
  | 0, _ => false
  | limit + 1, bytes =>
    if bytes.length < pieceWidth then false
    else
      match afterText? (bytes.take pieceWidth) with
      | some begun => isBrokenAmong limit (begun ++ bytes.drop pieceWidth)
      | none => true

/-- Whether bytes cannot start a text. What is left behind the last full piece is not looked at. -/
def isBroken (bytes : Bytes) : Bool := isBrokenAmong bytes.length bytes

/-- Whether one byte string is listed before another: by the first byte that differs. -/
def before (a b : Bytes) : Bool := decide (a ≤ b)

end Bytes

end EventStream
