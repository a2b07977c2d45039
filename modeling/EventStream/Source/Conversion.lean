import EventStream.Datum

/-!
# Conversions of free-form payloads

A source may convert the keys or values of its records on the way out. The
conversions below are total: each gives a payload for every payload.
-/

namespace EventStream

/-- A conversion of keys or values. -/
inductive Conversion where
  /-- The payload's text. -/
  | text
  /-- A list of the payload alone. -/
  | wrap
  /-- The opposite of an integer; other payloads stay. -/
  | negate
  /-- One and the same payload for all. -/
  | const (value : Datum)
  /-- The payload's text behind a fixed start. -/
  | prepend (start : String)

/-- The opposite of a signed 64-bit integer; the smallest one is its own opposite. -/
def negateWord (n : Int) : Int := if n = -9223372036854775808 then n else -n

/-- A payload converted. Only integers that fit a signed 64-bit word are negated. -/
def Conversion.apply : Conversion → Datum → Datum
  | text, d => .str d.text
  | wrap, d => .list [d]
  | negate, .int n =>
    if -9223372036854775808 ≤ n ∧ n ≤ 9223372036854775807 then .int (negateWord n) else .int n
  | negate, d => d
  | const value, _ => value
  | prepend start, d => .str (start ++ d.text)

end EventStream
