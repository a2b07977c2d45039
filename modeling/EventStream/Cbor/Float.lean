import EventStream.Binary64

/-!
# Shorter floating-point formats

A double may travel in the half or single format if it comes back with the same
bits. Widening is exact on numbers; what is not a number keeps its leading bits
and becomes quiet.

## Implementation notes

Narrowing guesses the one pattern that can work and checks it by widening, so a
narrowed number comes back unchanged by construction.
-/

namespace EventStream.Cbor

/-- A binary floating-point format by the widths of its two fields below the sign. -/
structure FloatFormat where
  exponentBits : Nat
  fractionBits : Nat

namespace FloatFormat

/-- The half-precision format. -/
def half : FloatFormat := ⟨5, 10⟩

/-- The single-precision format. -/
def single : FloatFormat := ⟨8, 23⟩

variable (f : FloatFormat)

/-- The exponent of one. -/
def bias : Nat := (1 <<< (f.exponentBits - 1)) - 1

/-- The double that a pattern of this format stands for. -/
def widen (pattern : Nat) : Binary64 :=
  let sign := (pattern >>> (f.exponentBits + f.fractionBits)) % 2
  let exponent := (pattern >>> f.fractionBits) % (1 <<< f.exponentBits)
  let fraction := pattern % (1 <<< f.fractionBits)
  let below :=
    if exponent = (1 <<< f.exponentBits) - 1 then
      if fraction = 0 then 0x7ff0000000000000
      else 0x7ff8000000000000 ||| (fraction <<< (52 - f.fractionBits))
    else if exponent = 0 then
      if fraction = 0 then 0
      else
        let lead := fraction.log2
        ((lead + 1024 - f.bias - f.fractionBits) <<< 52) +
          ((fraction - (1 <<< lead)) <<< (52 - lead))
    else ((exponent + 1023 - f.bias) <<< 52) + (fraction <<< (52 - f.fractionBits))
  ⟨.ofNat ((sign <<< 63) + below)⟩

/-- The only pattern of this format that can stand for the double. -/
def candidate (x : Binary64) : Nat :=
  let sign := if x.isNegative then 1 else 0
  let exponent := x.magnitude >>> 52
  let fraction := x.magnitude % (1 <<< 52)
  let below :=
    if exponent = 2047 then
      (((1 <<< f.exponentBits) - 1) <<< f.fractionBits) + (fraction >>> (52 - f.fractionBits))
    else if 1023 < exponent + f.bias then
      ((exponent + f.bias - 1023) <<< f.fractionBits) + (fraction >>> (52 - f.fractionBits))
    else ((1 <<< 52) + fraction) >>> (52 - f.fractionBits + (1024 - f.bias - exponent))
  (sign <<< (f.exponentBits + f.fractionBits)) + below

/-- The pattern of this format that stands for exactly this double, if there is one. -/
def narrow? (x : Binary64) : Option Nat :=
  if f.widen (f.candidate x) = x then some (f.candidate x) else none

end FloatFormat

end EventStream.Cbor
