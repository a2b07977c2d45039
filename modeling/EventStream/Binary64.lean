/-!
# Double-precision numbers by their bits

A double is kept as its 64 bits. Comparing doubles is comparing integers: the
number that the bits spell below the sign, negated if the sign is set, so that
both zeros agree. What is not a number has no such key and is neither less nor
greater than anything.
-/

namespace EventStream

/-- A double-precision number, by its IEEE 754 bits. -/
structure Binary64 where
  bits : UInt64
deriving DecidableEq

namespace Binary64

/-- Positive zero. -/
def zero : Binary64 := ⟨0⟩

/-- The number one. -/
def one : Binary64 := ⟨0x3ff0000000000000⟩

/-- The bits below the sign. -/
def magnitude (x : Binary64) : Nat := x.bits.toNat % 0x8000000000000000

/-- Whether the sign bit is set. -/
def isNegative (x : Binary64) : Bool := decide (0x8000000000000000 ≤ x.bits.toNat)

/-- Whether the bits spell something that is not a number. -/
def isNaN (x : Binary64) : Bool := decide (0x7ff0000000000000 < x.magnitude)

/-- The place of a number in the order of numbers, none if it is not a number. -/
def key (x : Binary64) : Option Int :=
  if x.isNaN then none
  else if x.isNegative then some (-(x.magnitude : Int))
  else some x.magnitude

/-- Whether one number is less than another; never true of what is not a number. -/
def less (x y : Binary64) : Bool :=
  match x.key, y.key with
  | some a, some b => decide (a < b)
  | _, _ => false

/-- Whether two doubles are equal as numbers; never true of what is not a number. -/
def same (x y : Binary64) : Bool :=
  match x.key, y.key with
  | some a, some b => decide (a = b)
  | _, _ => false

theorem key_eq_none_iff {x : Binary64} : x.key = none ↔ x.isNaN = true := by
  unfold key
  split
  · simp [*]
  · split <;> simp_all

/-- A number forced into the range from zero to one. What is not a number stays. -/
def clampUnit (x : Binary64) : Binary64 :=
  if x.less zero then zero else if one.less x then one else x

/-- The larger of two numbers. What is not a number gives way to the other one. -/
def max (x y : Binary64) : Binary64 :=
  if x.isNaN then y else if y.isNaN then x else if x.less y then y else x

/-- The double with its sign dropped if it is a zero. -/
def unsignZero (x : Binary64) : Binary64 := if x.magnitude = 0 then zero else x

/-- The quotient `n / d`, rounded to an integer; half a unit goes to the even neighbour. -/
def roundedQuotient (n d : Nat) : Nat :=
  let q := n / d
  let r := n % d
  if 2 * r < d then q else if d < 2 * r then q + 1 else q + q % 2

/-- The least shift for which the quotient `n / d`, from zero to one, has 53 bits or more. -/
def ratioShift (n d : Nat) : Nat :=
  let shift := 52 + d.log2 - n.log2
  if n <<< shift < d <<< 52 then shift + 1 else shift

/-- The double nearest to `n / d`, for a quotient from zero to one. -/
def ofRatio (n d : Nat) : Binary64 :=
  if n = 0 then zero
  else
    let shift := ratioShift n d
    let significand := roundedQuotient (n <<< shift) d
    ⟨.ofNat (((1023 + 52 - shift) <<< 52) + (significand - (1 <<< 52)))⟩

/-- The double nearest to a natural number, which is a natural number again. -/
def nearestNat (n : Nat) : Nat :=
  let shift := n.log2 - 52
  roundedQuotient n (1 <<< shift) <<< shift

/--
The quotient of two natural numbers as doubles, for a quotient from zero to one. Both numbers are
rounded before they are divided, and the quotient is rounded again.
-/
def quotient (n d : Nat) : Binary64 := ofRatio (nearestNat n) (nearestNat d)

end Binary64

end EventStream
