/-!
# Event time

A timestamp counts milliseconds and fits a signed 64-bit word. The two ends of
that range are sentinels: the smallest value stands for "nothing is known yet",
the largest for the minimum of an empty set of timestamps.

## Implementation notes

The count is an integer with its two bounds as fields, so that comparisons of
timestamps are comparisons of integers and the range never has to be assumed.
-/

namespace EventStream

/-- A point of event time in milliseconds, within the signed 64-bit range. -/
structure Timestamp where
  millis : Int
  lower : -9223372036854775808 ≤ millis
  upper : millis ≤ 9223372036854775807
deriving DecidableEq

namespace Timestamp

@[ext] theorem ext {a b : Timestamp} (h : a.millis = b.millis) : a = b := by
  cases a; cases b; cases h; rfl

/-- The timestamp with the given count, if the count is in range. -/
def ofInt? (millis : Int) : Option Timestamp :=
  if h : -9223372036854775808 ≤ millis ∧ millis ≤ 9223372036854775807 then
    some ⟨millis, h.1, h.2⟩
  else
    none

/-- A number of milliseconds is a timestamp just when one has that many. -/
theorem ofInt?_eq_some_iff {n : Int} {t : Timestamp} : ofInt? n = some t ↔ t.millis = n := by
  unfold ofInt?
  constructor
  · intro h
    split at h
    · cases h; rfl
    · cases h
  · rintro rfl
    rw [dif_pos ⟨t.lower, t.upper⟩]

@[simp] theorem ofInt?_millis (t : Timestamp) : ofInt? t.millis = some t :=
  ofInt?_eq_some_iff.2 rfl

/-- Negative infinity: a watermark that is not known yet. -/
def minValue : Timestamp := ⟨-9223372036854775808, by decide, by decide⟩

/-- Positive infinity: the minimum over no timestamps. -/
def maxValue : Timestamp := ⟨9223372036854775807, by decide, by decide⟩

/-- The start of event time counting. -/
def zero : Timestamp := ⟨0, by decide, by decide⟩

instance : Inhabited Timestamp := ⟨zero⟩
instance : LE Timestamp := ⟨fun a b => a.millis ≤ b.millis⟩
instance : LT Timestamp := ⟨fun a b => a.millis < b.millis⟩
instance (a b : Timestamp) : Decidable (a ≤ b) := inferInstanceAs (Decidable (a.millis ≤ b.millis))
instance (a b : Timestamp) : Decidable (a < b) := inferInstanceAs (Decidable (a.millis < b.millis))
instance : Ord Timestamp := ⟨fun a b => compare a.millis b.millis⟩
instance : Min Timestamp := minOfLe

theorem le_iff {a b : Timestamp} : a ≤ b ↔ a.millis ≤ b.millis := Iff.rfl

theorem lt_iff {a b : Timestamp} : a < b ↔ a.millis < b.millis := Iff.rfl

theorem millis_min (a b : Timestamp) : (min a b).millis = min a.millis b.millis := by
  simp only [min, le_iff]
  split <;> simp_all

theorem minValue_le (t : Timestamp) : minValue ≤ t := t.lower

theorem le_maxValue (t : Timestamp) : t ≤ maxValue := t.upper

/-- Whether a timestamp is positive infinity. -/
def isMax (t : Timestamp) : Bool := t == maxValue

/-- Written form: the sentinels as signed infinities, all others in decimal. -/
def text (t : Timestamp) : String :=
  if t = minValue then "-inf"
  else if t = maxValue then "+inf"
  else toString t.millis

/-- The smallest of a list of timestamps, positive infinity for the empty list. -/
def minimum (ts : List Timestamp) : Timestamp := ts.foldr min maxValue

@[simp] theorem minimum_nil : minimum [] = maxValue := rfl

@[simp] theorem minimum_cons (t : Timestamp) (ts : List Timestamp) :
    minimum (t :: ts) = min t (minimum ts) := rfl

/-- A timestamp is at most the minimum just when it is at most each of the list. -/
theorem le_minimum_iff {t : Timestamp} {ts : List Timestamp} :
    t ≤ minimum ts ↔ ∀ s ∈ ts, t ≤ s := by
  induction ts with
  | nil => simp [le_maxValue]
  | cons s rest ih =>
      simp only [minimum_cons, le_iff, millis_min, List.forall_mem_cons] at ih ⊢
      rw [← ih]
      omega

end Timestamp

end EventStream
