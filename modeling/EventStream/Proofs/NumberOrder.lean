import EventStream.Binary64

/-!
# The order of numbers

Doubles that are numbers are ordered by their keys. The largest of some numbers is told by
comparisons alone, and it is what remains if they are taken over one after another, each only
if it is larger.
-/

namespace EventStream

namespace Binary64

/-- Whether a number is at most another one; never true of what is not a number. -/
def atMost (x y : Binary64) : Bool := x.less y || x.same y

/-- A number from zero to one. -/
def InUnit (x : Binary64) : Prop := zero.atMost x = true ∧ x.atMost one = true

/-- A number that is the same as one of some numbers, and at least as large as all of them. -/
structure IsLargest (x : Binary64) (xs : List Binary64) : Prop where
  same : ∃ y ∈ xs, x.same y = true
  atMost : ∀ y ∈ xs, y.atMost x = true

/-- The numbers among some doubles, forced into the range from zero to one. -/
def clamped (xs : List Binary64) : List Binary64 :=
  (xs.filter fun x => !x.isNaN).map clampUnit

/-- The place of one in the order of numbers. -/
def oneKey : Int := 0x3ff0000000000000

@[simp] theorem key_zero : zero.key = some 0 := by decide

@[simp] theorem key_one : one.key = some oneKey := by decide

variable {x y : Binary64} {xs : List Binary64} {a b : Int}

/-- Numbers, and only those, have a place in the order. -/
theorem isNaN_eq_false_iff : x.isNaN = false ↔ ∃ a, x.key = some a := by
  rw [← Option.ne_none_iff_exists', ne_eq, key_eq_none_iff, Bool.not_eq_true]

/-- Numbers are compared by their places. -/
theorem atMost_iff : x.atMost y = true ↔ ∃ a b, x.key = some a ∧ y.key = some b ∧ a ≤ b := by
  unfold atMost less same
  cases x.key <;> cases y.key <;> simp [← Int.le_iff_lt_or_eq]

/-- Numbers are equal if they have the same place. -/
theorem same_iff : x.same y = true ↔ ∃ a, x.key = some a ∧ y.key = some a := by
  unfold same
  cases x.key <;> cases y.key <;> simp [eq_comm]

theorem atMost_refl (h : x.isNaN = false) : x.atMost x = true := by
  obtain ⟨a, ha⟩ := isNaN_eq_false_iff.1 h
  exact atMost_iff.2 ⟨a, a, ha, ha, Int.le_refl a⟩

theorem atMost_trans {z : Binary64} (h : x.atMost y = true) (h' : y.atMost z = true) :
    x.atMost z = true := by
  obtain ⟨a, b, ha, hb, hab⟩ := atMost_iff.1 h
  obtain ⟨b', c, hb', hc, hbc⟩ := atMost_iff.1 h'
  cases hb.symm.trans hb'
  exact atMost_iff.2 ⟨a, c, ha, hc, Int.le_trans hab hbc⟩

/-- The unit range is a range of places. -/
theorem inUnit_iff : x.InUnit ↔ ∃ a, x.key = some a ∧ 0 ≤ a ∧ a ≤ oneKey := by
  simp only [InUnit, atMost_iff, key_zero, key_one, Option.some.injEq]
  constructor
  · rintro ⟨⟨_, a, rfl, ha, hle⟩, a', _, ha', rfl, hle'⟩
    cases ha.symm.trans ha'
    exact ⟨a, ha, hle, hle'⟩
  · rintro ⟨a, ha, hle, hle'⟩
    exact ⟨⟨0, a, rfl, ha, hle⟩, a, oneKey, ha, rfl, hle'⟩

theorem InUnit.isNaN_eq_false (h : x.InUnit) : x.isNaN = false := by
  obtain ⟨a, ha, -⟩ := inUnit_iff.1 h
  exact isNaN_eq_false_iff.2 ⟨a, ha⟩

theorem inUnit_zero : zero.InUnit := inUnit_iff.2 ⟨0, by decide, by decide, by decide⟩

theorem inUnit_one : one.InUnit := inUnit_iff.2 ⟨oneKey, by decide, by decide, by decide⟩

/-- A number that was clamped lies in the unit range. -/
theorem inUnit_clampUnit (h : x.isNaN = false) : x.clampUnit.InUnit := by
  obtain ⟨a, ha⟩ := isNaN_eq_false_iff.1 h
  simp only [clampUnit, less, ha, key_zero, key_one, decide_eq_true_eq]
  split
  · exact inUnit_zero
  · split
    · exact inUnit_one
    · exact inUnit_iff.2 ⟨a, ha, by omega, by omega⟩

/-- What is not a number is not clamped. -/
theorem clampUnit_of_isNaN (h : x.isNaN = true) : x.clampUnit = x := by
  have none : x.key = none := key_eq_none_iff.2 h
  simp [clampUnit, less, none]

/-- What is not a number gives way. -/
theorem max_of_isNaN (hx : x.isNaN = false) (hy : y.isNaN = true) : x.max y = x := by
  simp [Binary64.max, hx, hy]

/-- The larger of two numbers has the larger place. -/
theorem key_max (hx : x.key = some a) (hy : y.key = some b) :
    (x.max y).key = some (Max.max a b) := by
  have numbers : x.isNaN = false ∧ y.isNaN = false :=
    ⟨isNaN_eq_false_iff.2 ⟨a, hx⟩, isNaN_eq_false_iff.2 ⟨b, hy⟩⟩
  simp only [Binary64.max, numbers, less, hx, hy, decide_eq_true_eq, Bool.false_eq_true, if_false]
  split
  · rw [hy, Int.max_eq_right (by omega)]
  · rw [hx, Int.max_eq_left (by omega)]

/-! ## The largest of some numbers -/

theorem IsLargest.isNaN_eq_false (h : x.IsLargest xs) : x.isNaN = false := by
  obtain ⟨y, -, hs⟩ := h.same
  obtain ⟨a, ha, -⟩ := same_iff.1 hs
  exact isNaN_eq_false_iff.2 ⟨a, ha⟩

theorem isLargest_singleton (h : x.isNaN = false) : x.IsLargest [x] := by
  obtain ⟨a, ha⟩ := isNaN_eq_false_iff.1 h
  exact ⟨⟨x, List.mem_singleton_self x, same_iff.2 ⟨a, ha, ha⟩⟩,
    List.forall_mem_singleton.2 (atMost_refl h)⟩

/-- The largest number of a list gives way to a larger one behind it. -/
theorem IsLargest.concat (h : x.IsLargest xs) (hy : y.isNaN = false) :
    (x.max y).IsLargest (xs ++ [y]) := by
  obtain ⟨a, ha⟩ := isNaN_eq_false_iff.1 h.isNaN_eq_false
  obtain ⟨b, hb⟩ := isNaN_eq_false_iff.1 hy
  have larger := key_max ha hb
  constructor
  · rcases Int.le_total a b with hle | hle
    · rw [Int.max_eq_right hle] at larger
      exact ⟨y, List.mem_append_right xs (List.mem_singleton_self y), same_iff.2 ⟨b, larger, hb⟩⟩
    · rw [Int.max_eq_left hle] at larger
      obtain ⟨z, hz, hs⟩ := h.same
      obtain ⟨c, hc, hzc⟩ := same_iff.1 hs
      cases ha.symm.trans hc
      exact ⟨z, List.mem_append_left [y] hz, same_iff.2 ⟨a, larger, hzc⟩⟩
  · rw [List.forall_mem_append, List.forall_mem_singleton]
    refine ⟨fun z hz => atMost_trans (h.atMost z hz) ?_, ?_⟩
    · exact atMost_iff.2 ⟨a, _, ha, larger, Int.le_max_left a b⟩
    · exact atMost_iff.2 ⟨b, _, hb, larger, Int.le_max_right a b⟩

/-- The largest of numbers from zero to one is one of them. -/
theorem IsLargest.inUnit (h : x.IsLargest xs) (hxs : ∀ y ∈ xs, y.InUnit) : x.InUnit := by
  obtain ⟨y, hy, hs⟩ := h.same
  obtain ⟨a, ha, hya⟩ := same_iff.1 hs
  obtain ⟨b, hb, bounds⟩ := inUnit_iff.1 (hxs y hy)
  cases hya.symm.trans hb
  exact inUnit_iff.2 ⟨a, ha, bounds⟩

theorem inUnit_of_mem_clamped (h : x ∈ zero :: clamped xs) : x.InUnit := by
  rcases List.mem_cons.1 h with rfl | h
  · exact inUnit_zero
  · obtain ⟨y, hy, rfl⟩ := List.mem_map.1 h
    exact inUnit_clampUnit (by simpa using (List.mem_filter.1 hy).2)

end Binary64

end EventStream
