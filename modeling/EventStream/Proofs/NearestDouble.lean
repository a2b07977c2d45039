import EventStream.Binary64
import Mathlib.Algebra.Order.Field.Basic
import Mathlib.Algebra.Order.Field.Rat
import Mathlib.Data.Rat.Lemmas

/-!
# Quotients as doubles

A quotient from zero to one is rounded by integers alone. What it is rounded to depends on the
quotient and not on the two numbers that are divided, so that it can be told from the exact
fraction. Numbers up to `2 ^ 53` are doubles themselves, and their quotient is rounded only once.
-/

namespace EventStream.Binary64

/-! ## Rounding to an integer -/

/-- A common factor does not change how a quotient is rounded. -/
theorem roundedQuotient_mul_left {c : Nat} (hc : 0 < c) (n d : Nat) :
    roundedQuotient (c * n) (c * d) = roundedQuotient n d := by
  have below : 2 * (c * (n % d)) < c * d ↔ 2 * (n % d) < d := by
    rw [Nat.mul_left_comm, Nat.mul_lt_mul_left hc]
  have above : c * d < 2 * (c * (n % d)) ↔ d < 2 * (n % d) := by
    rw [Nat.mul_left_comm, Nat.mul_lt_mul_left hc]
  simp only [roundedQuotient, Nat.mul_div_mul_left _ _ hc, Nat.mul_mod_mul_left, below, above]

theorem roundedQuotient_one (n : Nat) : roundedQuotient n 1 = n := by
  simp [roundedQuotient, Nat.mod_one]

/-! ## The shift of a quotient -/

/-- A shift brings a quotient to 53 bits if it lies between the two powers of two. -/
structure Normalizes (n d shift : Nat) : Prop where
  lower : d * 2 ^ 52 ≤ n * 2 ^ shift
  upper : n * 2 ^ shift < d * 2 ^ 53

variable {n d shift : Nat}

/-- No other shift brings a quotient to 53 bits. -/
theorem Normalizes.unique {shift' : Nat} (h : Normalizes n d shift) (h' : Normalizes n d shift') :
    shift = shift' := by
  have least {s t : Nat} (hs : d * 2 ^ 52 ≤ n * 2 ^ s) (ht : n * 2 ^ t < d * 2 ^ 53) : t ≤ s := by
    by_contra more
    have step : n * 2 ^ (s + 1) ≤ n * 2 ^ t :=
      Nat.mul_le_mul_left n (Nat.pow_le_pow_right Nat.two_pos (by omega))
    rw [Nat.pow_succ, ← Nat.mul_assoc] at step
    omega
  exact Nat.le_antisymm (least h'.lower h.upper) (least h.lower h'.upper)

theorem normalizes_mul_left_iff {c : Nat} (hc : 0 < c) :
    Normalizes (c * n) (c * d) shift ↔ Normalizes n d shift := by
  constructor
  · rintro ⟨lower, upper⟩
    rw [Nat.mul_assoc, Nat.mul_assoc] at lower upper
    exact ⟨Nat.le_of_mul_le_mul_left lower hc, Nat.lt_of_mul_lt_mul_left upper⟩
  · rintro ⟨lower, upper⟩
    refine ⟨?_, ?_⟩ <;> rw [Nat.mul_assoc, Nat.mul_assoc]
    · exact Nat.mul_le_mul_left c lower
    · exact Nat.mul_lt_mul_of_pos_left upper hc

/-- The shift chosen for a quotient from zero to one brings it to 53 bits. -/
theorem normalizes_ratioShift (hn : 0 < n) (h : n ≤ d) : Normalizes n d (ratioShift n d) := by
  have hd : 0 < d := Nat.lt_of_lt_of_le hn h
  have logs : n.log2 ≤ d.log2 := (Nat.le_log2 hd.ne').2 (Nat.le_trans (Nat.log2_self_le hn.ne') h)
  obtain ⟨s, hs⟩ : ∃ s, s = 52 + d.log2 - n.log2 := ⟨_, rfl⟩
  have low : 2 ^ (52 + d.log2) ≤ n * 2 ^ s :=
    calc 2 ^ (52 + d.log2) = 2 ^ n.log2 * 2 ^ s := by rw [← Nat.pow_add]; congr 1; omega
      _ ≤ n * 2 ^ s := Nat.mul_le_mul_right _ (Nat.log2_self_le hn.ne')
  have high : n * 2 ^ s < d * 2 ^ 53 :=
    calc n * 2 ^ s < 2 ^ (n.log2 + 1) * 2 ^ s :=
          Nat.mul_lt_mul_of_pos_right Nat.lt_log2_self (Nat.two_pow_pos s)
      _ = 2 ^ d.log2 * 2 ^ 53 := by rw [← Nat.pow_add, ← Nat.pow_add]; congr 1; omega
      _ ≤ d * 2 ^ 53 := Nat.mul_le_mul_right _ (Nat.log2_self_le hd.ne')
  have double : d * 2 ^ 52 < 2 * 2 ^ (52 + d.log2) :=
    calc d * 2 ^ 52 < 2 ^ (d.log2 + 1) * 2 ^ 52 :=
          Nat.mul_lt_mul_of_pos_right Nat.lt_log2_self (Nat.two_pow_pos 52)
      _ = 2 * 2 ^ (52 + d.log2) := by rw [← Nat.pow_add, ← Nat.pow_succ']; congr 1; omega
  simp only [ratioShift, ← hs, Nat.shiftLeft_eq]
  split
  case isFalse enough => exact ⟨Nat.le_of_not_lt enough, high⟩
  case isTrue short =>
    -- the logarithms leave one bit open, and here it is missing
    have next : n * 2 ^ (s + 1) = 2 * (n * 2 ^ s) := by
      rw [Nat.pow_succ', Nat.mul_left_comm]
    refine ⟨?_, ?_⟩ <;> rw [next] <;> omega

/-! ## Quotients -/

/-- A quotient is rounded at the shift that brings it to 53 bits. -/
theorem ofRatio_of_normalizes (hn : 0 < n) (h : n ≤ d) (normalizes : Normalizes n d shift) :
    ofRatio n d =
      ⟨.ofNat (((1023 + 52 - shift) <<< 52) +
        (roundedQuotient (n * 2 ^ shift) d - (1 <<< 52)))⟩ := by
  rw [ofRatio, if_neg hn.ne', (normalizes_ratioShift hn h).unique normalizes]
  simp only [Nat.shiftLeft_eq n]

/-- A common factor does not change the double that is nearest to a quotient. -/
theorem ofRatio_mul_left {c : Nat} (hc : 0 < c) (h : n ≤ d) :
    ofRatio (c * n) (c * d) = ofRatio n d := by
  rcases Nat.eq_zero_or_pos n with rfl | hn
  · rw [Nat.mul_zero, ofRatio, ofRatio, if_pos rfl, if_pos rfl]
  · have normalizes := normalizes_ratioShift hn h
    rw [ofRatio_of_normalizes hn h normalizes,
      ofRatio_of_normalizes (Nat.mul_pos hc hn) (Nat.mul_le_mul_left c h)
        ((normalizes_mul_left_iff hc).2 normalizes),
      Nat.mul_assoc, roundedQuotient_mul_left hc]

/-- Equal quotients have the same nearest double. -/
theorem ofRatio_congr {n' d' : Nat} (hd : 0 < d) (hd' : 0 < d') (h : n ≤ d) (h' : n' ≤ d')
    (same : n * d' = n' * d) : ofRatio n d = ofRatio n' d' :=
  calc ofRatio n d = ofRatio (d' * n) (d' * d) := (ofRatio_mul_left hd' h).symm
    _ = ofRatio (d * n') (d * d') := by
        rw [Nat.mul_comm d' n, same, Nat.mul_comm n' d, Nat.mul_comm d' d]
    _ = ofRatio n' d' := ofRatio_mul_left hd h'

/-- The double nearest to a fraction from zero to one. -/
def nearest (q : ℚ) : Binary64 := ofRatio q.num.toNat q.den

/-- The double nearest to a quotient is told from the quotient alone. -/
theorem ofRatio_eq_nearest (hd : 0 < d) (h : n ≤ d) : ofRatio n d = nearest ((n : ℚ) / d) := by
  obtain ⟨q, hq⟩ : ∃ q : ℚ, q = n / d := ⟨_, rfl⟩
  have nonneg : 0 ≤ q := hq ▸ div_nonneg (Nat.cast_nonneg n) (Nat.cast_nonneg d)
  obtain ⟨m, hm⟩ := Int.eq_ofNat_of_zero_le (Rat.num_nonneg.2 nonneg)
  have same : n * q.den = m * d := by
    have terms : (n : ℚ) / d = m / q.den := by rw [← hq, ← Int.cast_natCast m, ← hm, q.num_div_den]
    rw [div_eq_div_iff (Nat.cast_ne_zero.2 hd.ne') (Nat.cast_ne_zero.2 q.den_ne_zero)] at terms
    exact_mod_cast terms
  have m_le : m ≤ q.den := by
    refine Nat.le_of_mul_le_mul_right ?_ hd
    rw [← same, Nat.mul_comm q.den]
    exact Nat.mul_le_mul_right _ h
  rw [← hq, nearest, hm, Int.toNat_natCast]
  exact ofRatio_congr hd q.den_pos h m_le same

/-- Up to `2 ^ 53`, a natural number is a double itself. -/
theorem nearestNat_of_le (h : n ≤ 2 ^ 53) : nearestNat n = n := by
  rcases Nat.lt_or_eq_of_le h with lt | rfl
  · have shift : n.log2 - 52 = 0 := by
      rcases Nat.eq_zero_or_pos n with rfl | hn
      · rfl
      · have log := (Nat.log2_lt hn.ne').2 lt
        omega
    simp only [nearestNat, shift, Nat.shiftLeft_zero, roundedQuotient_one]
  · rfl

/-- Doubles that are natural numbers are divided with one rounding, up to `2 ^ 53`. -/
theorem quotient_eq_nearest (hd : 0 < d) (h : n ≤ d) (small : d ≤ 2 ^ 53) :
    quotient n d = nearest ((n : ℚ) / d) := by
  rw [quotient, nearestNat_of_le (Nat.le_trans h small), nearestNat_of_le small,
    ofRatio_eq_nearest hd h]

end EventStream.Binary64
