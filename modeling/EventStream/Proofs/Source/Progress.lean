import EventStream.Proofs.NumberOrder
import EventStream.Proofs.Source.Following
import Mathlib.Data.List.Induction

/-!
# Progress never goes backwards

The fraction that a reader reports lies between zero and one and never decreases from a start
to the next one. In between it is the largest of zero and the claims of the reader behind,
each forced into that range. What is not a number claims nothing.
-/

namespace EventStream

variable {φ ρ ς κ ν κ' ν' : Type}

namespace BoundedReader

open Binary64

/-- Claims taken over one after another leave the largest of zero and what they are forced to. -/
theorem isLargest_foldl_furthered (claims : List Binary64) :
    (claims.foldl furthered .zero).IsLargest (.zero :: clamped claims) := by
  induction claims using List.reverseRecOn with
  | nil => exact isLargest_singleton (by decide)
  | append_singleton claims claimed ih =>
      rw [List.foldl_concat, furthered, clamped, List.filter_append, List.map_append]
      cases h : claimed.isNaN with
      | true =>
          rw [clampUnit_of_isNaN h, max_of_isNaN ih.isNaN_eq_false h,
            List.filter_cons_of_neg (by simp [h]), List.filter_nil, List.map_nil, List.append_nil]
          exact ih
      | false =>
          rw [List.filter_cons_of_pos (by simp [h]), List.filter_nil, List.map_singleton]
          exact ih.concat (inUnit_clampUnit h).isNaN_eq_false

theorem furthered_atMost {p : Binary64} (hp : p.isNaN = false) (claimed : Binary64) :
    p.atMost (furthered p claimed) = true := by
  cases h : claimed.isNaN with
  | true =>
      rw [furthered, clampUnit_of_isNaN h, max_of_isNaN hp h]
      exact atMost_refl hp
  | false =>
      have largest := (isLargest_singleton hp).concat (inUnit_clampUnit h).isNaN_eq_false
      exact largest.atMost p (List.mem_append_left _ (List.mem_singleton_self p))

theorem foldl_furthered_atMost {p : Binary64} (hp : p.isNaN = false) (claims : List Binary64) :
    p.atMost (claims.foldl furthered p) = true := by
  induction claims generalizing p with
  | nil => exact atMost_refl hp
  | cons claimed rest ih =>
      have step := furthered_atMost hp claimed
      obtain ⟨_, b, _, hb, _⟩ := atMost_iff.1 step
      exact atMost_trans step (ih (isNaN_eq_false_iff.2 ⟨b, hb⟩))

variable {format : InputFormat φ ρ ς κ ν} {r : BoundedReader ρ ς κ ν κ' ν'} {w : φ}
  {outcome : Outcome φ ρ ς κ ν κ' ν' Bool}

/-- In the middle of a split the fraction is the progress made. -/
theorem fractionConsumed_of_not_done {behind : OpenReader ρ} (hd : r.done = false)
    (hr : r.reader = some behind) (hn : r.recordsReturned ≠ 0) :
    r.fractionConsumed = r.progress := by
  simp [fractionConsumed, hd, hr, hn]

theorem fractionConsumed_of_done (hd : r.done = true) : r.fractionConsumed = .one := if_pos hd

/-- The claims of the reader of the format in the first advances behind a start. -/
def claimsBefore (format : InputFormat φ ρ ς κ ν) (number : Nat) (opening : ρ × φ)
    (first : Outcome φ ρ ς κ ν κ' ν' Bool) (n : Nat) : List Binary64 :=
  Reply.claims (format.replies opening (.next number :: callsBefore format first.state n))

variable (format) in
theorem claimsBefore_succ (number : Nat) (opening : ρ × φ) (n : Nat) :
    ∃ more, claimsBefore format number opening outcome (n + 1) =
      claimsBefore format number opening outcome n ++ more := by
  rw [claimsBefore, callsBefore_succ, ← List.cons_append, format.replies_append,
    Reply.claims_append]
  exact ⟨_, rfl⟩

section Ok
variable (started : Started format r w outcome) {n : Nat}
include started

/-- Until the split is exhausted, the fraction is made of the claims. -/
theorem Started.fractionConsumed_eq (ho : outcome.result = .ok true) {opening : ρ × φ}
    (opens : OpensAt format r w opening)
    (hd : (afterAdvances format outcome.state n).1.done = false) :
    (afterAdvances format outcome.state n).1.fractionConsumed =
      (claimsBefore format r.opened opening outcome n).foldl furthered .zero := by
  have tracks := started.tracks_afterAdvances ho opens n
  obtain ⟨_, _, _, first, hc, _, one⟩ := started.tracks ho
  have later : Tracks format _ _ _ _ (afterAdvances format outcome.state n) :=
    BoundedReader.tracks_afterAdvances n hc first.reader
  have some_returned : (afterAdvances format outcome.state n).1.recordsReturned ≠ 0 := by
    rw [later.counted, one]
    exact Nat.ne_of_gt (Nat.lt_add_right _ Nat.one_pos)
  rw [fractionConsumed_of_not_done hd tracks.reader some_returned]
  exact tracks.progress

variable {available : Bool} (ho : outcome.result = .ok available)
include ho

theorem Started.isLargest_fractionConsumed (hd : ¬ Exhausted format outcome n) :
    ∃ opening, OpensAt format r w opening ∧
      (afterAdvances format outcome.state n).1.fractionConsumed.IsLargest
        (.zero :: clamped (claimsBefore format r.opened opening outcome n)) := by
  cases available with
  | false => exact absurd (.inl ho) hd
  | true =>
      obtain ⟨opening, opens, -⟩ := started.tracks ho
      refine ⟨opening, opens, ?_⟩
      rw [started.fractionConsumed_eq ho opens
        (Bool.eq_false_iff.2 fun h => hd ((started.done_iff ho n).1 h))]
      exact isLargest_foldl_furthered _

theorem Started.fractionConsumed_of_exhausted (hd : Exhausted format outcome n) :
    (afterAdvances format outcome.state n).1.fractionConsumed = .one :=
  fractionConsumed_of_done ((started.done_iff ho n).2 hd)

theorem Started.inUnit_fractionConsumed :
    (afterAdvances format outcome.state n).1.fractionConsumed.InUnit := by
  by_cases hd : Exhausted format outcome n
  · rw [started.fractionConsumed_of_exhausted ho hd]
    exact inUnit_one
  · obtain ⟨opening, -, largest⟩ := started.isLargest_fractionConsumed ho hd
    exact largest.inUnit fun y hy => inUnit_of_mem_clamped hy

/-- One more advance does not decrease the fraction. -/
theorem Started.fractionConsumed_atMost_succ :
    (afterAdvances format outcome.state n).1.fractionConsumed.atMost
      (afterAdvances format outcome.state (n + 1)).1.fractionConsumed = true := by
  have unit := started.inUnit_fractionConsumed ho (n := n)
  by_cases hd : Exhausted format outcome (n + 1)
  · rw [started.fractionConsumed_of_exhausted ho hd]
    exact unit.2
  · have amid : ¬ Exhausted format outcome n := fun h => hd (h.imp_right fun ⟨m, hm, hr⟩ =>
      ⟨m, Nat.lt_succ_of_lt hm, hr⟩)
    have going (k : Nat) (hk : ¬ Exhausted format outcome k) :
        (afterAdvances format outcome.state k).1.done = false :=
      Bool.eq_false_iff.2 fun h => hk ((started.done_iff ho k).1 h)
    cases available with
    | false => exact absurd (.inl ho) hd
    | true =>
        obtain ⟨opening, opens, -⟩ := started.tracks ho
        obtain ⟨more, hmore⟩ := claimsBefore_succ format r.opened opening n
        rw [started.fractionConsumed_eq ho opens (going n amid)] at unit ⊢
        rw [started.fractionConsumed_eq ho opens (going _ hd), hmore, List.foldl_append]
        exact foldl_furthered_atMost unit.isNaN_eq_false more

end Ok

/--
Whatever the reader of the format claims and whichever calls on it fail: from a start that succeeds
until the next start or close, the fraction lies between zero and one and never decreases. It is
zero right behind a start that found a record, and one as soon as there was none. In between it is
the largest of zero and the claims made since that start, those that are numbers, forced into the
range from zero to one.
-/
theorem fraction_never_decreases (format : InputFormat φ ρ ς κ ν)
    (r : BoundedReader ρ ς κ ν κ' ν') (w : φ) {available : Bool}
    (h : (start format (r, w)).result = .ok available) (n : Nat) :
    let first := start format (r, w)
    let fraction := fun k => (afterAdvances format first.state k).1.fractionConsumed
    (fraction n).InUnit ∧
      (∀ m ≤ n, (fraction m).atMost (fraction n) = true) ∧
      (available = true → fraction 0 = .zero) ∧
      (Exhausted format first n → fraction n = .one) ∧
      (¬ Exhausted format first n → ∃ opening, OpensAt format r w opening ∧
        (fraction n).IsLargest
          (.zero :: clamped (claimsBefore format r.opened opening first n))) := by
  intro first fraction
  have started := start_started format r w
  refine ⟨started.inUnit_fractionConsumed h, fun m hm => ?_, ?_,
    started.fractionConsumed_of_exhausted h, started.isLargest_fractionConsumed h⟩
  · induction hm with
    | refl => exact atMost_refl (started.inUnit_fractionConsumed h).isNaN_eq_false
    | step _ ih => exact atMost_trans ih (started.fractionConsumed_atMost_succ h)
  · rintro rfl
    obtain ⟨opening, opens, -, -, -, hd, -⟩ := started.tracks h
    -- before the first advance nothing has been claimed
    exact started.fractionConsumed_eq h opens (n := 0) hd

/--
A split of five records, whose reader claims a number below zero, one half, what is not a number,
one quarter, and infinity, with a failing read in between.
-/
def boastfulFormat : ScriptedFormat Nat Nat where
  splits := [⟨⟨"a", 1⟩, [
    { createError := none
      records := [.ok (some (1, 1)), .ok (some (2, 2)), .error "torn", .ok (some (3, 3)),
        .ok (some (4, 4)), .ok (some (5, 5)), .ok none]
      progress := [.ok ⟨0xbff0000000000000⟩, .ok ⟨0x3fe0000000000000⟩, .ok ⟨0x7ff8000000000000⟩,
        .ok ⟨0x3fd0000000000000⟩, .error "blind", .ok ⟨0x7ff0000000000000⟩]
      closeError := none }]⟩]
  splitsErrors := []

theorem fraction_never_decreases_boastfulFormat :
    let format := boastfulFormat.toInputFormat
    let first := start format (initial ⟨"a", 1⟩ id id, .initial)
    let fraction := fun k => (afterAdvances format first.state k).1.fractionConsumed
    first.result = .ok true ∧ fraction 0 = .zero ∧
      (fraction 1).atMost (fraction 5) = true ∧
      -- one half was claimed before a read that failed, and one quarter behind it
      (fraction 5).IsLargest [.zero, .zero, ⟨0x3fe0000000000000⟩, ⟨0x3fd0000000000000⟩] ∧
      fraction 9 = .one := by
  intro format first fraction
  have found : first.result = .ok true := rfl
  have along := fraction_never_decreases format (initial ⟨"a", 1⟩ id id) .initial found
  refine ⟨found, (along 0).2.2.1 rfl, (along 5).2.1 1 (by decide), ?_, ?_⟩
  · have going : ¬ Exhausted format first 5 := fun h =>
      Bool.false_ne_true (((start_started format _ _).done_iff found 5).2 h)
    obtain ⟨opening, opens, largest⟩ := (along 5).2.2.2.2 going
    have claimed : clamped (claimsBefore format 0 opening first 5) =
        [.zero, ⟨0x3fe0000000000000⟩, ⟨0x3fd0000000000000⟩] := by
      obtain ⟨state, world⟩ := opening
      obtain ⟨w₁, release, create⟩ := opens
      cases release
      cases create
      decide
    rw [← claimed]
    exact largest
  · exact (along 9).2.2.2.1 (.inr ⟨6, by decide, rfl⟩)

end BoundedReader

end EventStream
