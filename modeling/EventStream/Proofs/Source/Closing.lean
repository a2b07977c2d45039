import EventStream.Proofs.Source.FailedStart
import EventStream.Source.MemoryFormat

/-!
# Closing a reader

A reader that is closed answers every later call alike and does nothing any more. What it has
counted can still be asked for.

The fraction is told from the reader of the format, which is let go of. It outlasts the close of
a reader whose split was exhausted, and falls back to zero in the middle of a split.
-/

namespace EventStream

variable {φ ρ ς κ ν κ' ν' : Type}

namespace BoundedReader

/-- A reader that, if it is closed, holds no reader of the format and shows no record. -/
structure Vacant (r : BoundedReader ρ ς κ ν κ' ν') : Prop where
  settled : r.Settled
  current : r.closed = true → r.current = none

variable {format : InputFormat φ ρ ς κ ν} {r : BoundedReader ρ ς κ ν κ' ν'} {w : φ}

/-- Without a reader of the format, the fraction is told by whether the split was exhausted. -/
theorem fractionConsumed_of_reader_eq_none (hr : r.reader = none) :
    r.fractionConsumed = if r.splitPointsRemaining = 0 then .one else .zero := by
  cases hd : r.done <;> simp [fractionConsumed, splitPointsRemaining, hr, hd]

theorem fractionConsumed_of_exhausted (h : r.splitPointsRemaining = 0) :
    r.fractionConsumed = .one := by
  cases hd : r.done with
  | true => exact if_pos hd
  | false => simp [splitPointsRemaining, hd] at h

theorem Performed.vacant {s : BoundedReader ρ ς κ ν κ' ν' × φ} {effects : List (SourceEffect ς)}
    (performed : Performed format r w s effects) (hr : r.Vacant) : s.1.Vacant := by
  refine ⟨performed.settled hr.settled, fun hs => ?_⟩
  cases hc : r.closed with
  | true => rw [(performed.of_closed hc).1, hr.current hc]
  | false =>
      -- only a close closes a reader that was not closed before
      cases performed with
      | started h => exact absurd ((h.closed_eq.trans hc).symm.trans hs) Bool.false_ne_true
      | advanced h => exact absurd ((h.closed_eq.trans hc).symm.trans hs) Bool.false_ne_true
      | ended h =>
          cases h with
          | again h => simp [h] at hc
          | ended h release => rfl

theorem performAll_vacant (format : InputFormat φ ρ ς κ ν) {s : BoundedReader ρ ς κ ν κ' ν' × φ}
    (hs : s.1.Vacant) (commands : List Command) : (performAll format s commands).1.Vacant := by
  induction commands generalizing s with
  | nil => exact hs
  | cons c rest ih => exact ih ((perform_performed format c s).vacant hs)

/-- Nothing changes any more in a reader that is closed. -/
theorem performAll_of_closed (format : InputFormat φ ρ ς κ ν)
    {s : BoundedReader ρ ς κ ν κ' ν' × φ} (h : s.1.closed = true) (commands : List Command) :
    performAll format s commands = s := by
  induction commands with
  | nil => rfl
  | cons c rest ih =>
      rw [performAll, List.foldl_cons, ((perform_performed format c s).of_closed h).1]
      exact ih

/-- What a reader tells right behind a close. -/
theorem Ended.tells {outcome : Outcome φ ρ ς κ ν κ' ν' Unit} (ended : Ended format r w outcome)
    (hr : r.Vacant) :
    outcome.state.1.current = none ∧
      outcome.state.1.recordsReturned = r.recordsReturned ∧
      outcome.state.1.splitPointsRemaining = r.splitPointsRemaining := by
  cases ended with
  | again h => exact ⟨hr.current h, rfl, rfl⟩
  | ended h release => exact ⟨rfl, rfl, rfl⟩

/--
Whatever was called before and whether or not the close fails: a close leaves the records counted
and the split points remaining as they were, and no record is shown any more. The fraction stays
if the split was exhausted, and otherwise is zero afterwards. From then on every start and every
advance is refused, every close succeeds, and nothing changes any more.
-/
theorem close_keeps_counts (format : InputFormat φ ρ ς κ ν) (split : ς) (convertKey : κ → κ')
    (convertValue : ν → ν') (w : φ) (commands : List Command) :
    let s := performAll format (initial split convertKey convertValue, w) commands
    let t := (close format s).state
    t.1.recordsReturned = s.1.recordsReturned ∧
      t.1.splitPointsRemaining = s.1.splitPointsRemaining ∧
      t.1.fractionConsumed =
        (if s.1.splitPointsRemaining = 0 then s.1.fractionConsumed else .zero) ∧
      t.1.current = none ∧
      start format t = ⟨.error .closed, t, []⟩ ∧
      advance format t = ⟨.error .closed, t, []⟩ ∧
      close format t = ⟨.ok (), t, []⟩ ∧
      ∀ later, performAll format t later = t := by
  intro s t
  have vacant : s.1.Vacant := performAll_vacant format ⟨fun _ => rfl, fun _ => rfl⟩ commands
  have ended := close_ended format s.1 s.2
  obtain ⟨closed, reader⟩ := ended.settled vacant.settled
  obtain ⟨current, counted, points⟩ := ended.tells vacant
  refine ⟨counted, points, ?_, current, (start_started format t.1 t.2).of_closed closed,
    (advance_advanced format t.1 t.2).of_closed closed,
    (close_ended format t.1 t.2).of_closed closed, performAll_of_closed format closed⟩
  rw [fractionConsumed_of_reader_eq_none reader, points]
  split
  case isTrue exhausted => exact (fractionConsumed_of_exhausted exhausted).symm
  case isFalse => rfl

/-- Two records in memory that make up one split. -/
def twoRecords : MemoryFormat UInt64 String := ⟨[(1, "a"), (2, "b")], 2, Nat.zero_lt_two⟩

/-- Half of a split has been read; once the reader is closed, nothing of it has. -/
theorem close_resets_fraction :
    ¬ ∀ (f : MemoryFormat UInt64 String) (split : MemorySplit) (commands : List Command),
      let s := performAll f.toInputFormat (initial split id id, ()) commands
      (close f.toInputFormat s).state.1.fractionConsumed = s.1.fractionConsumed := by
  intro h
  have kept := h twoRecords ⟨0, 2, 8⟩ [.start, .advance]
  -- one half before, zero afterwards
  revert kept
  decide

end BoundedReader

end EventStream
