import EventStream.Proofs.NearestDouble
import EventStream.Proofs.Source.ReadingOnce
import Mathlib.Algebra.Order.Field.Basic
import Mathlib.Algebra.Order.Field.Rat
import Mathlib.Data.List.TakeDrop
import Mathlib.Data.List.TakeWhile

/-!
# Splits from elsewhere

A split may come from anywhere, with any bounds. A reader of records in memory is opened for it
exactly if it lies within the records, and then hands out the records of its range in order,
whatever else is called in between.

The reader counts with machine words. Its position stays between the bounds of its range, so
that nothing it subtracts is larger than what it is subtracted from.
-/

namespace EventStream

variable {κ ν : Type}

namespace MemoryReader

/-- A call on a reader. -/
inductive Request where
  | next
  | progress
  | close
deriving DecidableEq

variable (r : MemoryReader κ ν)

/-- A reader after a call. -/
def step : Request → MemoryReader κ ν
  | .next => r.next.2
  | .progress => r
  | .close => r.close

/-- A reader after some calls. -/
def after (calls : List Request) : MemoryReader κ ν := calls.foldl step r

/-- The record that a call returns. -/
def record? : Request → Option (κ × ν)
  | .next => r.next.1.toOption.join
  | .progress | .close => none

/-- The records that some calls return, in order. -/
def returned (r : MemoryReader κ ν) : List Request → List (κ × ν)
  | [] => []
  | c :: rest => (r.record? c).toList ++ (r.step c).returned rest

/-- The fraction of its range that a reader has read, exactly. -/
def fraction : ℚ := r.fractionRead.1 / r.fractionRead.2

/-- How often some calls ask for a record before they close the reader. -/
def reads (calls : List Request) : Nat := (calls.takeWhile fun c => c ≠ .close).count .next

section Reads
variable {calls : List Request}

@[simp] theorem reads_next : reads (.next :: calls) = reads calls + 1 := by simp [reads]

@[simp] theorem reads_progress : reads (.progress :: calls) = reads calls := by simp [reads]

@[simp] theorem reads_close : reads (.close :: calls) = 0 := by simp [reads]

/-- Without a close, every call for a record is a read. -/
theorem reads_of_notMem (h : .close ∉ calls) : reads calls = calls.count .next := by
  have whole : (calls.takeWhile fun c => c ≠ .close) = calls := by
    rw [List.takeWhile_eq_self_iff]
    exact fun c hc => decide_eq_true fun same => h (same ▸ hc)
  rw [reads, whole]

end Reads

/-! ## A closed reader -/

theorem step_of_closed {r : MemoryReader κ ν} (h : r.closed = true) (c : Request) :
    r.step c = r := by
  cases c with
  | next => simp [step, MemoryReader.next, h]
  | progress => rfl
  | close =>
      rw [step, MemoryReader.close, ← h]

theorem after_of_closed {r : MemoryReader κ ν} (h : r.closed = true) (calls : List Request) :
    r.after calls = r := by
  induction calls with
  | nil => rfl
  | cons c rest ih =>
      rw [after, List.foldl_cons, step_of_closed h]
      exact ih

theorem returned_of_closed {r : MemoryReader κ ν} (h : r.closed = true) (calls : List Request) :
    r.returned calls = [] := by
  induction calls with
  | nil => rfl
  | cons c rest ih =>
      have none : r.record? c = none := by
        cases c with
        | next => simp [record?, MemoryReader.next, h, Except.toOption]
        | progress => rfl
        | close => rfl
      rw [returned, none, step_of_closed h, ih]
      rfl

/-! ## Where a reader stands -/

/-- What calls keep of a reader: it moves forwards only, and not beyond the end of its range. -/
structure Moved (r r' : MemoryReader κ ν) : Prop where
  start : r'.start = r.start
  stop : r'.stop = r.stop
  forwards : r.position ≤ r'.position
  within : r'.position ≤ r'.stop

/-- A call leaves the bounds alone and moves the position at most forwards, within them. -/
theorem step_moved {r : MemoryReader κ ν} (h : r.position ≤ r.stop) (c : Request) :
    r.Moved (r.step c) := by
  cases c with
  | next =>
      rw [step, MemoryReader.next]
      split
      · exact ⟨rfl, rfl, Nat.le_refl _, h⟩
      · split
        · exact ⟨rfl, rfl, Nat.le_refl _, h⟩
        · exact ⟨rfl, rfl, Nat.le_succ _, Nat.lt_of_not_le ‹_›⟩
  | progress => exact ⟨rfl, rfl, Nat.le_refl _, h⟩
  | close => exact ⟨rfl, rfl, Nat.le_refl _, h⟩

/-- Any calls leave the bounds alone and move the position at most forwards, within them. -/
theorem after_moved {r : MemoryReader κ ν} (h : r.position ≤ r.stop) (calls : List Request) :
    r.Moved (r.after calls) := by
  induction calls generalizing r with
  | nil => exact ⟨rfl, rfl, Nat.le_refl _, h⟩
  | cons c rest ih =>
      have first := step_moved h c
      have later := ih first.within
      exact ⟨later.start.trans first.start, later.stop.trans first.stop,
        Nat.le_trans first.forwards later.forwards, later.within⟩

theorem fraction_eq_one_of_empty {r : MemoryReader κ ν} (he : r.stop = r.start) :
    r.fraction = 1 := by
  rw [fraction, fractionRead, if_pos he, Nat.cast_one, div_one]

section Fraction
variable {r} (h : r.start ≤ r.position) (h' : r.position ≤ r.stop)
include h h'

/-- Of a range that is not empty, the fraction is what it says. -/
theorem fraction_eq (hne : r.stop ≠ r.start) :
    r.fraction = ((r.position - r.start : Nat) : ℚ) / ((r.stop - r.start : Nat) : ℚ) ∧
      (0 : ℚ) < ((r.stop - r.start : Nat) : ℚ) := by
  refine ⟨by rw [fraction, fractionRead, if_neg hne], Nat.cast_pos.2 ?_⟩
  omega

/-- All of a range has been read exactly at its end. -/
theorem fraction_eq_one_iff : r.fraction = 1 ↔ r.position = r.stop := by
  by_cases he : r.stop = r.start
  · exact ⟨fun _ => Nat.le_antisymm h' (he ▸ h), fun _ => fraction_eq_one_of_empty he⟩
  · obtain ⟨eq, positive⟩ := fraction_eq h h' he
    rw [eq, div_eq_one_iff_eq positive.ne', Nat.cast_inj]
    omega

theorem fraction_mem : 0 ≤ r.fraction ∧ r.fraction ≤ 1 := by
  by_cases he : r.stop = r.start
  · rw [fraction_eq_one_of_empty he]
    exact ⟨zero_le_one, le_rfl⟩
  · obtain ⟨eq, positive⟩ := fraction_eq h h' he
    rw [eq]
    refine ⟨div_nonneg (Nat.cast_nonneg _) positive.le, (div_le_one positive).2 ?_⟩
    exact Nat.cast_le.2 (Nat.sub_le_sub_right h' _)

/-- What a reader tells of its progress is the fraction that it has read, as the nearest double. -/
theorem progress_eq_nearest (short : r.stop - r.start ≤ 2 ^ 53) :
    r.progress = .nearest r.fraction := by
  by_cases he : r.stop = r.start
  · rw [progress, fraction, fractionRead, if_pos he]
    exact Binary64.quotient_eq_nearest Nat.one_pos (Nat.le_refl 1) (by decide)
  · rw [progress, fraction, fractionRead, if_neg he]
    exact Binary64.quotient_eq_nearest (by omega) (Nat.sub_le_sub_right h' _) short

/-- The fraction does not decrease when the position moves forward. -/
theorem fraction_le_of_moved {r' : MemoryReader κ ν} (moved : r.Moved r') :
    r.fraction ≤ r'.fraction := by
  have start : r'.start ≤ r'.position := moved.start ▸ Nat.le_trans h moved.forwards
  by_cases he : r.stop = r.start
  · rw [fraction_eq_one_of_empty (r := r') (by rw [moved.stop, moved.start, he])]
    exact (fraction_mem h h').2
  · obtain ⟨eq, positive⟩ := fraction_eq h h' he
    obtain ⟨eq', -⟩ := fraction_eq start moved.within (by rwa [moved.stop, moved.start])
    rw [eq, eq', moved.start, moved.stop]
    exact div_le_div_of_nonneg_right
      (Nat.cast_le.2 (Nat.sub_le_sub_right moved.forwards _)) positive.le

end Fraction

end MemoryReader

namespace MemoryFormat

open MemoryReader

variable {f : MemoryFormat κ ν} {s : MemorySplit} {position : Nat}

/-- Where a reader stands after some calls: as far ahead as it was read, and at most at the end. -/
theorem after_readerAt (h : position ≤ s.stop.toNat) (calls : List Request) :
    (f.readerAt s position).after calls =
      { f.readerAt s (min (position + reads calls) s.stop.toNat) with
        closed := decide (.close ∈ calls) } := by
  induction calls generalizing position with
  | nil =>
      have here : min (position + reads []) s.stop.toNat = position := Nat.min_eq_left h
      rw [here]
      rfl
  | cons c rest ih =>
      rw [after, List.foldl_cons]
      cases c with
      | next =>
          rw [step, reads_next]
          rcases Nat.lt_or_ge position s.stop.toNat with lt | le
          · rw [next_readerAt_of_lt lt]
            have later := ih (Nat.add_one_le_of_lt lt)
            rw [Nat.add_right_comm, Nat.add_assoc] at later
            refine later.trans ?_
            simp
          · rw [next_readerAt_of_le le]
            refine (ih h).trans ?_
            rw [Nat.min_eq_right (Nat.le_trans le (Nat.le_add_right _ _)),
              Nat.min_eq_right (Nat.le_trans le (Nat.le_add_right _ _))]
            simp
      | progress =>
          rw [reads_progress]
          refine (ih h).trans ?_
          simp
      | close =>
          rw [reads_close, Nat.add_zero, Nat.min_eq_left h]
          refine (after_of_closed rfl rest).trans ?_
          simp [step, MemoryReader.close]

/-- The records returned are those that come next in the range, as many as it was read. -/
theorem returned_readerAt (hs : s.stop.toNat ≤ f.records.length) (h : position ≤ s.stop.toNat)
    (calls : List Request) :
    (f.readerAt s position).returned calls =
      ((f.records.take s.stop.toNat).drop position).take (reads calls) := by
  induction calls generalizing position with
  | nil => rfl
  | cons c rest ih =>
      rw [returned]
      cases c with
      | next =>
          rw [record?, step, reads_next]
          rcases Nat.lt_or_ge position s.stop.toNat with lt | le
          · rw [next_readerAt_of_lt lt, ih lt, drop_take_eq_cons hs lt, List.take_succ_cons,
              List.getElem?_eq_getElem (Nat.lt_of_lt_of_le lt hs)]
            rfl
          · rw [next_readerAt_of_le le, ih h,
              List.drop_eq_nil_of_le (Nat.le_trans (List.length_take_le _ _) le), List.take_nil,
              List.take_nil]
            rfl
      | progress =>
          rw [reads_progress]
          exact ih h
      | close =>
          rw [reads_close, List.take_zero]
          exact returned_of_closed rfl rest

/-! ## Opening a reader -/

/-- A split lies within the records if it does not end before it starts or after the last one. -/
def Covers (f : MemoryFormat κ ν) (s : MemorySplit) : Prop :=
  s.start.toNat ≤ s.stop.toNat ∧ s.stop.toNat ≤ f.records.length

/-- How a reader of a split, after some calls, stands to the records of its range. -/
structure Serves (f : MemoryFormat κ ν) (s : MemorySplit) (r : MemoryReader κ ν)
    (calls : List Request) : Prop where
  /-- Until it is closed, the next record is that at the number of times it was asked for one. -/
  next : .close ∉ calls → (r.after calls).next.1 = .ok (f.part s)[calls.count .next]?
  closed : .close ∈ calls → (r.after calls).next.1 = .error .closed
  start : (r.after calls).start = s.start.toNat
  stop : (r.after calls).stop = s.stop.toNat
  after_start : (r.after calls).start ≤ (r.after calls).position
  before_stop : (r.after calls).position ≤ (r.after calls).stop
  nonneg : 0 ≤ (r.after calls).fraction
  le_one : (r.after calls).fraction ≤ 1
  forwards (more : List Request) : (r.after calls).fraction ≤ ((r.after calls).after more).fraction
  complete : (r.after calls).fraction = 1 ↔ r.returned calls = f.part s
  /-- The fraction is told as the nearest double, if no more records than doubles can count. -/
  progress : (f.part s).length ≤ 2 ^ 53 →
    (r.after calls).progress = .nearest (r.after calls).fraction

/-- A range within the records has as many records as it is wide. -/
theorem length_part (hs : s.stop.toNat ≤ f.records.length) :
    (f.part s).length = s.stop.toNat - s.start.toNat := by
  rw [part, List.length_drop, List.length_take_of_le hs]

/-- The next record of a reader that was asked for records a number of times. -/
theorem next_readerAt (n : Nat) :
    (f.readerAt s (min (s.start.toNat + n) s.stop.toNat)).next.1 = .ok (f.part s)[n]? := by
  rw [part, List.getElem?_drop]
  rcases Nat.lt_or_ge (s.start.toNat + n) s.stop.toNat with lt | le
  · rw [Nat.min_eq_left lt.le, next_readerAt_of_lt lt, List.getElem?_take_of_lt lt]
  · rw [Nat.min_eq_right le, next_readerAt_of_le (Nat.le_refl _),
      List.getElem?_eq_none (Nat.le_trans (List.length_take_le _ _) le)]

/-- All of a range has been returned once it was read as often as it has records. -/
theorem returned_readerAt_eq_part (h : f.Covers s) (calls : List Request) :
    (f.readerAt s s.start.toNat).returned calls = f.part s ↔
      s.stop.toNat ≤ s.start.toNat + reads calls := by
  rw [returned_readerAt h.2 h.1, ← part, List.take_eq_self_iff, length_part h.2]
  omega

/-- A reader at the start of a split within the records serves it, whatever is called. -/
theorem serves (h : f.Covers s) (calls : List Request) :
    f.Serves s (f.readerAt s s.start.toNat) calls := by
  have stands := after_readerAt (f := f) h.1 calls
  have moved : (f.readerAt s s.start.toNat).Moved _ := after_moved h.1 calls
  have begun : ((f.readerAt s s.start.toNat).after calls).start ≤ _ :=
    Nat.le_trans (Nat.le_of_eq moved.start) moved.forwards
  have whole := fraction_eq_one_iff begun moved.within
  obtain ⟨nonneg, le_one⟩ := fraction_mem begun moved.within
  refine ⟨fun unclosed => ?next, fun closed => ?closed, moved.start, moved.stop, begun,
    moved.within, nonneg, le_one, fun more => ?forwards, whole.trans ?complete,
    fun short => ?progress⟩
  case next =>
    rw [stands, decide_eq_false unclosed, reads_of_notMem unclosed]
    exact next_readerAt _
  case closed =>
    rw [stands, decide_eq_true closed]
    rfl
  case forwards => exact fraction_le_of_moved begun moved.within (after_moved moved.within more)
  case complete =>
    rw [returned_readerAt_eq_part h, stands]
    exact min_eq_right_iff
  case progress =>
    refine progress_eq_nearest begun moved.within ?_
    rw [moved.stop, moved.start]
    exact Nat.le_trans (Nat.le_of_eq (length_part h.2).symm) short

/-- Whatever its bounds are, a split either is turned down, as a failure of the format, or lies
within the records. Then its reader hands out the records of its range in order and nothing after
them, and keeps its position between the bounds, from which its progress is taken. -/
theorem foreign_splits_safe (f : MemoryFormat κ ν) (s : MemorySplit) :
    (¬ f.Covers s → ∃ e, f.createReader s = .error e ∧ e.kind = .format ∧
        e = .splitOutOfRange s.start.toNat s.stop.toNat f.records.length) ∧
      (f.Covers s → ∃ r, f.createReader s = .ok r ∧ ∀ calls, f.Serves s r calls) := by
  refine ⟨fun outside => ⟨_, ?_, rfl, rfl⟩, fun h => ⟨_, createReader_eq_ok h.1 h.2, serves h⟩⟩
  rw [Covers] at outside
  rw [createReader, if_pos (by omega)]

/-- The length that a split claims has no part in reading it. -/
example :
    ((⟨["a", "b", "c"].zip [1, 2, 3], 1, by decide⟩ : MemoryFormat String Nat).createReader
        ⟨1, 3, 0⟩).map (·.returned [.next, .progress, .next, .next, .close, .next]) =
      .ok [("b", 2), ("c", 3)] := rfl

end MemoryFormat

end EventStream
