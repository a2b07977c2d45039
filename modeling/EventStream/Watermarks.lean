import EventStream.Failure

/-!
# Watermarks of a processor

A watermark says that no earlier element will arrive. The output watermark
follows the input watermark but waits for pushed back elements: it never passes
the hold, the smallest of their timestamps. A processor without side inputs
pushes nothing back and forwards every input watermark as it is.
-/

namespace EventStream

/-- The two watermarks of a processor, and whether it has side inputs to wait for. -/
structure Watermarks where
  input : Timestamp
  output : Timestamp
  waits : Bool
deriving DecidableEq

namespace Watermarks

/-- The watermarks of a processor that has received none yet. -/
def initial (waits : Bool) : Watermarks := ⟨.minValue, .minValue, waits⟩

/-- The output watermark that a hold allows. -/
def candidate (w : Watermarks) (hold : Timestamp) : Timestamp := min hold w.input

/-- Moves the output watermark as far as the hold allows, and answers it if it moved. -/
def advance (w : Watermarks) (hold : Timestamp) : Option Timestamp × Watermarks :=
  if w.output < w.candidate hold then
    (some (w.candidate hold), { w with output := w.candidate hold })
  else (none, w)

/-- Receives an input watermark and answers the output watermark to emit, if any. -/
def receive (w : Watermarks) (watermark hold : Timestamp) :
    Except ProcessingError (Option Timestamp) × Watermarks :=
  if watermark < w.input then (.error (.watermarkRegression w.input watermark), w)
  else if w.waits then
    let (emitted, w') := { w with input := watermark }.advance hold
    (.ok emitted, w')
  else (.ok (some watermark), { w with input := watermark, output := watermark })

/-- Receives a changed hold and answers the output watermark to emit, if any. -/
def holdChanged (w : Watermarks) (hold : Timestamp) : Option Timestamp × Watermarks :=
  if w.waits then w.advance hold else (none, w)

/-- Takes over both watermarks of a snapshot; the output watermark does not pass the input. -/
def restore (w : Watermarks) (input output : Timestamp) : Watermarks :=
  { w with input := input, output := min output input }

@[simp] theorem waits_advance (w : Watermarks) (hold : Timestamp) :
    (w.advance hold).2.waits = w.waits := by
  unfold advance
  split <;> rfl

@[simp] theorem waits_receive (w : Watermarks) (watermark hold : Timestamp) :
    (w.receive watermark hold).2.waits = w.waits := by
  unfold receive
  split
  · rfl
  · split
    · exact waits_advance ..
    · rfl

@[simp] theorem waits_holdChanged (w : Watermarks) (hold : Timestamp) :
    (w.holdChanged hold).2.waits = w.waits := by
  unfold holdChanged
  split
  · exact waits_advance ..
  · rfl

@[simp] theorem waits_restore (w : Watermarks) (input output : Timestamp) :
    (w.restore input output).waits = w.waits := rfl

end Watermarks

end EventStream
