import EventStream.Activity
import EventStream.WindowedValue

/-!
# Pushed back elements

Elements wait in a buffer until their side inputs have arrived. The buffer also
keeps the smallest timestamp it holds, which holds the output watermark back.

Elements leave the buffer when it is evaluated again as a whole: every element
is tried, and exactly what the trial gives back is kept. An element whose trial
fails is gone; those tried before it and those not tried yet stay in order.

## Implementation notes

The smallest timestamp is kept up when an element is added and computed afresh
whenever the contents are replaced.
-/

namespace EventStream

/-- Elements that wait, and the smallest of their timestamps. -/
structure Pushback (ι : Type) where
  elements : List (WindowedValue ι)
  minTimestamp : Timestamp

namespace Pushback

variable {ι τ η ε : Type}

/-- The buffer that holds nothing. -/
def empty : Pushback ι := ⟨[], .maxValue⟩

/-- The buffer that holds the given elements. -/
def ofElements (elements : List (WindowedValue ι)) : Pushback ι :=
  ⟨elements, .minimum (elements.map WindowedValue.timestamp)⟩

/-- Adds one element at the end. -/
def add (b : Pushback ι) (element : WindowedValue ι) : Pushback ι :=
  ⟨b.elements ++ [element], min b.minTimestamp element.timestamp⟩

/-- Adds elements at the end, one by one. -/
def addAll (b : Pushback ι) (elements : List (WindowedValue ι)) : Pushback ι :=
  elements.foldl add b

@[simp] theorem elements_ofElements (elements : List (WindowedValue ι)) :
    (ofElements elements).elements = elements := rfl

@[simp] theorem elements_add (b : Pushback ι) (element : WindowedValue ι) :
    (b.add element).elements = b.elements ++ [element] := rfl

@[simp] theorem elements_addAll (b : Pushback ι) (elements : List (WindowedValue ι)) :
    (b.addAll elements).elements = b.elements ++ elements := by
  induction elements generalizing b with
  | nil => simp [addAll]
  | cons x xs ih =>
      have := ih (b.add x)
      simpa [addAll] using this

/-- The number of elements. -/
def length (b : Pushback ι) : Nat := b.elements.length

/--
Tries elements in order and answers those to keep: what the trials gave back and, after a trial
that failed, the elements behind the one it failed on.
-/
def sweep (trial : WindowedValue ι → Activity τ η ε (List (WindowedValue ι))) :
    List (WindowedValue ι) → τ → List (WindowedValue ι) × Report τ η ε Unit
  | [], t => ([], ⟨.ok (), t, []⟩)
  | x :: xs, t =>
    match trial x t with
    | ⟨.error e, t', es⟩ => (xs, ⟨.error e, t', es⟩)
    | ⟨.ok back, t', es⟩ =>
      let (kept, r) := sweep trial xs t'
      (back ++ kept, r.after es)

/-- Tries every element again and keeps what `sweep` answers. -/
def reprocess (trial : WindowedValue ι → Activity τ η ε (List (WindowedValue ι)))
    (b : Pushback ι) (t : τ) : Pushback ι × Report τ η ε Unit :=
  let (kept, r) := sweep trial b.elements t
  (ofElements kept, r)

end Pushback

end EventStream
