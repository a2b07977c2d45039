import EventStream.Emission
import EventStream.SideInputs

/-!
# User functions

A user function processes elements one by one, each in one window and between
the start and the end of a bundle of its own. It is set up once before and torn
down once after all of them, and may keep a state of its own.

## Implementation notes

A function cannot see what becomes of its results, so processing an element
answers the list of results handed over; they are delivered even if processing
fails after them.
-/

namespace EventStream

/-- What a user function sees: an element in one of its windows, and the side inputs. -/
structure Context (ι ν : Type) where
  element : WindowedValue ι
  window : Window
  sideInputs : SideInputs ν

namespace Context

variable {ι ν ο : Type}

/-- The value of a side input in the current window. -/
def sideInput (cx : Context ι ν) (index : Nat) : Option ν := cx.sideInputs.get index cx.window

/-- The value of the side input with a name in the current window. -/
def sideInputById (cx : Context ι ν) (id : SideInputId) : Option ν :=
  cx.sideInputs.getById id cx.window

/-- A result for the main output at a time of its own. -/
def outputAt (cx : Context ι ν) (value : ο) (timestamp : Timestamp) : OutputRequest ο :=
  ⟨none, .of value timestamp cx.window⟩

/-- A result for the main output at the time of the element. -/
def output (cx : Context ι ν) (value : ο) : OutputRequest ο :=
  cx.outputAt value cx.element.timestamp

/-- A result for the output with a name at the time of the element. -/
def outputTagged (cx : Context ι ν) (tag : OutputTag) (value : ο) : OutputRequest ο :=
  ⟨some tag, .of value cx.element.timestamp cx.window⟩

end Context

/-- What processing an element came to: the results handed over, the outcome and the state. -/
structure Attempt (σ ο : Type) where
  requests : List (OutputRequest ο)
  outcome : Except UserError Unit
  state : σ

/-- A user function with its state. All calls but the processing of elements may do nothing. -/
structure UserFunction (σ ι ν ο : Type) where
  setup : σ → Except UserError Unit × σ := fun s => (.ok (), s)
  startBundle : σ → Except UserError Unit × σ := fun s => (.ok (), s)
  processElement : Context ι ν → σ → Attempt σ ο
  finishBundle : σ → Except UserError Unit × σ := fun s => (.ok (), s)
  teardown : σ → σ := fun s => s

end EventStream
