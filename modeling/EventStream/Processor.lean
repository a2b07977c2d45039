import EventStream.Gate
import EventStream.Pushback
import EventStream.Watermarks

/-!
# Processors

A processor applies a user function to a stream of windowed elements. It handles
one signal at a time to completion. Elements whose side inputs are missing are
pushed back and tried again whenever a side input arrives, and the output
watermark waits for them.

A processor is made from an accepted configuration, set up once, and torn down
at most once; it takes signals only in between.

## Implementation notes

Every call answers the processor it leaves behind together with everything it
did in order, so a run of signals is a fold.
-/

namespace EventStream

/-- Where a processor is in its life. -/
inductive Lifecycle where
  | created
  | running
  | tornDown
deriving DecidableEq

/-- What is delivered to a processor. -/
inductive Signal (ι ν : Type) where
  | element (value : WindowedValue ι)
  | watermark (timestamp : Timestamp)
  | sideInput (index : Nat) (value : WindowedValue ν)
  | sideInputWatermark (timestamp : Timestamp)

/-- A user function at work, with all that is kept between signals. -/
structure Processor (σ ι ν ο : Type) where
  config : Config
  function : UserFunction σ ι ν ο
  user : σ
  sideInputs : SideInputs ν
  pushback : Pushback ι
  watermarks : Watermarks
  slot : AssertionSlot
  lifecycle : Lifecycle

namespace Processor

variable {σ ι ν ο ε : Type}

/-- A call on a processor. -/
abbrev Call (σ ι ν ο α : Type) := Activity (Processor σ ι ν ο) (Effect ι ο) ProcessingError α

/-- The processor of an accepted configuration, with nothing received yet. -/
def initial (config : Config) (function : UserFunction σ ι ν ο) (user : σ) :
    Processor σ ι ν ο where
  config := config
  function := function
  user := user
  sideInputs := .empty config.sideInputs
  pushback := .empty
  watermarks := .initial (!config.sideInputs.isEmpty)
  slot := none
  lifecycle := .created

/-- Makes a processor, unless its configuration is rejected. -/
def make? (config : Config) (function : UserFunction σ ι ν ο) (user : σ) :
    Except ConfigError (Processor σ ι ν ο) :=
  match config.validate with
  | .ok () => .ok (initial config function user)
  | .error e => .error e

/-- Whether a processor takes signals. -/
def isRunning (p : Processor σ ι ν ο) : Bool := p.lifecycle == .running

/-- Where the results of a processor go. -/
def router (p : Processor σ ι ν ο) : Router := .ofConfig p.config

/-- The gate in front of the user function, with the side inputs as they are. -/
def gate (p : Processor σ ι ν ο) : Gate σ ι ν ο := ⟨p.function, p.sideInputs, p.router⟩

/-! ## Life -/

/-- Sets the user function up. A processor whose setup failed may be set up again. -/
def setup : Call σ ι ν ο Unit := fun p =>
  match p.lifecycle with
  | .created =>
    match p.function.setup p.user with
    | (.ok (), user) =>
      ⟨.ok (), { p with user := user, lifecycle := .running },
        [.call (.setup (.ok ())),
          .note (.setUp p.config.sideInputs.length p.config.sideOutputs.length)]⟩
    | (.error e, user) =>
      ⟨.error (.userCode e), { p with user := user }, [.call (.setup (.error e))]⟩
  | _ => ⟨.error .alreadySetUp, p, []⟩

/-- Tears the user function down if it is running. The processor takes no signals any more. -/
def teardown : Activity (Processor σ ι ν ο) (Effect ι ο) ε Unit := fun p =>
  if p.isRunning then
    ⟨.ok (), { p with user := p.function.teardown p.user, lifecycle := .tornDown },
      [.call .teardown, .note (.tornDown p.pushback.length)]⟩
  else ⟨.ok (), { p with lifecycle := .tornDown }, []⟩

/-! ## Signals -/

/-- Refuses the call unless the processor is running. -/
def ensureRunning : Call σ ι ν ο Unit := fun p =>
  ⟨if p.isRunning then .ok () else .error .notRunning, p, []⟩

/-- Logs an entry if the configuration asks for traces. -/
def traced (notice : Notice) : Call σ ι ν ο Unit := fun p =>
  ⟨.ok (), p, p.router.traced notice⟩

/-- Takes an element through the gate and answers the windows that have to wait. -/
def passGate (element : WindowedValue ι) : Call σ ι ν ο (List (WindowedValue ι)) := fun p =>
  let r := p.gate.tryProcess element (p.user, p.slot)
  ⟨r.result, { p with user := r.state.1, slot := r.state.2 }, r.effects⟩

/-- Emits an output watermark if there is one to emit. -/
def emitWatermark (watermark : Option Timestamp) : Call σ ι ν ο Unit := fun p =>
  ⟨.ok (), p,
    match watermark with
    | some w => p.router.emitWatermark w
    | none => []⟩

/-- Processes an element in all windows that are ready and pushes it back in the others. -/
def processElement (element : WindowedValue ι) : Call σ ι ν ο Unit := do
  ensureRunning
  traced (.elementReceived element.timestamp element.windows)
  let back ← passGate element
  Activity.update fun p => { p with pushback := p.pushback.addAll back }

/-- Advances the input watermark and answers the output watermark to emit. -/
def advanceInput (watermark : Timestamp) : Call σ ι ν ο (Option Timestamp) := fun p =>
  let (result, watermarks) := p.watermarks.receive watermark p.pushback.minTimestamp
  ⟨result, { p with watermarks := watermarks }, []⟩

/-- Receives an input watermark and emits the output watermark if it moved. -/
def processWatermark (watermark : Timestamp) : Call σ ι ν ο Unit := do
  ensureRunning
  traced (.watermarkReceived watermark)
  emitWatermark (← advanceInput watermark)

/-- Takes a value of a side input in. -/
def storeSideInput (index : Nat) (value : WindowedValue ν) : Call σ ι ν ο Unit := fun p =>
  match p.sideInputs.insert index value with
  | .ok sideInputs =>
    ⟨.ok (), { p with sideInputs := sideInputs },
      (SideInputs.insertNotices index value).map .note⟩
  | .error e => ⟨.error e, p, []⟩

/-- Tries every pushed back element again. -/
def reprocess : Call σ ι ν ο Unit := fun p =>
  let (pushback, r) := p.pushback.reprocess p.gate.tryProcess (p.user, p.slot)
  ⟨r.result, { p with pushback := pushback, user := r.state.1, slot := r.state.2 },
    r.effects ++
      match r.result with
      | .ok () => [.note (.reevaluated p.pushback.length pushback.length)]
      | .error _ => []⟩

/-- Moves the output watermark after the hold changed and answers it if it moved. -/
def releaseHold : Call σ ι ν ο (Option Timestamp) := fun p =>
  let (watermark, watermarks) := p.watermarks.holdChanged p.pushback.minTimestamp
  ⟨.ok watermark, { p with watermarks := watermarks }, []⟩

/-- Stores a value of a side input, tries all pushed back elements and emits what that frees. -/
def processSideInput (index : Nat) (value : WindowedValue ν) : Call σ ι ν ο Unit := do
  ensureRunning
  traced (.sideInputReceived index value.timestamp value.windows)
  storeSideInput index value
  reprocess
  emitWatermark (← releaseHold)

/-- Receives a watermark of a side input, which tells a processor nothing. -/
def processSideInputWatermark (watermark : Timestamp) : Call σ ι ν ο Unit := do
  ensureRunning
  Activity.report [.note (.sideWatermarkIgnored watermark)]

/-- Handles a signal. -/
def handle : Signal ι ν → Call σ ι ν ο Unit
  | .element value => processElement value
  | .watermark timestamp => processWatermark timestamp
  | .sideInput index value => processSideInput index value
  | .sideInputWatermark timestamp => processSideInputWatermark timestamp

end Processor

end EventStream
