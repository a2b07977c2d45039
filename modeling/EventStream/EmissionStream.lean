import EventStream.Processor

/-!
# A processor driven by a stream of signals

An emission stream polls an input for signals, has a processor handle them, and
yields what the processor emits one item at a time. A failure is yielded behind
everything emitted before it, and the stream goes on.

The processor is set up when the stream first looks for a signal and torn down
when the input ends. Once the input has ended it is not polled again.

## Implementation notes

An input is a finite script of answers and ends behind it for good, so the loop
that looks for the next item runs down the script.
-/

namespace EventStream

/-- Bounds on the number of items still to come. -/
structure SizeHint where
  lower : Nat
  upper : Option Nat
deriving DecidableEq

/-- What an input answers when it is polled. -/
inductive InputAnswer (ι ν : Type) where
  | pending
  | signal (s : Signal ι ν)
  | finished

namespace InputAnswer

variable {ι ν : Type}

/-- Whether an answer is a signal. -/
def isSignal : InputAnswer ι ν → Bool
  | signal _ => true
  | _ => false

end InputAnswer

/-- An input: the answers it will give, what it says about them, and how often it was polled. -/
structure Input (ι ν : Type) where
  script : List (InputAnswer ι ν)
  hint : List (InputAnswer ι ν) → SizeHint
  polls : Nat

namespace Input

variable {ι ν : Type}

/-- The hint of an input that counts the signals in its script. -/
def countingHint (script : List (InputAnswer ι ν)) : SizeHint :=
  let n := script.countP InputAnswer.isSignal
  ⟨n, some n⟩

/-- The hint of an input that knows nothing. -/
def noHint (_ : List (InputAnswer ι ν)) : SizeHint := ⟨0, none⟩

/-- The input behind its next answer. -/
def polled (input : Input ι ν) (rest : List (InputAnswer ι ν)) : Input ι ν :=
  { input with script := rest, polls := input.polls + 1 }

end Input

/-- What a stream answers when it is polled. -/
inductive StreamAnswer (ο : Type) where
  | pending
  | item (channel : Channel) (emission : Emission ο)
  | failure (e : ProcessingError)
  | finished

/-- A processor with its input and with what it has emitted but not yielded yet. -/
structure EmissionStream (σ ι ν ο : Type) where
  input : Input ι ν
  ended : Bool
  processor : Processor σ ι ν ο
  buffered : List (Channel × Emission ο)
  error : Option ProcessingError

/-- What a poll came to: the answer, the stream left behind and the effects on the way. -/
structure Polled (σ ι ν ο : Type) where
  answer : StreamAnswer ο
  stream : EmissionStream σ ι ν ο
  effects : List (Effect ι ο)

namespace Polled

variable {σ ι ν ο : Type}

/-- The same poll with effects put in front of its own. -/
def after (r : Polled σ ι ν ο) (effects : List (Effect ι ο)) : Polled σ ι ν ο :=
  { r with effects := effects ++ r.effects }

end Polled

namespace EmissionStream

variable {σ ι ν ο : Type}

/-- The stream of a processor and an input, before the first poll. -/
def start (input : Input ι ν) (processor : Processor σ ι ν ο) : EmissionStream σ ι ν ο :=
  ⟨input, false, processor, [], none⟩

/-- The next thing that is ready to be yielded. -/
def takeReady? (s : EmissionStream σ ι ν ο) :
    Option (StreamAnswer ο × EmissionStream σ ι ν ο) :=
  match s.buffered, s.error with
  | (channel, emission) :: rest, _ => some (.item channel emission, { s with buffered := rest })
  | [], some e => some (.failure e, { s with error := none })
  | [], none => none

/-- Answers that the input has ended, and tears the processor down if it is running. -/
def finish (s : EmissionStream σ ι ν ο) : Polled σ ι ν ο :=
  if s.processor.isRunning then
    let r : Report _ _ ProcessingError Unit := Processor.teardown s.processor
    ⟨.finished, { s with ended := true, processor := r.state }, .note .inputEnded :: r.effects⟩
  else ⟨.finished, { s with ended := true }, []⟩

/-- The stream after its processor has handled a signal. -/
def handled (s : EmissionStream σ ι ν ο)
    (r : Report (Processor σ ι ν ο) (Effect ι ο) ProcessingError Unit) :
    EmissionStream σ ι ν ο :=
  { s with
    processor := r.state
    buffered := Effect.emissions r.effects
    error := match r.result with
      | .ok () => none
      | .error e => some e }

/-- Polls the input for signals until one of them yields something, given the answers left. -/
def pull (s : EmissionStream σ ι ν ο) : List (InputAnswer ι ν) → Polled σ ι ν ο
  | [] => finish { s with input := s.input.polled [] }
  | answer :: rest =>
    let s := { s with input := s.input.polled rest }
    match answer with
    | .pending => ⟨.pending, s, []⟩
    | .finished => s.finish
    | .signal signal =>
      let r := Processor.handle signal s.processor
      match (s.handled r).takeReady? with
      | some (answer, s') => ⟨answer, s', r.effects⟩
      | none => ((s.handled r).pull rest).after r.effects

/-- Looks for the next item in the input, unless it has ended. -/
def pullInput (s : EmissionStream σ ι ν ο) : Polled σ ι ν ο :=
  if s.ended then s.finish else s.pull s.input.script

/-- Sets the processor up and looks for the next item; a failure to set it up is yielded. -/
def setUpAndPull (s : EmissionStream σ ι ν ο) : Polled σ ι ν ο :=
  let r := Processor.setup s.processor
  match r.result with
  | .ok () => (pullInput { s with processor := r.state }).after r.effects
  | .error e =>
    let t : Report _ _ ProcessingError Unit := Processor.teardown r.state
    ⟨.failure e, { s with processor := t.state },
      r.effects ++ .note (.setupFailed e) :: t.effects⟩

/-- Polls the stream. -/
def poll (s : EmissionStream σ ι ν ο) : Polled σ ι ν ο :=
  match s.takeReady? with
  | some (answer, s') => ⟨answer, s', []⟩
  | none => if s.processor.lifecycle = .created then s.setUpAndPull else s.pullInput

/-- The most signals that the input may still bring, if it says so. -/
def inputUpper (s : EmissionStream σ ι ν ο) : Option Nat :=
  if s.ended then some 0 else (s.input.hint s.input.script).upper

/-- The number of things that are ready to be yielded. -/
def readyCount (s : EmissionStream σ ι ν ο) : Nat :=
  s.buffered.length + if s.error.isSome then 1 else 0

/-- Bounds on the items still to come: a signal may yield any number of them. -/
def sizeHint (s : EmissionStream σ ι ν ο) : SizeHint :=
  ⟨s.readyCount, if s.inputUpper = some 0 then some s.readyCount else none⟩

/-- Whether nothing will be yielded any more. -/
def isTerminated (s : EmissionStream σ ι ν ο) : Bool :=
  s.ended && s.buffered.isEmpty && s.error.isNone

end EmissionStream

end EventStream
