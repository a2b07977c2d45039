import EventStream.Failure
import EventStream.Label
import EventStream.WindowedValue

/-!
# What a processor does that can be seen from outside

A processor emits data and watermarks on its output channels, calls the user
function, and logs what happens. One list of effects holds all of it in order.
-/

namespace EventStream

/-- An output channel: the main one, or a side channel by its number. -/
inductive Channel where
  | main
  | side (number : Nat)
deriving DecidableEq

/-- Form of a channel in trace messages. -/
def Channel.trace : Channel → String
  | main => "Main"
  | side number => "Side(" ++ toString number ++ ")"

/-- An item delivered on an output channel. -/
inductive Emission (ο : Type) where
  | data (value : WindowedValue ο)
  | watermark (timestamp : Timestamp)

/-- A result handed over by a user function, with the output it is meant for. -/
structure OutputRequest (ο : Type) where
  tag : Option OutputTag
  value : WindowedValue ο

/-- A call of the user function: what it was given and what it gave back. -/
inductive Invocation (ι ο : Type) where
  | setup (outcome : Except UserError Unit)
  | startBundle (outcome : Except UserError Unit)
  | processElement (element : WindowedValue ι) (window : Window)
      (requests : List (OutputRequest ο)) (outcome : Except UserError Unit)
  | finishBundle (outcome : Except UserError Unit)
  | teardown

/-- How much a log entry matters. -/
inductive Level where
  | trace
  | debug
  | info
  | warn
deriving DecidableEq

/-- A log entry of a processor, by its occasion. -/
inductive Notice where
  | setUp (sideInputs sideOutputs : Nat)
  | tornDown (pushedBack : Nat)
  | sideWatermarkIgnored (watermark : Timestamp)
  | elementReceived (timestamp : Timestamp) (windows : List Window)
  | watermarkReceived (watermark : Timestamp)
  | sideInputReceived (index : Nat) (timestamp : Timestamp) (windows : List Window)
  | dataEmitted (channel : Channel) (timestamp : Timestamp) (windows : List Window)
  | watermarkEmitted (watermark : Timestamp)
  | elementDropped (timestamp : Timestamp)
  | elementPushedBack (timestamp : Timestamp) (window : Window)
  | sideInputDropped (index : Nat) (timestamp : Timestamp)
  | reevaluated (before after : Nat)
  | restored (pushedBack : Nat) (output : Timestamp)
  | setupFailed (e : ProcessingError)
  | inputEnded

namespace Notice

/-- How much an entry matters. -/
def level : Notice → Level
  | sideWatermarkIgnored _ => .trace
  | reevaluated _ _ => .trace
  | elementDropped _ => .warn
  | sideInputDropped _ _ => .warn
  | setupFailed _ => .warn
  | _ => .debug

/-- The text of an entry. -/
def message : Notice → String
  | setUp sideInputs sideOutputs =>
      "set up unit with " ++ toString sideInputs ++ " side inputs and " ++
        toString sideOutputs ++ " side outputs"
  | tornDown pushedBack =>
      "tore down unit with " ++ toString pushedBack ++ " pushed back elements"
  | sideWatermarkIgnored watermark => "ignoring side input watermark " ++ watermark.text
  | elementReceived timestamp windows =>
      "input element timestamp=" ++ timestamp.text ++ " windows=" ++ Window.traceList windows
  | watermarkReceived watermark => "input watermark " ++ watermark.text
  | sideInputReceived index timestamp windows =>
      "side input " ++ toString index ++ " timestamp=" ++ timestamp.text ++ " windows=" ++
        Window.traceList windows
  | dataEmitted channel timestamp windows =>
      "emitting on " ++ channel.trace ++ ": timestamp=" ++ timestamp.text ++ " windows=" ++
        Window.traceList windows
  | watermarkEmitted watermark => "emitting watermark " ++ watermark.text
  | elementDropped timestamp =>
      "dropping element without windows at timestamp " ++ timestamp.text
  | elementPushedBack timestamp window =>
      "pushing back element at " ++ timestamp.text ++ " in window " ++ window.text ++
        ", side input missing"
  | sideInputDropped index timestamp =>
      "dropping value for side input " ++ toString index ++ " without windows at timestamp " ++
        timestamp.text
  | reevaluated before after =>
      "re-evaluated pushed back elements: " ++ toString before ++ " before, " ++
        toString after ++ " after"
  | restored pushedBack output =>
      "restored unit with " ++ toString pushedBack ++ " pushed back elements, output watermark " ++
        output.text
  | setupFailed e => "setting up processing unit failed: " ++ e.message
  | inputEnded => "upstream ended, tearing down processing unit"

end Notice

/-- Anything a call on a processor does that can be seen from outside. -/
inductive Effect (ι ο : Type) where
  | emit (channel : Channel) (item : Emission ο)
  | call (invocation : Invocation ι ο)
  | note (notice : Notice)

namespace Effect

variable {ι ο : Type}

/-- The emissions among effects, in order. -/
def emissions (effects : List (Effect ι ο)) : List (Channel × Emission ο) :=
  effects.filterMap fun
    | emit channel item => some (channel, item)
    | _ => none

/-- The calls of the user function among effects, in order. -/
def invocations (effects : List (Effect ι ο)) : List (Invocation ι ο) :=
  effects.filterMap fun
    | call invocation => some invocation
    | _ => none

/-- The log entries among effects, in order. -/
def notices (effects : List (Effect ι ο)) : List Notice :=
  effects.filterMap fun
    | note notice => some notice
    | _ => none

@[simp] theorem emissions_append (xs ys : List (Effect ι ο)) :
    emissions (xs ++ ys) = emissions xs ++ emissions ys := List.filterMap_append

@[simp] theorem invocations_append (xs ys : List (Effect ι ο)) :
    invocations (xs ++ ys) = invocations xs ++ invocations ys := List.filterMap_append

@[simp] theorem notices_append (xs ys : List (Effect ι ο)) :
    notices (xs ++ ys) = notices xs ++ notices ys := List.filterMap_append

end Effect

end EventStream
