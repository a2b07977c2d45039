import EventStream.Activity
import EventStream.AssertionSlot
import EventStream.Router
import EventStream.UserFunction

/-!
# The gate in front of the user function

An element passes the gate in every window for which all side inputs are there,
in the order of its windows and inside one bundle. The other windows are handed
back as elements of their own. An element without windows is dropped, but its
bundle takes place.

The first call of the user function that fails ends the passage: nothing is
handed back then, not even the windows that were found to wait before.
-/

namespace EventStream

/-- What an element meets: the user function, the side inputs and the outputs. -/
structure Gate (σ ι ν ο : Type) where
  function : UserFunction σ ι ν ο
  sideInputs : SideInputs ν
  router : Router

namespace Gate

variable {σ ι ν ο : Type}

/-- Starts a bundle. -/
def startBundle (g : Gate σ ι ν ο) : Activity σ (Effect ι ο) UserError Unit := fun s =>
  let (outcome, s') := g.function.startBundle s
  ⟨outcome, s', [.call (.startBundle outcome)]⟩

/-- Ends a bundle. -/
def finishBundle (g : Gate σ ι ν ο) : Activity σ (Effect ι ο) UserError Unit := fun s =>
  let (outcome, s') := g.function.finishBundle s
  ⟨outcome, s', [.call (.finishBundle outcome)]⟩

/-- Processes an element in its window and delivers the results. -/
def processIn (g : Gate σ ι ν ο) (element : WindowedValue ι) (window : Window) :
    Activity σ (Effect ι ο) UserError Unit := fun s =>
  let attempt := g.function.processElement ⟨element, window, g.sideInputs⟩ s
  ⟨attempt.outcome, attempt.state,
    .call (.processElement element window attempt.requests attempt.outcome) ::
      attempt.requests.flatMap g.router.route⟩

/-- Processes an element in those of the windows that are ready and answers it in the others. -/
def processWindows (g : Gate σ ι ν ο) (element : WindowedValue ι) :
    List Window → Activity σ (Effect ι ο) UserError (List (WindowedValue ι))
  | [] => return []
  | window :: rest => do
    if g.sideInputs.allReady window then
      g.processIn (element.inWindow window) window
      g.processWindows element rest
    else
      Activity.report [.note (.elementPushedBack element.timestamp window)]
      let back ← g.processWindows element rest
      return element.inWindow window :: back

/-- Takes an element through one bundle and answers the windows that have to wait. -/
def process (g : Gate σ ι ν ο) (element : WindowedValue ι) :
    Activity σ (Effect ι ο) UserError (List (WindowedValue ι)) := do
  g.startBundle
  if element.windows.isEmpty then
    Activity.report [.note (.elementDropped element.timestamp)]
  let back ← g.processWindows element element.windows
  g.finishBundle
  return back

/-- The passage of an element, with a failed assertion recorded in the slot. -/
def tryProcess (g : Gate σ ι ν ο) (element : WindowedValue ι) :
    Activity (σ × AssertionSlot) (Effect ι ο) ProcessingError (List (WindowedValue ι)) :=
  fun (s, slot) =>
    match g.process element s with
    | ⟨.ok back, s', es⟩ => ⟨.ok back, (s', slot), es⟩
    | ⟨.error e, s', es⟩ => ⟨.error (.userCode e), (s', slot.record e), es⟩

end Gate

end EventStream
