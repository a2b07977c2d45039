import EventStream.Datum
import EventStream.UserFunction

/-!
# User functions given by rules

A rule function compares an element with its rules and carries out the actions
of the first one that applies. Its other calls fail where a schedule says so.
-/

namespace EventStream

/-- One thing a rule does with an element. A text that is not given is that of the element. -/
inductive Action where
  | output (text : Option String)
  | outputAt (text : Option String) (timestamp : Timestamp)
  | outputTagged (text : Option String) (tag : OutputTag)
  /-- Tells the element, its timestamp, the window at hand and the windows of the element. -/
  | describe
  /-- The text with the texts of the side inputs, up to the first that is absent. -/
  | join (text : Option String)
  | sideInput (index : Nat)
  | sideInputById (id : SideInputId)
  | fail (text : Option String)
  | assert (text : Option String)

/-- Actions for one value, or for any. -/
structure Rule (ι : Type) where
  when? : Option ι
  actions : List Action

/-- Rules and a schedule of failures: setup always, bundles by the number of the call. -/
structure RuleFunction (ι : Type) where
  setup : Option UserError
  starts : List (Option UserError)
  finishes : List (Option UserError)
  rules : List (Rule ι)

/-- How often bundles were started and finished. -/
structure BundleCounts where
  started : Nat
  finished : Nat

namespace RuleFunction

variable {ι ν : Type} [Printable ι] [Printable ν]

/-- The text of a side input that may be absent. -/
def textOrAbsent : Option ν → String
  | some v => Printable.text v
  | none => "absent"

/-- The text of an element with its place in event time. -/
def description (cx : Context ι ν) : String :=
  Printable.text cx.element.value ++ "@" ++ cx.element.timestamp.text ++ " in " ++
    cx.window.text ++ " of " ++ " ".intercalate (cx.element.windows.map Window.text)

/-- The texts of the side inputs in order, up to the first that is absent. -/
def presentTexts (cx : Context ι ν) : List String :=
  (((List.range cx.sideInputs.count).map cx.sideInput).takeWhile Option.isSome).map textOrAbsent

/-- Carries out actions until one of them fails. -/
def run (cx : Context ι ν) : List Action → List (OutputRequest String) × Except UserError Unit
  | [] => ([], .ok ())
  | action :: rest =>
    let text (given : Option String) : String := given.getD (Printable.text cx.element.value)
    let andThen (request : OutputRequest String) :
        List (OutputRequest String) × Except UserError Unit :=
      let (requests, outcome) := run cx rest
      (request :: requests, outcome)
    match action with
    | .output given => andThen (cx.output (text given))
    | .outputAt given timestamp => andThen (cx.outputAt (text given) timestamp)
    | .outputTagged given tag => andThen (cx.outputTagged tag (text given))
    | .describe => andThen (cx.output (description cx))
    | .join given =>
      andThen (cx.output (text given ++ ":" ++ ",".intercalate (presentTexts cx)))
    | .sideInput index => andThen (cx.output (textOrAbsent (cx.sideInput index)))
    | .sideInputById id => andThen (cx.output (textOrAbsent (cx.sideInputById id)))
    | .fail given => ([], .error (.failed (text given)))
    | .assert given => ([], .error (.assertion (text given)))

/-- The outcome that a schedule has for a call. -/
def outcome (e : Option UserError) : Except UserError Unit :=
  match e with
  | some e => .error e
  | none => .ok ()

/-- The actions for a value. -/
def actionsFor [BEq ι] (f : RuleFunction ι) (value : ι) : List Action :=
  match f.rules.find? fun r => r.when?.all (· == value) with
  | some r => r.actions
  | none => []

/-- The user function that follows the rules. -/
def toUserFunction [BEq ι] (f : RuleFunction ι) : UserFunction BundleCounts ι ν String where
  setup s := (outcome f.setup, s)
  startBundle s := (outcome (f.starts[s.started]?).join, { s with started := s.started + 1 })
  processElement cx s :=
    let (requests, outcome) := run cx (f.actionsFor cx.element.value)
    ⟨requests, outcome, s⟩
  finishBundle s := (outcome (f.finishes[s.finished]?).join, { s with finished := s.finished + 1 })

/-- The user function that hands over the text of every element. -/
def echo : UserFunction BundleCounts ι ν String where
  processElement cx s := ⟨[cx.output (Printable.text cx.element.value)], .ok (), s⟩

end RuleFunction

end EventStream
