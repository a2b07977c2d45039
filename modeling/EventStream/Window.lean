import EventStream.Timestamp

/-!
# Windows

A window groups elements of event time. Side inputs are kept per window, and a
mapping says in which window a side input is looked up for a main-input window.

## Implementation notes

An interval is not required to start before it ends: windows are keys, and their
bounds are never compared with the elements in them.
-/

namespace EventStream

/-- A grouping key of elements: all of event time, or one half-open interval. -/
inductive Window where
  | global
  | interval (start stop : Timestamp)
deriving DecidableEq, Ord

namespace Window

/-- Whether one window is listed before another: the global one first, then by start and end. -/
def before (a b : Window) : Bool := (compare a b).isLE

/-- Written form: `global`, or the two ends of a half-open interval. -/
def text : Window → String
  | global => "global"
  | interval start stop => "[" ++ start.text ++ ", " ++ stop.text ++ ")"

/-- Form in trace messages, where the sentinels are written out as numbers. -/
def trace : Window → String
  | global => "Global"
  | interval start stop =>
      "Interval \x7b start: Timestamp(" ++ toString start.millis ++ "), end: Timestamp(" ++
        toString stop.millis ++ ") \x7d"

/-- Form of a list of windows in trace messages. -/
def traceList (windows : List Window) : String :=
  "[" ++ ", ".intercalate (windows.map trace) ++ "]"

end Window

/-- How the window of a main-input element leads to the window of a side input. -/
inductive WindowMapping where
  | identity
  | global
deriving DecidableEq

namespace WindowMapping

/-- A side input is windowed like the main input unless it says otherwise. -/
instance : Inhabited WindowMapping := ⟨identity⟩

/-- The side-input window that belongs to a main-input window. -/
def map : WindowMapping → Window → Window
  | identity, w => w
  | global, _ => .global

@[simp] theorem map_identity (w : Window) : identity.map w = w := rfl

@[simp] theorem map_global (w : Window) : global.map w = .global := rfl

end WindowMapping

end EventStream
