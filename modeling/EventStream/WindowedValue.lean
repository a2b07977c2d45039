import EventStream.Window

/-!
# Windowed values

The unit of travel through a pipeline: a payload, its event time and the windows
it was assigned to, repeats allowed and in order.
-/

namespace EventStream

/-- A payload together with its event time and the windows it was assigned to. -/
structure WindowedValue (α : Type) where
  value : α
  timestamp : Timestamp
  windows : List Window
deriving DecidableEq, BEq

namespace WindowedValue

variable {α : Type}

/-- A value in a single window. -/
def of (value : α) (timestamp : Timestamp) (window : Window) : WindowedValue α :=
  ⟨value, timestamp, [window]⟩

/-- A value in the global window. -/
def inGlobalWindow (value : α) (timestamp : Timestamp) : WindowedValue α :=
  of value timestamp .global

@[simp] theorem windows_of (value : α) (timestamp : Timestamp) (window : Window) :
    (of value timestamp window).windows = [window] := rfl

/-- The same value in one window of its own. -/
def inWindow (x : WindowedValue α) (window : Window) : WindowedValue α :=
  of x.value x.timestamp window

@[simp] theorem inWindow_value (x : WindowedValue α) (w : Window) :
    (x.inWindow w).value = x.value := rfl

@[simp] theorem inWindow_timestamp (x : WindowedValue α) (w : Window) :
    (x.inWindow w).timestamp = x.timestamp := rfl

/-- One value per window; a value with at most one window is left as it is. -/
def explode (x : WindowedValue α) : List (WindowedValue α) :=
  if x.windows.length ≤ 1 then [x] else x.windows.map x.inWindow

/-- A value in no window is not divided. -/
theorem explode_of_windows_nil {x : WindowedValue α} (h : x.windows = []) : x.explode = [x] := by
  simp [explode, h]

/-- A value in some windows is divided into one value for each. -/
theorem explode_of_windows_ne_nil {x : WindowedValue α} (h : x.windows ≠ []) :
    x.explode = x.windows.map x.inWindow := by
  obtain ⟨value, timestamp, windows⟩ := x
  match windows, h with
  | [w], _ => simp [explode, inWindow, of]
  | _ :: _ :: _, _ => simp [explode]

end WindowedValue

end EventStream
