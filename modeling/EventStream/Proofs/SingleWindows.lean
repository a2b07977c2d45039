import EventStream.Gate

/-!
# Values window by window

The gate and the side inputs take a value apart into values of one window each and go through
these. A value without windows is then a single value that has none, and is left out. Going
through the windows of the value comes to the same.
-/

namespace EventStream

variable {σ ι ν ο : Type}

/-! ## Side inputs -/

namespace SideInputs

/-- Writes a value of one window at its place. A value without a window has none. -/
def writeSingle (index : Nat) (s : SideInputs ν) (single : WindowedValue ν) : SideInputs ν :=
  match single.windows.head? with
  | some window => s.write (index, window) single.value
  | none => s

/-- A value is written by writing the values of one window that it is taken apart into. -/
theorem writeAll_eq_explode (s : SideInputs ν) (index : Nat) (value : WindowedValue ν) :
    s.writeAll index value = value.explode.foldl (writeSingle index) s := by
  by_cases h : value.windows = []
  · rw [WindowedValue.explode_of_windows_nil h, writeAll, h]
    simp [writeSingle, h]
  · rw [WindowedValue.explode_of_windows_ne_nil h, writeAll, List.foldl_map]
    rfl

/-- What is logged of a value is that it has no window, which only an undivided value can have. -/
theorem insertNotices_eq_explode (index : Nat) (value : WindowedValue ν) :
    insertNotices index value = value.explode.flatMap fun single =>
      if single.windows.isEmpty then [.sideInputDropped index single.timestamp] else [] := by
  by_cases h : value.windows = []
  · rw [WindowedValue.explode_of_windows_nil h, List.flatMap_singleton, insertNotices]
  · rw [WindowedValue.explode_of_windows_ne_nil h, insertNotices]
    simp [h, List.flatMap_map, WindowedValue.inWindow]

end SideInputs

/-! ## The gate -/

namespace Gate

variable (g : Gate σ ι ν ο)

/--
Processes those values of one window that are ready and answers the others. A value without a
window is dropped.
-/
def processSingles :
    List (WindowedValue ι) → Activity σ (Effect ι ο) UserError (List (WindowedValue ι))
  | [] => return []
  | single :: rest =>
    match single.windows.head? with
    | none => do
      Activity.report [.note (.elementDropped single.timestamp)]
      processSingles rest
    | some window => do
      if g.sideInputs.allReady window then
        g.processIn single window
        processSingles rest
      else
        Activity.report [.note (.elementPushedBack single.timestamp window)]
        let back ← processSingles rest
        return single :: back

theorem processWindows_eq_processSingles (element : WindowedValue ι) (windows : List Window) :
    g.processWindows element windows = g.processSingles (windows.map element.inWindow) := by
  induction windows with
  | nil => rfl
  | cons window rest ih =>
      rw [processWindows, List.map_cons, processSingles, ih]
      rfl

/-- An element is processed by processing the values of one window that it is taken apart into. -/
theorem process_eq_explode (element : WindowedValue ι) :
    g.process element = do
      g.startBundle
      let back ← g.processSingles element.explode
      g.finishBundle
      return back := by
  rw [process]
  congr 1
  funext _
  by_cases h : element.windows = []
  · rw [WindowedValue.explode_of_windows_nil h, processSingles, processSingles, h]
    rfl
  · rw [WindowedValue.explode_of_windows_ne_nil h, ← processWindows_eq_processSingles]
    simp [h]

end Gate

end EventStream
