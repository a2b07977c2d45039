import EventStream.Proofs.Run
import Mathlib.Data.List.Nodup

/-!
# Occurrences of elements in windows

Equal elements may arrive more than once and an element may name a window more
than once. An occurrence tells all of these apart: it carries the position of
the signal that delivered the element and the position of the window in the
element.
-/

namespace EventStream

variable {σ ι ν ο : Type}

/-- One window of one delivered element. -/
structure Occurrence (ι : Type) where
  arrival : Nat
  position : Nat
  element : WindowedValue ι
  window : Window

namespace Occurrence

/-- The element in the window of the occurrence alone, with its value and timestamp. -/
def single (o : Occurrence ι) : WindowedValue ι := o.element.inWindow o.window

/-- What the user function is given when the occurrence is handed over. -/
def call (o : Occurrence ι) : WindowedValue ι × Window := (o.single, o.window)

@[simp] theorem windows_single (o : Occurrence ι) : o.single.windows = [o.window] := rfl

@[simp] theorem single_inWindow (o : Occurrence ι) : o.single.inWindow o.window = o.single := rfl

/-- The occurrences of an element, in the order of its windows. -/
def ofElement (arrival : Nat) (x : WindowedValue ι) : List (Occurrence ι) :=
  x.windows.zipIdx.map fun e => ⟨arrival, e.2, x, e.1⟩

/-- The occurrences that a signal brings. -/
def ofSignal : Signal ι ν → Nat → List (Occurrence ι)
  | .element x, arrival => ofElement arrival x
  | _, _ => []

/-- The occurrences that signals bring: elements as they arrive, windows as they are listed. -/
def received (signals : List (Signal ι ν)) : List (Occurrence ι) :=
  signals.zipIdx.flatMap fun e => ofSignal e.1 e.2

@[simp] theorem received_nil : received ([] : List (Signal ι ν)) = [] := rfl

@[simp] theorem received_concat (signals : List (Signal ι ν)) (s : Signal ι ν) :
    received (signals ++ [s]) = received signals ++ ofSignal s signals.length := by
  simp [received, List.zipIdx_append]

/-- The occurrences of an element are its window positions, each with the window found there. -/
theorem mem_ofElement {n : Nat} {x : WindowedValue ι} {o : Occurrence ι} :
    o ∈ ofElement n x ↔ o.arrival = n ∧ o.element = x ∧ x.windows[o.position]? = some o.window := by
  simp only [ofElement, List.mem_map, Prod.exists, List.mem_zipIdx_iff_getElem?]
  constructor
  · rintro ⟨w, i, hw, rfl⟩
    exact ⟨rfl, rfl, hw⟩
  · rintro ⟨rfl, rfl, hw⟩
    exact ⟨_, _, hw, rfl⟩

/-- Only an element brings occurrences. -/
theorem mem_ofSignal {s : Signal ι ν} {n : Nat} {o : Occurrence ι} :
    o ∈ ofSignal s n ↔
      o.arrival = n ∧ s = .element o.element ∧ o.element.windows[o.position]? = some o.window := by
  cases s with
  | element x =>
      rw [ofSignal, mem_ofElement]
      constructor
      · rintro ⟨hn, rfl, hw⟩
        exact ⟨hn, rfl, hw⟩
      · rintro ⟨hn, hx, hw⟩
        cases hx
        exact ⟨hn, rfl, hw⟩
  | _ => simp [ofSignal]

/-- An occurrence was received exactly if its signal and its window are where it says. -/
theorem mem_received {signals : List (Signal ι ν)} {o : Occurrence ι} :
    o ∈ received signals ↔
      signals[o.arrival]? = some (.element o.element) ∧
        o.element.windows[o.position]? = some o.window := by
  simp only [received, List.mem_flatMap, Prod.exists, List.mem_zipIdx_iff_getElem?, mem_ofSignal]
  constructor
  · rintro ⟨s, n, hs, rfl, rfl, hw⟩
    exact ⟨hs, hw⟩
  · rintro ⟨hs, hw⟩
    exact ⟨_, _, hs, rfl, rfl, hw⟩

/-- What has been received carries the place of a signal of the run. -/
theorem arrival_lt {signals : List (Signal ι ν)} {o : Occurrence ι} (h : o ∈ received signals) :
    o.arrival < signals.length :=
  (List.getElem?_eq_some_iff.1 (mem_received.1 h).1).1

/-- A window that an element lists twice makes two occurrences: their positions tell them apart. -/
theorem nodup_ofElement (n : Nat) (x : WindowedValue ι) : (ofElement n x).Nodup := by
  apply List.Nodup.of_map Occurrence.position
  have : (ofElement n x).map Occurrence.position = List.range' 0 x.windows.length := by
    rw [ofElement, List.map_map]
    exact List.zipIdx_map_snd 0 x.windows
  rw [this]
  exact List.nodup_range'

theorem nodup_ofSignal (s : Signal ι ν) (n : Nat) : (ofSignal s n).Nodup := by
  cases s with
  | element x => exact nodup_ofElement n x
  | _ => exact List.nodup_nil

/-- No occurrence is received twice. -/
theorem nodup_received (signals : List (Signal ι ν)) : (received signals).Nodup := by
  induction signals using List.reverseRecOn with
  | nil => exact List.nodup_nil
  | append_singleton signals s ih =>
      rw [received_concat]
      apply List.Nodup.append ih (nodup_ofSignal s _)
      intro o ho hs
      have hlt := arrival_lt ho
      rw [(mem_ofSignal.1 hs).1] at hlt
      exact Nat.lt_irrefl _ hlt

/-- The single-window copies of the occurrences that pass a test on their window. -/
theorem map_single_filter (n : Nat) (x : WindowedValue ι) (f : Window → Bool) :
    ((ofElement n x).filter fun o => f o.window).map single =
      (x.windows.filter f).map x.inWindow := by
  conv_rhs => rw [← List.zipIdx_map_fst 0 x.windows]
  rw [ofElement, List.filter_map, List.filter_map, List.map_map, List.map_map]
  rfl

/-- The calls for the occurrences that pass a test on their window. -/
theorem map_call_filter (n : Nat) (x : WindowedValue ι) (f : Window → Bool) :
    ((ofElement n x).filter fun o => f o.window).map call =
      (x.windows.filter f).map fun w => (x.inWindow w, w) := by
  conv_rhs => rw [← List.zipIdx_map_fst 0 x.windows]
  rw [ofElement, List.filter_map, List.filter_map, List.map_map, List.map_map]
  rfl

theorem map_call_ofElement (n : Nat) (x : WindowedValue ι) :
    (ofElement n x).map call = x.windows.map fun w => (x.inWindow w, w) := by
  simpa using map_call_filter n x fun _ => true

end Occurrence

end EventStream
