import EventStream.Config
import EventStream.Emission

/-!
# Side inputs

The latest value of every side input in every window. Values arrive one by one,
overwrite what was there and are never removed, so a window that has all its
side inputs keeps them.

## Implementation notes

The values are a list of pairs with distinct keys, in the order in which the keys
were first written. Nothing depends on that order; look-ups are the view of a
store.
-/

namespace EventStream

/-- A place for a value: the index of a side input and the window the value is for. -/
abbrev SideInputKey := Nat × Window

/-- The side inputs of a processor and the values they have so far. -/
structure SideInputs (ν : Type) where
  specs : List SideInputSpec
  values : List (SideInputKey × ν)

namespace SideInputs

variable {ν : Type}

/-- Side inputs without any values. -/
def empty (specs : List SideInputSpec) : SideInputs ν := ⟨specs, []⟩

/-- The value at a place among values. -/
def find? (key : SideInputKey) : List (SideInputKey × ν) → Option ν
  | [] => none
  | (k, v) :: rest => if k = key then some v else find? key rest

/-- Values with one place overwritten. -/
def overwrite (key : SideInputKey) (value : ν) :
    List (SideInputKey × ν) → List (SideInputKey × ν)
  | [] => [(key, value)]
  | (k, v) :: rest =>
    if k = key then (key, value) :: rest else (k, v) :: overwrite key value rest

/-- A value is found at the place written last, and all other places are as before. -/
theorem find?_overwrite (key key' : SideInputKey) (value : ν) (values : List (SideInputKey × ν)) :
    find? key' (overwrite key value values) =
      if key = key' then some value else find? key' values := by
  induction values with
  | nil => simp [overwrite, find?]
  | cons entry rest ih =>
      obtain ⟨k, v⟩ := entry
      simp only [overwrite]
      split
      · rename_i h
        subst h
        simp only [find?]
        split <;> rfl
      · simp only [find?, ih]
        split
        · rename_i hk hk'
          rw [if_neg fun h => hk (hk'.trans h.symm)]
        · rfl

/-- The value at a place. -/
def lookup (s : SideInputs ν) (key : SideInputKey) : Option ν := find? key s.values

/-- Writes a value at a place. -/
def write (s : SideInputs ν) (key : SideInputKey) (value : ν) : SideInputs ν :=
  { s with values := overwrite key value s.values }

@[simp] theorem specs_write (s : SideInputs ν) (key : SideInputKey) (value : ν) :
    (s.write key value).specs = s.specs := rfl

theorem lookup_write (s : SideInputs ν) (key key' : SideInputKey) (value : ν) :
    (s.write key value).lookup key' = if key = key' then some value else s.lookup key' :=
  find?_overwrite key key' value s.values

/-- The number of side inputs. -/
def count (s : SideInputs ν) : Nat := s.specs.length

/-- The value of a side input for a window of the main input. -/
def get (s : SideInputs ν) (index : Nat) (window : Window) : Option ν :=
  match s.specs[index]? with
  | some spec => s.lookup (index, spec.mapping.map window)
  | none => none

/-- The value of the side input with a name for a window of the main input. -/
def getById (s : SideInputs ν) (id : SideInputId) (window : Window) : Option ν :=
  match s.specs.findIdx? fun spec => spec.id == id with
  | some index => s.get index window
  | none => none

/-- Whether a side input has a value for a window of the main input. -/
def isReady (s : SideInputs ν) (index : Nat) (window : Window) : Bool :=
  (s.get index window).isSome

/-- Whether every side input has a value for a window of the main input. -/
def allReady (s : SideInputs ν) (window : Window) : Bool :=
  (List.range s.count).all fun index => s.isReady index window

/-- A window is ready when every side input shows a value in it. -/
theorem allReady_iff {s : SideInputs ν} {window : Window} :
    s.allReady window = true ↔ ∀ index, index < s.count → (s.get index window).isSome := by
  simp [allReady, isReady]

/-- Accepts an index that belongs to a side input. -/
def checkIndex (s : SideInputs ν) (index : Nat) : Except ProcessingError Unit :=
  if index < s.count then .ok () else .error (.unknownSideInput index s.count)

/-- Writes a value of a side input in each of its windows. -/
def writeAll (s : SideInputs ν) (index : Nat) (value : WindowedValue ν) : SideInputs ν :=
  value.windows.foldl (fun s window => s.write (index, window) value.value) s

@[simp] theorem specs_writeAll (s : SideInputs ν) (index : Nat) (value : WindowedValue ν) :
    (s.writeAll index value).specs = s.specs := by
  unfold writeAll
  induction value.windows generalizing s with
  | nil => rfl
  | cons w ws ih => rw [List.foldl_cons, ih, specs_write]

/-- A value is written under each of its windows, and nothing else changes. -/
theorem lookup_writeAll (s : SideInputs ν) (index : Nat) (value : WindowedValue ν)
    (key : SideInputKey) :
    (s.writeAll index value).lookup key =
      if index = key.1 ∧ key.2 ∈ value.windows then some value.value else s.lookup key := by
  unfold writeAll
  induction value.windows generalizing s with
  | nil => simp
  | cons w ws ih =>
      rw [List.foldl_cons, ih, lookup_write]
      obtain ⟨i, v⟩ := key
      by_cases hi : index = i
      · by_cases hv : v ∈ ws
        · simp [hi, hv]
        · by_cases hw : w = v
          · simp [hi, hv, hw]
          · simp [hi, hv, hw, Ne.symm hw]
      · simp [hi]

/-- Takes in a value of a side input, unless no side input has that index. -/
def insert (s : SideInputs ν) (index : Nat) (value : WindowedValue ν) :
    Except ProcessingError (SideInputs ν) :=
  match s.checkIndex index with
  | .ok () => .ok (s.writeAll index value)
  | .error e => .error e

/-- What is logged when a value of a side input was taken in. -/
def insertNotices (index : Nat) (value : WindowedValue ν) : List Notice :=
  if value.windows.isEmpty then [.sideInputDropped index value.timestamp] else []

end SideInputs

end EventStream
