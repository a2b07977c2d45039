import EventStream.Activity
import EventStream.Source.InputFormat
import EventStream.WindowedValue

/-!
# Readers of bounded sources

A bounded reader hands out the records of one split, converted. It is started,
advanced until the split is exhausted, and closed; it may be started again to
read the split from its beginning. Progress is the largest fraction the reader
behind it has claimed so far, so it never goes backwards.

## Implementation notes

At most one reader of the format is open at a time. Readers of the format are
numbered in the order in which they were opened, so that the calls on each of
them can be told apart.
-/

namespace EventStream

/-- A reader of a format that is open, with its number. -/
structure OpenReader (ρ : Type) where
  number : Nat
  state : ρ

/-- A reader of the records of one split, with keys and values converted. -/
structure BoundedReader (ρ ς κ ν κ' ν' : Type) where
  split : ς
  convertKey : κ → κ'
  convertValue : ν → ν'
  reader : Option (OpenReader ρ)
  /-- How many readers of the format were opened so far. -/
  opened : Nat
  current : Option (κ' × ν')
  recordsReturned : Nat
  progress : Binary64
  done : Bool
  closed : Bool

namespace BoundedReader

variable {φ ρ ς κ ν κ' ν' : Type}

/-- A call on a reader in the world of its format. -/
abbrev Call (φ ρ ς κ ν κ' ν' α : Type) :=
  Activity (BoundedReader ρ ς κ ν κ' ν' × φ) (SourceEffect ς) SourceError α

/-- The reader of a split before it was started. -/
def initial (split : ς) (convertKey : κ → κ') (convertValue : ν → ν') :
    BoundedReader ρ ς κ ν κ' ν' where
  split := split
  convertKey := convertKey
  convertValue := convertValue
  reader := none
  opened := 0
  current := none
  recordsReturned := 0
  progress := .zero
  done := false
  closed := false

/-! ## What a reader tells -/

/-- Records of bounded sources have no time of their own: they lie at the beginning of time. -/
def currentTimestamp (_ : BoundedReader ρ ς κ ν κ' ν') : Timestamp := .minValue

/-- The current record in the global window. -/
def currentWindowed (r : BoundedReader ρ ς κ ν κ' ν') : Option (WindowedValue (κ' × ν')) :=
  r.current.map fun record => .inGlobalWindow record r.currentTimestamp

/-- The fraction of the split that has been read. -/
def fractionConsumed (r : BoundedReader ρ ς κ ν κ' ν') : Binary64 :=
  if r.done then .one
  else if r.reader.isNone || r.recordsReturned == 0 then .zero
  else r.progress

/-- The number of splits that are still to be read: this one until it is exhausted. -/
def splitPointsRemaining (r : BoundedReader ρ ς κ ν κ' ν') : Nat := if r.done then 0 else 1

/-- A record with its key and its value converted. -/
def convert (r : BoundedReader ρ ς κ ν κ' ν') (record : κ × ν) : κ' × ν' :=
  (r.convertKey record.1, r.convertValue record.2)

/-! ## Calls on the reader behind -/

/-- Changes the reader and leaves the world alone. -/
def change (f : BoundedReader ρ ς κ ν κ' ν' → BoundedReader ρ ς κ ν κ' ν') :
    Call φ ρ ς κ ν κ' ν' Unit :=
  Activity.update fun (r, w) => (f r, w)

/-- Refuses the call if the reader is closed. -/
def ensureNotClosed : Call φ ρ ς κ ν κ' ν' Unit := fun (r, w) =>
  ⟨if r.closed then .error .closed else .ok (), (r, w), []⟩

/-- Lets go of the open reader and answers it. -/
def release : Call φ ρ ς κ ν κ' ν' (Option (OpenReader ρ)) := fun (r, w) =>
  ⟨.ok r.reader, ({ r with reader := none }, w), []⟩

variable (format : InputFormat φ ρ ς κ ν)

/-- Closes a reader of the format. -/
def closeBehind (behind : OpenReader ρ) : Call φ ρ ς κ ν κ' ν' Unit := fun (r, w) =>
  let (result, _, w') := format.close behind.state w
  ⟨result, (r, w'), [.call (.close behind.number)]⟩

/-- Closes the open reader if there is one. -/
def closeOpen : Call φ ρ ς κ ν κ' ν' Unit := do
  match ← release with
  | some behind => closeBehind format behind
  | none => return ()

/-- Opens a reader of the format for the split. -/
def openBehind : Call φ ρ ς κ ν κ' ν' (OpenReader ρ) := fun (r, w) =>
  match format.create r.split w with
  | (.ok state, w') =>
    ⟨.ok ⟨r.opened, state⟩, ({ r with opened := r.opened + 1 }, w'),
      [.call (.create r.split (some r.opened))]⟩
  | (.error e, w') => ⟨.error e, (r, w'), [.call (.create r.split none)]⟩

/-- Asks a reader of the format for a record; a failure is answered with the reader. -/
def readBehind (behind : OpenReader ρ) :
    Call φ ρ ς κ ν κ' ν' (Except SourceError (Option (κ × ν)) × OpenReader ρ) := fun (r, w) =>
  let (result, state, w') := format.next behind.state w
  ⟨.ok (result, { behind with state := state }), (r, w'), [.call (.next behind.number)]⟩

/-- Asks a reader of the format for its progress; a failure is answered with the reader. -/
def progressBehind (behind : OpenReader ρ) :
    Call φ ρ ς κ ν κ' ν' (Except SourceError Binary64 × OpenReader ρ) := fun (r, w) =>
  let (result, state, w') := format.progress behind.state w
  ⟨.ok (result, { behind with state := state }), (r, w'), [.call (.progress behind.number)]⟩

/-! ## Reading -/

/-- Moves to a record just read. -/
def moveTo (record : κ × ν) (r : BoundedReader ρ ς κ ν κ' ν') : BoundedReader ρ ς κ ν κ' ν' :=
  { r with current := some (r.convert record), recordsReturned := r.recordsReturned + 1 }

/-- Closes a reader whose first read failed. That this fails too is only logged. -/
def abandon (behind : OpenReader ρ) : Call φ ρ ς κ ν κ' ν' Unit := do
  match ← (closeBehind format behind).attempt with
  | .ok () => return ()
  | .error e => Activity.report [.note (.closingFailed e)]

/-- Opens the split and moves to its first record. Answers whether there is one. -/
def start : Call φ ρ ς κ ν κ' ν' Bool := do
  ensureNotClosed
  change fun r => { r with current := none }
  closeOpen format
  change fun r => { r with recordsReturned := 0, progress := .zero, done := false }
  let behind ← openBehind format
  let (result, behind) ← readBehind format behind
  match result with
  | .error e =>
    abandon format behind
    Activity.fail e
  | .ok (some record) =>
    change fun r => { r.moveTo record with reader := some behind }
    return true
  | .ok none =>
    closeBehind format behind
    change fun r => { r with done := true }
    return false

/-- Takes over the progress of the reader behind, as far as it goes forwards. -/
def updateProgress (behind : OpenReader ρ) : Call φ ρ ς κ ν κ' ν' (OpenReader ρ) := do
  let (result, behind) ← progressBehind format behind
  change fun r => { r with reader := some behind }
  let claimed ← Activity.ofExcept result
  change fun r => { r with progress := r.progress.max claimed.clampUnit }
  return behind

/-- Logs that the split is exhausted. -/
def logExhausted : Call φ ρ ς κ ν κ' ν' Unit := fun (r, w) =>
  ⟨.ok (), (r, w), [.note (.splitExhausted r.recordsReturned)]⟩

/-- Moves on in the reader behind. Answers whether there is a next record. -/
def advanceBehind (behind : OpenReader ρ) : Call φ ρ ς κ ν κ' ν' Bool := do
  -- progress is taken before reading: it describes the record handed out last
  let behind ← updateProgress format behind
  let (result, behind) ← readBehind format behind
  change fun r => { r with reader := some behind }
  match ← Activity.ofExcept result with
  | some record =>
    change (moveTo record)
    return true
  | none =>
    change fun r => { r with current := none, done := true }
    logExhausted
    return false

/-- Moves to the next record. Answers whether there is one. -/
def advance : Call φ ρ ς κ ν κ' ν' Bool := do
  ensureNotClosed
  let (r, _) ← Activity.read
  if r.done then return false
  match r.reader with
  | some behind => advanceBehind format behind
  | none => Activity.fail .notStarted

/-- Closes the reader for good. -/
def close : Call φ ρ ς κ ν κ' ν' Unit := do
  let (r, _) ← Activity.read
  if r.closed then return ()
  Activity.report [.note (.readerClosed r.recordsReturned)]
  change fun r => { r with closed := true, current := none }
  closeOpen format

end BoundedReader

end EventStream
